/-
# The shape of assets

`Asset.ofTable?` reads an asset by trying.  This module says what an asset is without reading it:
when a value is an access, a number, a colour, a pair or an entry of some kind, and which one
(`IsAccess`, `IsNumber`, `IsColor`, `IsPair`, `IsEntry`); when a table has the shape of an asset
(`Shaped`); and what declaration it spells (`Spells`).

Each reading function reads exactly what is described: one lemma for each of them, from the numbers
up to the list of values, each resting on those before.  Together they give `ofTable?_exact`: a
table is read exactly if it has the shape, and what is read is what it spells.  The description asks
a table for the values of its keys and nothing else, so the order of the keys does not matter
(`ofTable?_congr`).
-/
import EnumAssets.Asset
import EnumAssets.Proofs.Number.Rounding
import Mathlib.Data.List.Forall2

namespace EnumAssets.Asset

open Toml

variable {α β : Type}

/-! ## 1. What values say -/

/-- Whether a key has a value that says something. -/
def Has (t : Table) (key : String) (R : Value → α → Prop) (a : α) : Prop :=
  ∃ v, t.get? key = some v ∧ R v a

/-- Whether a key has a value that says something, or the default is said by leaving out the key. -/
def HasOr (default : α) (t : Table) (key : String) (R : Value → α → Prop) (a : α) : Prop :=
  (t.get? key = none ∧ a = default) ∨ Has t key R a

def IsText (v : Value) (s : String) : Prop :=
  v = .string s

def IsTruth (v : Value) (b : Bool) : Prop :=
  v = .boolean b

/-- An access is its name, or a table of that one key with nothing in it. -/
inductive IsAccess : Value → Access → Prop where
  | name (a : Access) : IsAccess (.string a.name) a
  | table (a : Access) : IsAccess (.table [(a.name, .table [])]) a
  | array (a : Access) : IsAccess (.table [(a.name, .array [])]) a

/-- A number of either sort, rounded. -/
inductive IsNumber : Value → Single → Prop where
  | integer (n : Int) : IsNumber (.integer n) (Single.ofInt n)
  | float (x : Double) : IsNumber (.float x) (Single.ofDouble x)

/-- **A number is read as the nearest that a channel can hold**, infinity as infinity, and what is
no number as no number.  One that a channel can hold is kept (`Single.Nearest.value_eq`). -/
theorem IsNumber.nearest {v : Value} {y : Single} (h : IsNumber v y) :
    (∃ n, v = .integer n ∧ y.Nearest n) ∨ ∃ x, v = .float x ∧
      ((x.code < Format.double.infinity ∧ y.Nearest x.value ∧ y.isNegative = x.isNegative) ∨
        (x.code = Format.double.infinity ∧ y = .ofCode x.isNegative Format.single.infinity) ∨
        (x.isNaN = true ∧ y.isNaN = true)) := by
  cases h with
  | integer n => exact Or.inl ⟨n, rfl, Single.nearest_ofInt n⟩
  | float x =>
    refine Or.inr ⟨x, rfl, ?_⟩
    rcases Nat.lt_trichotomy x.code Format.double.infinity with hlt | heq | hgt
    · exact Or.inl ⟨hlt, Single.nearest_ofDouble hlt⟩
    · exact Or.inr (Or.inl ⟨heq, Single.ofDouble_infinity heq⟩)
    · have hnan : x.isNaN = true := decide_eq_true hgt
      exact Or.inr (Or.inr ⟨hnan, Single.isNaN_ofDouble hnan⟩)

/-- A colour is a table of its channels, or a list of three or four numbers. -/
inductive IsColor : Value → Color → Prop where
  | table {t : Table} {c : Color} : Has t "r" IsNumber c.red → Has t "g" IsNumber c.green →
      Has t "b" IsNumber c.blue → HasOr Single.one t "a" IsNumber c.alpha → IsColor (.table t) c
  | three {r g b : Value} {red green blue : Single} : IsNumber r red → IsNumber g green →
      IsNumber b blue → IsColor (.array [r, g, b]) ⟨red, green, blue, Single.one⟩
  | four {r g b a : Value} {c : Color} : IsNumber r c.red → IsNumber g c.green →
      IsNumber b c.blue → IsNumber a c.alpha → IsColor (.array [r, g, b, a]) c

/-- A pair is a table with a name and a value, or a list of exactly these two. -/
inductive IsPair (R : Value → α → Prop) : Value → String × α → Prop where
  | table {t : Table} {n : String} {x : α} : Has t "name" IsText n → Has t "value" R x →
      IsPair R (.table t) (n, x)
  | array {v : Value} {n : String} {x : α} : R v x → IsPair R (.array [.string n, v]) (n, x)

/-- The kinds of assets. -/
inductive Kind where
  | simple
  | color
  | pair
  | objects (k : ObjectKind)
deriving DecidableEq, Repr

namespace Kind

/-- The name of a kind in an asset. -/
def label : Kind → String
  | simple => "simple"
  | color => "color"
  | pair => "pair"
  | objects k => k.label

example : [simple, color, pair, objects .audioClip, objects .prefab, objects .sprite].map label =
    ["simple", "color", "pair", "audio_clip", "prefab", "sprite"] := by decide

end Kind

/-- The entry that a value stands for in an asset of a kind. -/
inductive IsEntry : Kind → Value → Entry → Prop where
  | simple (n : String) : IsEntry .simple (.string n) (.plain n)
  | color {v : Value} {n : String} {c : Color} : IsPair IsColor v (n, c) →
      IsEntry .color v (.pair n (.color c))
  | pair {v w : Value} {n : String} : IsPair Eq v (n, w) → IsEntry .pair v (.pair n (.value w))
  | object (k : ObjectKind) (p : String) :
      IsEntry (.objects k) (.string p) (.reference ⟨k, .ofText p⟩)

/-- A list of values that stand for entries, in the same order. -/
def IsList (R : Value → α → Prop) (v : Value) (xs : List α) : Prop :=
  ∃ items, v = .array items ∧ List.Forall₂ R items xs

/-! ## 2. What tables say -/

/-- The shape of an asset. -/
structure Shaped (t : Table) : Prop where
  fileName : ∃ s, Has t "file_name" IsText s
  enumName : ∃ s, Has t "enumerator_name" IsText s
  namespaceName : t.get? "namespace_name" = none ∨ ∃ s, Has t "namespace_name" IsText s
  className : t.get? "class_name" = none ∨ ∃ s, Has t "class_name" IsText s
  isPartial : t.get? "is_partial" = none ∨ ∃ b, Has t "is_partial" IsTruth b
  classAccess : t.get? "class_access_type" = none ∨ ∃ a, Has t "class_access_type" IsAccess a
  enumAccess : t.get? "enum_access_type" = none ∨ ∃ a, Has t "enum_access_type" IsAccess a
  /-- The kind is one of the six, and every element of the values fits it. -/
  values : ∃ k : Kind, Has t "kind" IsText k.label ∧
    (t.get? "values" = none ∨
      ∃ items, t.get? "values" = some (.array items) ∧ ∀ v ∈ items, ∃ e, IsEntry k v e)

/-- The declaration that an asset of a kind spells: what is given, a default for what is left out,
and one entry for each element of the values. -/
structure Spells (t : Table) (k : Kind) (d : Declaration Entry) : Prop where
  kind : Has t "kind" IsText k.label
  fileName : Has t "file_name" IsText d.fileName
  enumName : Has t "enumerator_name" IsText d.enumName
  namespaceName : HasOr "" t "namespace_name" IsText d.namespaceName
  className : HasOr "" t "class_name" IsText d.className
  isPartial : HasOr false t "is_partial" IsTruth d.isPartial
  classAccess : HasOr .unspecified t "class_access_type" IsAccess d.classAccess
  enumAccess : HasOr .unspecified t "enum_access_type" IsAccess d.enumAccess
  values : HasOr [] t "values" (IsList (IsEntry k)) d.values

/-! ## 3. Reading values -/

/-- Whether a reading function reads exactly the values that are described. -/
def Reads (shape : Shape α) (R : Value → α → Prop) : Prop :=
  ∀ v a, shape v = some a ↔ R v a

theorem required_iff {shape : Shape α} {R : Value → α → Prop} (h : Reads shape R) {t : Table}
    {key : String} {a : α} : required shape t key = some a ↔ Has t key R a := by
  rw [required, Option.bind_eq_some_iff, Has]
  exact exists_congr fun v => and_congr_right fun _ => h v a

theorem optional_iff {shape : Shape α} {R : Value → α → Prop} (h : Reads shape R) {default : α}
    {t : Table} {key : String} {a : α} :
    optional shape default t key = some a ↔ HasOr default t key R a := by
  rw [optional, HasOr, Has]
  split
  · next hnone =>
    rw [Option.some.injEq, hnone]
    constructor
    · exact fun ha => Or.inl ⟨rfl, ha.symm⟩
    · rintro (⟨-, ha⟩ | ⟨v, hv, -⟩)
      · exact ha.symm
      · cases hv
  · next v hv =>
    rw [h v a, hv]
    constructor
    · exact fun ha => Or.inr ⟨v, rfl, ha⟩
    · rintro (⟨hnone, -⟩ | ⟨w, hw, ha⟩)
      · cases hnone
      · cases hw
        exact ha

theorem reads_text : Reads Value.string? IsText := by
  intro v s
  cases v <;> simp [Value.string?, IsText]

theorem reads_truth : Reads Value.boolean? IsTruth := by
  intro v b
  cases v <;> simp [Value.boolean?, IsTruth]

theorem ofName?_eq_some_iff {s : String} {a : Access} :
    Access.ofName? s = some a ↔ s = a.name := by
  constructor
  · intro h
    have hname := List.find?_some h
    exact (beq_iff_eq.mp hname).symm
  · rintro rfl
    exact Access.ofName?_name a

theorem reads_access : Reads access IsAccess := by
  intro v a
  constructor
  · intro h
    unfold access at h
    split at h
    · rw [ofName?_eq_some_iff.mp h]
      exact .name a
    · rw [ofName?_eq_some_iff.mp h]
      exact .table a
    · rw [ofName?_eq_some_iff.mp h]
      exact .array a
    · cases h
  · intro h
    cases h <;> exact Access.ofName?_name a

theorem reads_number : Reads channel IsNumber := by
  intro v x
  constructor
  · intro h
    cases v <;> cases h
    · exact .integer _
    · exact .float _
  · intro h
    cases h <;> rfl

theorem reads_color : Reads color IsColor := by
  intro v c
  constructor
  · intro h
    unfold color at h
    split at h
    · simp only [Option.bind_eq_bind, Option.bind_eq_some_iff, Option.pure_def,
        Option.some.injEq] at h
      obtain ⟨red, hred, green, hgreen, blue, hblue, alpha, halpha, rfl⟩ := h
      exact .table ((required_iff reads_number).mp hred) ((required_iff reads_number).mp hgreen)
        ((required_iff reads_number).mp hblue) ((optional_iff reads_number).mp halpha)
    · simp only [Option.bind_eq_bind, Option.bind_eq_some_iff, Option.pure_def,
        Option.some.injEq] at h
      obtain ⟨red, hred, green, hgreen, blue, hblue, rfl⟩ := h
      exact .three ((reads_number _ _).mp hred) ((reads_number _ _).mp hgreen)
        ((reads_number _ _).mp hblue)
    · simp only [Option.bind_eq_bind, Option.bind_eq_some_iff, Option.pure_def,
        Option.some.injEq] at h
      obtain ⟨red, hred, green, hgreen, blue, hblue, alpha, halpha, rfl⟩ := h
      exact .four ((reads_number _ _).mp hred) ((reads_number _ _).mp hgreen)
        ((reads_number _ _).mp hblue) ((reads_number _ _).mp halpha)
    · cases h
  · intro h
    cases h with
    | table hred hgreen hblue halpha =>
      rw [color, (required_iff reads_number).mpr hred, (required_iff reads_number).mpr hgreen,
        (required_iff reads_number).mpr hblue, (optional_iff reads_number).mpr halpha]
      rfl
    | three hred hgreen hblue =>
      rw [color, (reads_number _ _).mpr hred, (reads_number _ _).mpr hgreen,
        (reads_number _ _).mpr hblue]
      rfl
    | four hred hgreen hblue halpha =>
      rw [color, (reads_number _ _).mpr hred, (reads_number _ _).mpr hgreen,
        (reads_number _ _).mpr hblue, (reads_number _ _).mpr halpha]
      rfl

theorem reads_pairOf {shape : Shape α} {R : Value → α → Prop} (h : Reads shape R) :
    Reads (pairOf shape) (IsPair R) := by
  rintro v ⟨n, x⟩
  constructor
  · intro hread
    unfold pairOf at hread
    split at hread
    · simp only [Option.bind_eq_bind, Option.bind_eq_some_iff, Option.pure_def, Option.some.injEq,
        Prod.mk.injEq] at hread
      obtain ⟨m, hname, y, hvalue, rfl, rfl⟩ := hread
      exact .table ((required_iff reads_text).mp hname) ((required_iff h).mp hvalue)
    · simp only [Option.bind_eq_bind, Option.bind_eq_some_iff, Option.pure_def, Option.some.injEq,
        Prod.mk.injEq] at hread
      obtain ⟨m, hname, y, hvalue, rfl, rfl⟩ := hread
      rw [(reads_text _ _).mp hname]
      exact .array ((h _ _).mp hvalue)
    · cases hread
  · intro hpair
    cases hpair with
    | table hname hvalue =>
      rw [pairOf, (required_iff reads_text).mpr hname, (required_iff h).mpr hvalue]
      rfl
    | array hvalue =>
      rw [pairOf, Value.string?, (h _ _).mpr hvalue]
      rfl

/-! ## 4. Reading lists -/

theorem mapM_eq_some_iff {shape : Shape α} {R : Value → α → Prop} (h : Reads shape R) :
    ∀ {items : List Value} {xs : List α}, items.mapM shape = some xs ↔ List.Forall₂ R items xs
  | [], xs => by
    rw [List.mapM_nil, List.forall₂_nil_left_iff, Option.pure_def, Option.some.injEq]
    exact eq_comm
  | v :: rest, xs => by
    rw [List.mapM_cons, List.forall₂_cons_left_iff]
    simp only [Option.bind_eq_bind, Option.bind_eq_some_iff, Option.pure_def, Option.some.injEq]
    constructor
    · rintro ⟨x, hx, others, hothers, rfl⟩
      exact ⟨x, others, (h v x).mp hx, (mapM_eq_some_iff h).mp hothers, rfl⟩
    · rintro ⟨x, others, hx, hothers, rfl⟩
      exact ⟨x, (h v x).mpr hx, others, (mapM_eq_some_iff h).mpr hothers, rfl⟩

theorem reads_listOf {shape : Shape α} {R : Value → α → Prop} (h : Reads shape R) :
    Reads (listOf shape) (IsList R) := by
  intro v xs
  rw [IsList]
  cases v with
  | array items =>
    rw [listOf, mapM_eq_some_iff h]
    constructor
    · exact fun hall => ⟨items, rfl, hall⟩
    · rintro ⟨items', hitems, hall⟩
      cases hitems
      exact hall
  | _ =>
    constructor
    · intro hread
      cases hread
    · rintro ⟨items, hitems, -⟩
      cases hitems

/-- What is made of the elements of a list is said by the same list. -/
theorem isList_map {R : Value → α → Prop} {S : Value → β → Prop} {f : α → β}
    (h : ∀ v b, S v b ↔ ∃ a, R v a ∧ b = f a) {v : Value} {ys : List β} :
    IsList S v ys ↔ ∃ xs, IsList R v xs ∧ ys = xs.map f := by
  constructor
  · rintro ⟨items, rfl, hall⟩
    induction hall with
    | nil => exact ⟨[], ⟨[], rfl, .nil⟩, rfl⟩
    | cons hfirst hrest ih =>
      obtain ⟨xs, ⟨items', hitems, hxs⟩, rfl⟩ := ih
      cases hitems
      obtain ⟨x, hx, rfl⟩ := (h _ _).mp hfirst
      exact ⟨x :: xs, ⟨_, rfl, .cons hx hxs⟩, rfl⟩
  · rintro ⟨xs, ⟨items, rfl, hall⟩, rfl⟩
    refine ⟨items, rfl, List.forall₂_map_right_iff.mpr ?_⟩
    exact hall.imp fun v x hx => (h v (f x)).mpr ⟨x, hx, rfl⟩

theorem hasOr_map {R : Value → List α → Prop} {S : Value → List β → Prop} {f : α → β}
    (h : ∀ v ys, S v ys ↔ ∃ xs, R v xs ∧ ys = xs.map f) {t : Table} {key : String} {ys : List β} :
    HasOr [] t key S ys ↔ ∃ xs, HasOr [] t key R xs ∧ ys = xs.map f := by
  constructor
  · rintro (⟨hnone, rfl⟩ | ⟨v, hv, hys⟩)
    · exact ⟨[], Or.inl ⟨hnone, rfl⟩, rfl⟩
    · obtain ⟨xs, hxs, rfl⟩ := (h v ys).mp hys
      exact ⟨xs, Or.inr ⟨v, hv, hxs⟩, rfl⟩
  · rintro ⟨xs, ⟨hnone, rfl⟩ | ⟨v, hv, hxs⟩, rfl⟩
    · exact Or.inl ⟨hnone, rfl⟩
    · exact Or.inr ⟨v, hv, (h v _).mpr ⟨xs, hxs, rfl⟩⟩

/-- A list can be said exactly if each of its elements says something. -/
theorem exists_forall₂_iff {R : α → β → Prop} : ∀ {as : List α},
    (∃ bs, List.Forall₂ R as bs) ↔ ∀ a ∈ as, ∃ b, R a b
  | [] => iff_of_true ⟨[], .nil⟩ nofun
  | a :: as => by
    rw [List.forall_mem_cons, ← exists_forall₂_iff]
    constructor
    · rintro ⟨_, _ | ⟨hfirst, hrest⟩⟩
      exact ⟨⟨_, hfirst⟩, _, hrest⟩
    · rintro ⟨⟨b, hb⟩, bs, hbs⟩
      exact ⟨b :: bs, .cons hb hbs⟩

/-! ## 5. Reading the values of an asset -/

/-- One kind of asset reads its values like another one: a list is read, and each of its elements
becomes an entry. -/
theorem exists_values_iff {shape : Shape α} {R : Value → α → Prop} (h : Reads shape R) {k : Kind}
    {f : α → Entry} (hentry : ∀ v e, IsEntry k v e ↔ ∃ x, R v x ∧ e = f x)
    {ofList : List α → AssetValues} (hentries : ∀ xs, (ofList xs).entries = xs.map f) {t : Table}
    {es : List Entry} :
    (∃ values, (optional (listOf shape) [] t "values").map ofList = some values ∧
      values.entries = es) ↔ HasOr [] t "values" (IsList (IsEntry k)) es := by
  refine Iff.trans ?_ (hasOr_map (S := IsList (IsEntry k)) fun v ys => isList_map hentry).symm
  constructor
  · rintro ⟨values, hvalues, rfl⟩
    obtain ⟨xs, hxs, rfl⟩ := Option.map_eq_some_iff.mp hvalues
    exact ⟨xs, (optional_iff (reads_listOf h)).mp hxs, hentries xs⟩
  · rintro ⟨xs, hxs, rfl⟩
    rw [(optional_iff (reads_listOf h)).mpr hxs]
    exact ⟨ofList xs, rfl, hentries xs⟩

theorem isEntry_simple_iff (v : Value) (e : Entry) :
    IsEntry .simple v e ↔ ∃ n, IsText v n ∧ e = .plain n := by
  constructor
  · rintro ⟨n⟩
    exact ⟨n, rfl, rfl⟩
  · rintro ⟨n, rfl, rfl⟩
    exact .simple n

theorem isEntry_color_iff (v : Value) (e : Entry) :
    IsEntry .color v e ↔ ∃ p, IsPair IsColor v p ∧ e = .pair p.1 (.color p.2) := by
  constructor
  · rintro (_ | hpair)
    exact ⟨_, hpair, rfl⟩
  · rintro ⟨p, hpair, rfl⟩
    exact .color hpair

theorem isEntry_pair_iff (v : Value) (e : Entry) :
    IsEntry .pair v e ↔ ∃ p, IsPair Eq v p ∧ e = .pair p.1 (.value p.2) := by
  constructor
  · rintro (_ | _ | hpair)
    exact ⟨_, hpair, rfl⟩
  · rintro ⟨p, hpair, rfl⟩
    exact .pair hpair

theorem isEntry_objects_iff (k : ObjectKind) (v : Value) (e : Entry) :
    IsEntry (.objects k) v e ↔ ∃ p, IsText v p ∧ e = .reference ⟨k, .ofText p⟩ := by
  constructor
  · rintro (_ | _ | _ | ⟨_, p⟩)
    exact ⟨p, rfl, rfl⟩
  · rintro ⟨p, rfl, rfl⟩
    exact .object k p

/-- The kind of the values is the one that the asset names. -/
theorem kind_of_valuesOf {s : String} {t : Table} {values : AssetValues}
    (h : valuesOf s t = some values) : values.kind = s := by
  rw [valuesOf] at h
  split at h
  · next hsimple =>
    obtain ⟨xs, -, rfl⟩ := Option.map_eq_some_iff.mp h
    exact hsimple.symm
  · split at h
    · next hcolor =>
      obtain ⟨xs, -, rfl⟩ := Option.map_eq_some_iff.mp h
      exact hcolor.symm
    · split at h
      · next hpair =>
        obtain ⟨xs, -, rfl⟩ := Option.map_eq_some_iff.mp h
        exact hpair.symm
      · split at h
        · next k hk =>
          obtain ⟨xs, -, rfl⟩ := Option.map_eq_some_iff.mp h
          have hlabel := List.find?_some (p := fun k : ObjectKind => k.label == s) hk
          exact beq_iff_eq.mp hlabel
        · cases h

theorem valuesOf_objects (k : ObjectKind) (t : Table) :
    valuesOf k.label t = (optional (listOf Value.string?) [] t "values").map (.objects k) := by
  have hother : k.label ≠ "simple" ∧ k.label ≠ "color" ∧ k.label ≠ "pair" := by
    cases k <;> decide
  rw [valuesOf, if_neg hother.1, if_neg hother.2.1, if_neg hother.2.2, ObjectKind.ofLabel?_label]

/-- **The values of an asset** are read as its kind says. -/
theorem exists_valuesOf_iff (k : Kind) {t : Table} {es : List Entry} :
    (∃ values, valuesOf k.label t = some values ∧ values.entries = es) ↔
      HasOr [] t "values" (IsList (IsEntry k)) es := by
  cases k with
  | simple => exact exists_values_iff reads_text isEntry_simple_iff fun _ => rfl
  | color => exact exists_values_iff (reads_pairOf reads_color) isEntry_color_iff fun _ => rfl
  | pair =>
    have hany : Reads (some : Shape Value) Eq := fun _ _ => Option.some_inj
    exact exists_values_iff (reads_pairOf hany) isEntry_pair_iff fun _ => rfl
  | objects k =>
    rw [Kind.label, valuesOf_objects]
    exact exists_values_iff reads_text (isEntry_objects_iff k) fun _ => rfl

/-! ## 6. Reading assets -/

/-- **What is read of an asset** is what it spells. -/
theorem exists_ofTable?_iff {t : Table} {k : Kind} {d : Declaration Entry} :
    (∃ a, ofTable? t = some a ∧ a.values.kind = k.label ∧ a.declaration = d) ↔ Spells t k d := by
  constructor
  · rintro ⟨a, ha, hlabel, rfl⟩
    simp only [ofTable?, Option.bind_eq_bind, Option.bind_eq_some_iff, Option.pure_def,
      Option.some.injEq] at ha
    obtain ⟨fileName, hfile, namespaceName, hnamespace, className, hclass, isPartial, hpartial,
      classAccess, hclassAccess, enumName, henum, enumAccess, henumAccess, kind, hkind, values,
      hvalues, rfl⟩ := ha
    have hsame : kind = k.label := (kind_of_valuesOf hvalues).symm.trans hlabel
    rw [hsame] at hkind hvalues
    exact {
      kind := (required_iff reads_text).mp hkind
      fileName := (required_iff reads_text).mp hfile
      enumName := (required_iff reads_text).mp henum
      namespaceName := (optional_iff reads_text).mp hnamespace
      className := (optional_iff reads_text).mp hclass
      isPartial := (optional_iff reads_truth).mp hpartial
      classAccess := (optional_iff reads_access).mp hclassAccess
      enumAccess := (optional_iff reads_access).mp henumAccess
      values := (exists_valuesOf_iff k).mp ⟨values, hvalues, rfl⟩ }
  · intro h
    obtain ⟨values, hvalues, hentries⟩ := (exists_valuesOf_iff k).mpr h.values
    have hread : ofTable? t = some ⟨d.withValues [], values⟩ := by
      simp only [ofTable?, (required_iff reads_text).mpr h.kind,
        (required_iff reads_text).mpr h.fileName, (required_iff reads_text).mpr h.enumName,
        (optional_iff reads_text).mpr h.namespaceName, (optional_iff reads_text).mpr h.className,
        (optional_iff reads_truth).mpr h.isPartial, (optional_iff reads_access).mpr h.classAccess,
        (optional_iff reads_access).mpr h.enumAccess, hvalues, Option.bind_eq_bind,
        Option.bind_some, Option.pure_def]
      rfl
    refine ⟨_, hread, kind_of_valuesOf hvalues, ?_⟩
    rw [declaration, hentries]
    rfl

/-- Every asset is of one of the six kinds. -/
theorem exists_kind (values : AssetValues) : ∃ k : Kind, values.kind = k.label := by
  cases values with
  | simple => exact ⟨.simple, rfl⟩
  | color => exact ⟨.color, rfl⟩
  | pair => exact ⟨.pair, rfl⟩
  | objects k => exact ⟨.objects k, rfl⟩

theorem exists_hasOr_iff (default : α) {t : Table} {key : String} {R : Value → α → Prop} :
    (∃ a, HasOr default t key R a) ↔ t.get? key = none ∨ ∃ a, Has t key R a := by
  constructor
  · rintro ⟨a, ⟨hnone, -⟩ | ha⟩
    · exact Or.inl hnone
    · exact Or.inr ⟨a, ha⟩
  · rintro (hnone | ⟨a, ha⟩)
    · exact ⟨default, Or.inl ⟨hnone, rfl⟩⟩
    · exact ⟨a, Or.inr ha⟩

theorem exists_has_isList_iff {t : Table} {key : String} {R : Value → α → Prop} :
    (∃ xs, Has t key (IsList R) xs) ↔
      ∃ items, t.get? key = some (.array items) ∧ ∀ v ∈ items, ∃ x, R v x := by
  constructor
  · rintro ⟨xs, v, hv, items, rfl, hall⟩
    exact ⟨items, hv, exists_forall₂_iff.mp ⟨xs, hall⟩⟩
  · rintro ⟨items, hv, heach⟩
    obtain ⟨xs, hall⟩ := exists_forall₂_iff.mpr heach
    exact ⟨xs, _, hv, items, rfl, hall⟩

/-- **The tables of the shape** are those that spell a declaration. -/
theorem exists_spells_iff {t : Table} : (∃ k d, Spells t k d) ↔ Shaped t := by
  constructor
  · rintro ⟨k, d, h⟩
    exact {
      fileName := ⟨_, h.fileName⟩
      enumName := ⟨_, h.enumName⟩
      namespaceName := (exists_hasOr_iff _).mp ⟨_, h.namespaceName⟩
      className := (exists_hasOr_iff _).mp ⟨_, h.className⟩
      isPartial := (exists_hasOr_iff _).mp ⟨_, h.isPartial⟩
      classAccess := (exists_hasOr_iff _).mp ⟨_, h.classAccess⟩
      enumAccess := (exists_hasOr_iff _).mp ⟨_, h.enumAccess⟩
      values := ⟨k, h.kind,
        ((exists_hasOr_iff _).mp ⟨_, h.values⟩).imp_right exists_has_isList_iff.mp⟩ }
  · intro h
    obtain ⟨fileName, hfile⟩ := h.fileName
    obtain ⟨enumName, henum⟩ := h.enumName
    obtain ⟨namespaceName, hnamespace⟩ := (exists_hasOr_iff "").mpr h.namespaceName
    obtain ⟨className, hclass⟩ := (exists_hasOr_iff "").mpr h.className
    obtain ⟨isPartial, hpartial⟩ := (exists_hasOr_iff false).mpr h.isPartial
    obtain ⟨classAccess, hclassAccess⟩ :=
      (exists_hasOr_iff Access.unspecified).mpr h.classAccess
    obtain ⟨enumAccess, henumAccess⟩ :=
      (exists_hasOr_iff Access.unspecified).mpr h.enumAccess
    obtain ⟨k, hkind, hlist⟩ := h.values
    obtain ⟨values, hvalues⟩ := (exists_hasOr_iff ([] : List Entry)).mpr
      (hlist.imp_right exists_has_isList_iff.mpr)
    exact ⟨k,
      { fileName, namespaceName, className, isPartial, classAccess, enumName, enumAccess, values },
      hkind, hfile, henum, hnamespace, hclass, hpartial, hclassAccess, henumAccess, hvalues⟩

/-- **Reading an asset is exact.**  It succeeds for the tables of the shape and for no others, and
gives the declaration that the table spells and no other. -/
theorem ofTable?_exact (t : Table) :
    ((∃ a, ofTable? t = some a) ↔ Shaped t) ∧
      ∀ (k : Kind) (d : Declaration Entry),
        (∃ a, ofTable? t = some a ∧ a.values.kind = k.label ∧ a.declaration = d) ↔
          Spells t k d := by
  refine ⟨?_, fun k d => exists_ofTable?_iff⟩
  rw [← exists_spells_iff]
  constructor
  · rintro ⟨a, ha⟩
    obtain ⟨k, hk⟩ := exists_kind a.values
    exact ⟨k, a.declaration, exists_ofTable?_iff.mp ⟨a, ha, hk, rfl⟩⟩
  · rintro ⟨k, d, h⟩
    obtain ⟨a, ha, -, -⟩ := exists_ofTable?_iff.mpr h
    exact ⟨a, ha⟩

/-- Tables with the same values of keys are read alike, in whatever order they have their keys. -/
theorem ofTable?_congr {t t' : Table} (h : ∀ key, t.get? key = t'.get? key) :
    ofTable? t = ofTable? t' := by
  simp only [ofTable?, required, optional, valuesOf, h]

end EnumAssets.Asset

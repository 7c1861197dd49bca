/-
# Namespaces are names with dots between them

A namespace is read by its stretches between dots.  Putting texts together with dots between them is
undone by this reading if no text has a dot of its own, and no name has one.  So a text is a
namespace exactly if one or more names spell it, and then these names are its stretches: no other
names spell it (`Spells.eq_stretches`).

A dot between two texts parts the stretches of the one from those of the other
(`stretches_append_dot`), so the whole is a namespace exactly if both texts are.  In particular
there is no room for an empty stretch, wherever it stands, nor for a reserved word by itself
(`isNamespace_intercalate_iff`).
-/
import EnumAssets.Proofs.Identifier.Characters

namespace EnumAssets.Identifier

variable {s a b w : String} {names : List String}

/-! ## 1. The stretches of a text -/

/-- The stretches of a text between its dots. -/
def stretches (s : String) : List String :=
  (s.toList.splitOn '.').map String.ofList

theorem isNamespace_eq_all (s : String) : isNamespace s = (stretches s).all isIdentifier := by
  rw [isNamespace, stretches, List.all_map]
  rfl

theorem map_toList_stretches (s : String) :
    (stretches s).map String.toList = s.toList.splitOn '.' := by
  simp [stretches, Function.comp_def]

theorem stretches_ne_nil (s : String) : stretches s ≠ [] := by
  simp [stretches, List.splitOn_ne_nil]

/-- The stretches with dots between them are the text again. -/
theorem intercalate_stretches (s : String) : ".".intercalate (stretches s) = s := by
  rw [← String.toList_inj, String.toList_intercalate, map_toList_stretches]
  exact List.intercalate_splitOn '.'

/-- Texts without dots are the stretches of what they make up with dots between them. -/
theorem stretches_intercalate (hne : names ≠ []) (h : ∀ n ∈ names, '.' ∉ n.toList) :
    stretches (".".intercalate names) = names := by
  have hsplit : (['.'].intercalate (names.map String.toList)).splitOn '.' =
      names.map String.toList := by
    refine List.splitOn_intercalate '.' ?_ (by simpa using hne)
    simpa using h
  rw [stretches, String.toList_intercalate]
  exact (congrArg (List.map String.ofList) hsplit).trans (by simp [Function.comp_def])

theorem stretches_of_noDot (h : '.' ∉ s.toList) : stretches s = [s] := by
  rw [stretches, List.splitOn_eq_singleton h, List.map_singleton, String.ofList_toList]

/-- **A dot between two texts** parts their stretches. -/
theorem stretches_append_dot (a b : String) :
    stretches (a ++ "." ++ b) = stretches a ++ stretches b := by
  have htext : (a ++ "." ++ b).toList = a.toList ++ '.' :: b.toList := by simp
  rw [stretches, htext, List.splitOn_append_cons_self, List.map_append, stretches, stretches]

/-! ## 2. Namespaces of names -/

/-- Whether one or more names spell a text, with dots between them. -/
structure Spells (names : List String) (s : String) : Prop where
  ne_nil : names ≠ []
  isIdentifier : ∀ n ∈ names, isIdentifier n = true
  intercalate_eq : ".".intercalate names = s

/-- A name has no dot. -/
theorem dot_not_mem (h : isIdentifier s = true) : '.' ∉ s.toList :=
  not_mem_of_barred h (by decide)

/-- **The names that spell a text** are its stretches, so there is no choice. -/
theorem Spells.eq_stretches (h : Spells names s) : names = stretches s := by
  rw [← h.intercalate_eq,
    stretches_intercalate h.ne_nil fun n hn => dot_not_mem (h.isIdentifier n hn)]

/-- **A namespace** is what its stretches spell. -/
theorem isNamespace_iff_spells : isNamespace s = true ↔ Spells (stretches s) s := by
  rw [isNamespace_eq_all, List.all_eq_true]
  exact ⟨fun h => ⟨stretches_ne_nil s, h, intercalate_stretches s⟩, fun h => h.isIdentifier⟩

/-! ## 3. Namespaces of namespaces -/

theorem isNamespace_append_dot (a b : String) :
    isNamespace (a ++ "." ++ b) = (isNamespace a && isNamespace b) := by
  rw [isNamespace_eq_all, stretches_append_dot, List.all_append, ← isNamespace_eq_all,
    ← isNamespace_eq_all]

/-- A text without dots is a namespace if it is a name. -/
theorem isNamespace_of_noDot (h : '.' ∉ s.toList) : isNamespace s = isIdentifier s := by
  rw [isNamespace_eq_all, stretches_of_noDot h, List.all_cons, List.all_nil, Bool.and_true]

theorem isNamespace_empty : isNamespace "" = false :=
  isNamespace_of_noDot (by simp)

/-- A reserved word by itself is no namespace. -/
theorem isNamespace_of_isReserved (h : isReserved w = true) : isNamespace w = false := by
  have hpart := isPart_of_mem_reserved w (List.contains_iff_mem.mp h)
  have hdot : '.' ∉ w.toList := fun hmem => absurd (hpart '.' hmem) (by decide +kernel)
  rw [isNamespace_of_noDot hdot, Bool.eq_false_iff]
  intro hname
  rcases isIdentifier_cases hname with ⟨-, hfree⟩ | ⟨word, hw, -⟩
  · rw [h] at hfree
    cases hfree
  · have hat : '@' ∈ w.toList := hw ▸ List.mem_cons_self
    exact at_not_mem hpart hat

/-- **Texts with dots between them** are a namespace if each of them is one. -/
theorem isNamespace_intercalate_iff : ∀ {texts : List String}, texts ≠ [] →
    (isNamespace (".".intercalate texts) = true ↔ ∀ s ∈ texts, isNamespace s = true)
  | [], hne => absurd rfl hne
  | [s], _ => by simp
  | s :: s' :: texts, _ => by
    rw [String.intercalate_cons_cons, isNamespace_append_dot, Bool.and_eq_true,
      isNamespace_intercalate_iff (List.cons_ne_nil s' texts)]
    simp

/-- **The grammar of namespaces.**  A text is a namespace exactly if one or more names spell it, and
it is spelled in one way; two texts with a dot between them are one exactly if both are; and empty
stretches and reserved words are always refused. -/
theorem namespace_grammar (s a b : String) :
    ((isNamespace s = true ↔ ∃ names, Spells names s) ∧
        ∀ names names', Spells names s → Spells names' s → names = names') ∧
      (isNamespace (a ++ "." ++ b) = true ↔ isNamespace a = true ∧ isNamespace b = true) ∧
      (isNamespace "" = false ∧ isNamespace ("." ++ s) = false ∧ isNamespace (s ++ ".") = false ∧
        isNamespace (a ++ ".." ++ b) = false) ∧
      ∀ texts w, w ∈ texts → isReserved w = true → isNamespace (".".intercalate texts) = false := by
  refine ⟨⟨⟨fun h => ⟨_, isNamespace_iff_spells.mp h⟩, ?_⟩, fun names names' h h' => ?_⟩, ?_,
    ⟨isNamespace_empty, ?_, ?_, ?_⟩, fun texts w hw hreserved => ?_⟩
  · rintro ⟨names, h⟩
    exact isNamespace_iff_spells.mpr (h.eq_stretches ▸ h)
  · exact h.eq_stretches.trans h'.eq_stretches.symm
  · rw [isNamespace_append_dot, Bool.and_eq_true]
  · have hlead : "." ++ s = "" ++ "." ++ s := by simp
    rw [hlead, isNamespace_append_dot, isNamespace_empty, Bool.false_and]
  · have htrail : s ++ "." = s ++ "." ++ "" := by simp
    rw [htrail, isNamespace_append_dot, isNamespace_empty, Bool.and_false]
  · have hdouble : a ++ ".." ++ b = a ++ "." ++ ("" ++ "." ++ b) := by
      simp [← String.toList_inj]
    rw [hdouble, isNamespace_append_dot, isNamespace_append_dot, isNamespace_empty, Bool.false_and,
      Bool.and_false]
  · rw [Bool.eq_false_iff]
    intro h
    have hone := (isNamespace_intercalate_iff (List.ne_nil_of_mem hw)).mp h w hw
    rw [isNamespace_of_isReserved hreserved] at hone
    cases hone

example : stretches "Game.@class." = ["Game", "@class", ""] := by decide

end EnumAssets.Identifier

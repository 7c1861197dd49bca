/-
# The scopes of a declaration and the lines they open

The text of a declaration is a block: one, two or three scopes around the values.  The model builds
the opening of a scope as a list of characters.  Here a `Scope` is what the opening says, which is
some keywords and a name, and `openings_eq_map` proves that the openings are these words with one
space between them.  So whatever is to be shown about the characters of an opening follows from two
facts about words: a keyword is made of letters, and a name holds no barred character
(`plain_opening`).

The values are the other half of the text.  `mem_valueLines` says what their lines are made of, and
`map_filter_valueLines` that the commas are all that the lines add to the names.
-/
import EnumAssets.Proofs.Declaration.Diagnosis
import EnumAssets.Proofs.Identifier.Characters

namespace EnumAssets

/-! ## 1. Scopes and their words -/

/-- The words of an access in front of a declaration. -/
def Access.words : Access → List String
  | .unspecified => []
  | .publicAccess => ["public"]
  | .protectedAccess => ["protected"]
  | .internalAccess => ["internal"]
  | .protectedInternal => ["protected", "internal"]
  | .privateAccess => ["private"]
  | .privateProtected => ["private", "protected"]

/-- A scope of the generated text. -/
inductive Scope where
  | namespaceOf (name : String)
  | classOf (access : Access) (isPartial : Bool) (name : String)
  | enumOf (access : Access) (name : String)
deriving DecidableEq

namespace Scope

/-- The words in front of the name. -/
def keywords : Scope → List String
  | .namespaceOf _ => ["namespace"]
  | .classOf a isPartial _ => a.words ++ (if isPartial then ["partial"] else []) ++ ["class"]
  | .enumOf a _ => a.words ++ ["enum"]

/-- The name of what the scope declares. -/
def name : Scope → String
  | .namespaceOf n => n
  | .classOf _ _ n => n
  | .enumOf _ n => n

/-- The line that opens the scope, as far as the brace: each keyword with a space, then the name. -/
def opening (s : Scope) : Opening :=
  (s.keywords.map String.toList).flatMap (· ++ [' ']) ++ s.name.toList

/-- Whether the name is one that a checked declaration can have there. -/
def Proper : Scope → Prop
  | .namespaceOf n => Identifier.isNamespace n = true
  | .classOf _ _ n => Identifier.isIdentifier n = true
  | .enumOf _ n => Identifier.isIdentifier n = true

end Scope

theorem Access.modifier_eq (a : Access) :
    a.modifier.toList = (a.words.map String.toList).flatMap (· ++ [' ']) := by
  cases a <;> decide

namespace Declaration

variable {α : Type}

/-- The scopes of a declaration, the outermost first. -/
def scopes (d : Declaration α) : List Scope :=
  (if d.hasNamespace then [.namespaceOf d.namespaceName] else []) ++
    (if d.hasClass then [.classOf d.classAccess d.isPartial d.className] else []) ++
    [.enumOf d.enumAccess d.enumName]

/-- **The openings are the words of the scopes**, one space behind each keyword. -/
theorem openings_eq_map (d : Declaration α) : d.openings = d.scopes.map Scope.opening := by
  have hspace : "namespace ".toList = "namespace".toList ++ [' '] := by decide
  have hclass : "class ".toList = "class".toList ++ [' '] := by decide
  have henum : "enum ".toList = "enum".toList ++ [' '] := by decide
  have hpartial : (if d.isPartial then "partial ".toList else []) =
      ((if d.isPartial then ["partial"] else []).map String.toList).flatMap (· ++ [' ']) := by
    cases d.isPartial <;> decide
  rw [openings, scopes, hspace, hclass, henum, hpartial, Access.modifier_eq, Access.modifier_eq]
  cases d.hasNamespace <;> cases d.hasClass <;>
    simp [Scope.opening, Scope.keywords, Scope.name]

/-- How deep the values stand: the enum, and the namespace and the class if there are any. -/
def depth (d : Declaration α) : Nat :=
  1 + (if d.namespaceName = "" then 0 else 1) + (if d.className = "" then 0 else 1)

theorem length_openings (d : Declaration α) : d.openings.length = d.depth := by
  rw [openings_eq_map, List.length_map]
  by_cases hn : d.namespaceName = "" <;> by_cases hc : d.className = "" <;>
    simp [scopes, depth, hasNamespace, hasClass, hn, hc]

/-- The scopes say all that shows in the text beside the values: the names, the access of the enum,
and the modifiers of the class if there is one. -/
theorem scopes_eq_iff {β : Type} {d : Declaration α} {e : Declaration β} :
    d.scopes = e.scopes ↔ d.namespaceName = e.namespaceName ∧ d.className = e.className ∧
      d.enumName = e.enumName ∧ d.enumAccess = e.enumAccess ∧
      (d.className ≠ "" → d.classAccess = e.classAccess ∧ d.isPartial = e.isPartial) := by
  simp only [scopes, hasNamespace, hasClass, bne_iff_ne]
  by_cases hn : d.namespaceName = "" <;> by_cases hn' : e.namespaceName = "" <;>
    by_cases hc : d.className = "" <;> by_cases hc' : e.className = "" <;>
    simp [hn, hn', hc, hc']
  all_goals grind

theorem proper_of_mem_scopes [Named α] (c : Checked α) {s : Scope}
    (h : s ∈ c.declaration.scopes) : s.Proper := by
  simp only [scopes, List.mem_append, List.mem_ite_nil_right, List.mem_singleton, hasNamespace_iff,
    hasClass_iff] at h
  rcases h with (⟨hn, rfl⟩ | ⟨hc, rfl⟩) | rfl
  · exact c.isNamespace_namespaceName hn
  · exact c.isIdentifier_className hc
  · exact c.isIdentifier_enumName

end Declaration

/-! ## 2. The characters of an opening -/

/-- A text without barred characters, dots and spaces apart.  Line ends, tabs, commas and braces
are all barred, so what is plain never meets the layout. -/
def Plain (cs : List Char) : Prop :=
  ∀ ch ∈ cs, ch = '.' ∨ ch = ' ' ∨ Identifier.barred.has ch = false

theorem Plain.not_mem {cs : List Char} (h : Plain cs) {ch : Char}
    (hbarred : Identifier.barred.has ch = true) (hdot : ch ≠ '.') (hspace : ch ≠ ' ') :
    ch ∉ cs := by
  intro hmem
  rcases h ch hmem with rfl | rfl | hno
  · exact hdot rfl
  · exact hspace rfl
  · rw [hbarred] at hno
    cases hno

theorem plain_of_isIdentifier {n : String} (h : Identifier.isIdentifier n = true) :
    Plain n.toList :=
  fun _ hc => Or.inr (Or.inr (Identifier.barred_of_mem h hc))

namespace Scope

/-- Every keyword is made of characters of a word. -/
theorem isPart_of_mem_keywords (s : Scope) :
    ∀ w ∈ s.keywords, ∀ ch ∈ w.toList, Identifier.isPart ch = true := by
  have hall : (s.keywords.all fun w => w.toList.all Identifier.isPart) = true := by
    cases s with
    | namespaceOf n =>
      rw [keywords]
      decide
    | classOf a isPartial n =>
      rw [keywords]
      cases a <;> cases isPartial <;> decide
    | enumOf a n =>
      rw [keywords]
      cases a <;> decide
  intro w hw
  exact List.all_eq_true.mp (List.all_eq_true.mp hall w hw)

/-- No space stands in a name. -/
theorem Proper.space_not_mem_name {s : Scope} (h : s.Proper) : ' ' ∉ s.name.toList := by
  intro hmem
  cases s with
  | namespaceOf n =>
    rcases Identifier.barred_of_mem_namespace h hmem with hdot | hno
    · exact absurd hdot (by decide)
    · exact absurd hno (by decide)
  | classOf a isPartial n => exact Identifier.not_mem_of_barred h (by decide) hmem
  | enumOf a n => exact Identifier.not_mem_of_barred h (by decide) hmem

theorem Proper.plain_name {s : Scope} (h : s.Proper) : Plain s.name.toList := by
  cases s with
  | namespaceOf n =>
    intro ch hch
    rcases Identifier.barred_of_mem_namespace h hch with hdot | hno
    · exact Or.inl hdot
    · exact Or.inr (Or.inr hno)
  | classOf a isPartial n => exact plain_of_isIdentifier h
  | enumOf a n => exact plain_of_isIdentifier h

/-- A character of an opening is one of a keyword, a space, or one of the name. -/
theorem mem_opening {s : Scope} {ch : Char} (h : ch ∈ s.opening) :
    Identifier.isPart ch = true ∨ ch = ' ' ∨ ch ∈ s.name.toList := by
  rcases List.mem_append.mp h with hword | hname
  · obtain ⟨word, hword, hch⟩ := List.mem_flatMap.mp hword
    obtain ⟨w, hw, rfl⟩ := List.mem_map.mp hword
    rcases List.mem_append.mp hch with hch | hch
    · exact Or.inl (s.isPart_of_mem_keywords w hw ch hch)
    · exact Or.inr (Or.inl (List.mem_singleton.mp hch))
  · exact Or.inr (Or.inr hname)

/-- **An opening is plain**: its keywords are letters, and its name holds nothing barred. -/
theorem Proper.plain_opening {s : Scope} (h : s.Proper) : Plain s.opening := by
  intro ch hch
  rcases mem_opening hch with hpart | hspace | hname
  · exact Or.inr (Or.inr (Identifier.barred_of_isPart hpart))
  · exact Or.inr (Or.inl hspace)
  · exact h.plain_name ch hname

end Scope

/-! ## 3. The lines of the values -/

namespace Declaration

/-- A line of a value is a name, or a name with a comma behind it. -/
theorem mem_valueLines {l : List Char} : ∀ {ns : List String}, l ∈ valueLines ns →
    ∃ n ∈ ns, l = n.toList ∨ l = n.toList ++ [',']
  | [], h => by simp [valueLines] at h
  | [n], h => ⟨n, by simp, Or.inl (by simpa [valueLines] using h)⟩
  | n :: m :: rest, h => by
    rw [valueLines, List.mem_cons] at h
    · rcases h with rfl | h
      · exact ⟨n, by simp, Or.inr rfl⟩
      · obtain ⟨k, hk, hl⟩ := mem_valueLines h
        exact ⟨k, List.mem_cons_of_mem _ hk, hl⟩
    · simp

/-- So a character of such a line is one of a name, or the comma. -/
theorem mem_of_mem_valueLines {ns : List String} {l : List Char} (hl : l ∈ valueLines ns)
    {ch : Char} (hch : ch ∈ l) : (∃ n ∈ ns, ch ∈ n.toList) ∨ ch = ',' := by
  obtain ⟨n, hn, rfl | rfl⟩ := mem_valueLines hl
  · exact Or.inl ⟨n, hn, hch⟩
  · rcases List.mem_append.mp hch with hname | hcomma
    · exact Or.inl ⟨n, hn, hname⟩
    · exact Or.inr (List.mem_singleton.mp hcomma)

theorem length_valueLines : ∀ ns : List String, (valueLines ns).length = ns.length
  | [] => rfl
  | [_] => rfl
  | n :: m :: rest => by simp [valueLines, length_valueLines (m :: rest)]

/-- Without their commas the lines of the values are the names. -/
theorem map_filter_valueLines : ∀ ns : List String, (∀ n ∈ ns, ',' ∉ n.toList) →
    (valueLines ns).map (fun l => String.ofList (l.filter (· != ','))) = ns
  | [], _ => rfl
  | [n], h => by
    have hn : n.toList.filter (· != ',') = n.toList :=
      List.filter_eq_self.mpr fun ch hch => by
        simpa using fun e : ch = ',' => h n (by simp) (e ▸ hch)
    simp [valueLines, hn]
  | n :: m :: rest, h => by
    have hn : n.toList.filter (· != ',') = n.toList :=
      List.filter_eq_self.mpr fun ch hch => by
        simpa using fun e : ch = ',' => h n (by simp) (e ▸ hch)
    have ih := map_filter_valueLines (m :: rest) fun k hk =>
      h k (List.mem_cons_of_mem _ hk)
    rw [valueLines, List.map_cons, ih]
    · simp [List.filter_append, hn]
    · simp

end Declaration
end EnumAssets

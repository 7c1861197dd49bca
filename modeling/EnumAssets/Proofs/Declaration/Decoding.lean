/-
# The text of a declaration can be read back

Two checked declarations have the same text exactly if they say the same: the same namespace, class
and enum, the same accesses as far as they apply, and the same names in the same order
(`code_eq_code_iff`).  The text is taken apart from the outside to the inside.

* **Into lines.**  No line holds a line end, so splitting at the line ends gives the lines back.
* **Into scopes and values.**  Both blocks begin at the left margin, so the first lines of two
  equal blocks stand at the same depth.  A line that ends in an opening brace opens a scope, and no
  line of a value holds a brace, so the two blocks open the same scopes (`block_injective`).
* **Into words.**  No keyword and no name holds a space, so splitting an opening at the spaces
  gives its words back.  The last word is the name, the one before says what the scope is, and the
  others are the access and `partial` (`Scope.eq_of_keywords_eq`); `protected` and
  `protected internal` differ because the word behind them is no access.

None of this holds of declarations that were not checked: a name with a line end in it can imitate
any text.
-/
import EnumAssets.Proofs.Declaration.Block
import EnumAssets.Proofs.Declaration.Scope
import EnumAssets.Proofs.Text.Lines

namespace EnumAssets

/-! ## 1. The lines of a block -/

namespace Declaration

/-- A line of a block is a line of the body, or opens or closes a scope, some tabs apart. -/
theorem mem_block {l : List Char} {body : List (List Char)} : ∀ {os : List Opening} {depth : Nat},
    l ∈ block depth body os → ∃ k, (∃ b ∈ body, l = indented k b) ∨
      (∃ o ∈ os, l = indented k (o ++ ['\x7b'])) ∨ l = indented k ['\x7d']
  | [], depth, h => by
    obtain ⟨b, hb, rfl⟩ := List.mem_map.mp h
    exact ⟨depth, Or.inl ⟨b, hb, rfl⟩⟩
  | o :: os, depth, h => by
    rw [block, List.cons_append, List.mem_cons, List.mem_append, List.mem_singleton] at h
    rcases h with rfl | h | rfl
    · exact ⟨depth, Or.inr (Or.inl ⟨o, by simp, rfl⟩)⟩
    · obtain ⟨k, hk | ⟨o', ho', hl⟩ | hk⟩ := mem_block h
      · exact ⟨k, Or.inl hk⟩
      · exact ⟨k, Or.inr (Or.inl ⟨o', List.mem_cons_of_mem _ ho', hl⟩)⟩
      · exact ⟨k, Or.inr (Or.inr hk)⟩
    · exact ⟨depth, Or.inr (Or.inr rfl)⟩

/-- Tabs apart, nothing is in a line that is not in front of its tabs too. -/
theorem not_mem_indented {ch : Char} (htab : ch ≠ '\t') {l : List Char} (h : ch ∉ l) (k : Nat) :
    ch ∉ indented k l := by
  intro hmem
  rcases List.mem_append.mp hmem with hmem | hmem
  · exact htab (List.eq_of_mem_replicate hmem)
  · exact h hmem

/-- Tabs and braces apart, nothing is in a line of a block that is in no line of the body and in no
opening. -/
theorem not_mem_block {ch : Char} (htab : ch ≠ '\t') (hopen : ch ≠ '\x7b') (hclose : ch ≠ '\x7d')
    {body : List (List Char)} {os : List Opening} (hbody : ∀ l ∈ body, ch ∉ l)
    (hopenings : ∀ o ∈ os, ch ∉ o) (depth : Nat) : ∀ l ∈ block depth body os, ch ∉ l := by
  intro l hl
  obtain ⟨k, ⟨b, hb, rfl⟩ | ⟨o, ho, rfl⟩ | rfl⟩ := mem_block hl
  · exact not_mem_indented htab (hbody b hb) k
  · exact not_mem_indented htab (by simp [hopenings o ho, hopen]) k
  · exact not_mem_indented htab (by simp [hclose]) k

theorem indented_injective (depth : Nat) : Function.Injective (indented depth) :=
  fun _ _ h => List.append_cancel_left h

/-- A body whose lines hold no brace does not begin like a block with a scope. -/
theorem block_nil_ne_block_cons {depth : Nat} {body body' : List (List Char)} {o : Opening}
    {os : List Opening} (hne : body ≠ []) (h : ∀ l ∈ body, '\x7b' ∉ l) :
    block depth body [] ≠ block depth body' (o :: os) := by
  intro heq
  cases body with
  | nil => exact hne rfl
  | cons b rest =>
    rw [block, block, List.map_cons, List.cons_append, List.cons.injEq] at heq
    have hb : b = o ++ ['\x7b'] := indented_injective depth heq.1
    exact h b List.mem_cons_self (by simp [hb])

/-- **A block determines its openings and its body.**  The induction is on both lists of openings
at once; it is carried by the depth, which is the same on both sides. -/
theorem block_injective {body body' : List (List Char)} (hne : body ≠ []) (hne' : body' ≠ [])
    (h : ∀ l ∈ body, '\x7b' ∉ l) (h' : ∀ l ∈ body', '\x7b' ∉ l) :
    ∀ {os os' : List Opening} {depth : Nat},
      block depth body os = block depth body' os' → os = os' ∧ body = body'
  | [], [], depth, heq => ⟨rfl, List.map_injective_iff.mpr (indented_injective depth) heq⟩
  | [], o :: os, depth, heq => absurd heq (block_nil_ne_block_cons hne h)
  | o :: os, [], depth, heq => absurd heq.symm (block_nil_ne_block_cons hne' h')
  | o :: os, o' :: os', depth, heq => by
    rw [block, block, List.cons_append, List.cons_append, List.cons.injEq] at heq
    have ho : o = o' := List.append_cancel_right (indented_injective depth heq.1)
    obtain ⟨rfl, rfl⟩ := block_injective hne hne' h h' (List.append_cancel_right heq.2)
    exact ⟨by rw [ho], rfl⟩

end Declaration

/-! ## 2. The words of an opening -/

namespace Scope

/-- The access of a class and whether it is partial can be told from their words. -/
theorem access_partial_injective : ∀ a ∈ Access.all, ∀ b ∈ Access.all, ∀ p q : Bool,
    a.words ++ (if p then ["partial"] else []) = b.words ++ (if q then ["partial"] else []) →
      a = b ∧ p = q := by
  decide

theorem access_injective : ∀ a ∈ Access.all, ∀ b ∈ Access.all, a.words = b.words → a = b := by
  decide

/-- **The keywords say what the scope is**, but for its name. -/
theorem eq_of_keywords_eq {s t : Scope} (hk : s.keywords = t.keywords) (hn : s.name = t.name) :
    s = t := by
  -- the last keyword tells the three sorts of scopes apart
  have hlast : s.keywords.getLast? = t.keywords.getLast? := by rw [hk]
  cases s <;> cases t <;> simp [keywords] at hlast
  case namespaceOf.namespaceOf n m => exact congrArg _ hn
  case classOf.classOf a p n b q m =>
    obtain ⟨rfl, rfl⟩ := access_partial_injective a (Access.mem_all a) b (Access.mem_all b) p q
      (List.append_cancel_right hk)
    exact congrArg _ hn
  case enumOf.enumOf a n b m =>
    obtain rfl := access_injective a (Access.mem_all a) b (Access.mem_all b)
      (List.append_cancel_right hk)
    exact congrArg _ hn

theorem space_not_mem_keyword (s : Scope) : ∀ w ∈ s.keywords.map String.toList, ' ' ∉ w := by
  intro w hw hmem
  obtain ⟨v, hv, rfl⟩ := List.mem_map.mp hw
  exact absurd (Identifier.barred_of_isPart (s.isPart_of_mem_keywords v hv ' ' hmem)) (by decide)

/-- The words of an opening are got back by splitting it at the spaces. -/
theorem Proper.splitOn_opening {s : Scope} (h : s.Proper) :
    s.opening.splitOn ' ' = s.keywords.map String.toList ++ [s.name.toList] :=
  splitOn_flatMap h.space_not_mem_name s.space_not_mem_keyword

/-- **An opening determines its scope.** -/
theorem eq_of_opening_eq {s t : Scope} (hs : s.Proper) (ht : t.Proper)
    (h : s.opening = t.opening) : s = t := by
  have hwords := congrArg (List.splitOn ' ') h
  rw [hs.splitOn_opening, ht.splitOn_opening, List.append_singleton_inj] at hwords
  refine eq_of_keywords_eq ?_ (String.toList_inj.mp hwords.2)
  exact List.map_injective_iff.mpr (fun _ _ => String.toList_inj.mp) hwords.1

/-- Openings determine their scopes, taken in order. -/
theorem eq_of_map_opening_eq : ∀ {ss ts : List Scope}, (∀ s ∈ ss, s.Proper) →
    (∀ t ∈ ts, t.Proper) → ss.map opening = ts.map opening → ss = ts
  | [], [], _, _, _ => rfl
  | [], t :: ts, _, _, h => by simp at h
  | s :: ss, [], _, _, h => by simp at h
  | s :: ss, t :: ts, hs, ht, h => by
    rw [List.map_cons, List.map_cons, List.cons.injEq] at h
    obtain rfl := eq_of_opening_eq (hs s List.mem_cons_self) (ht t List.mem_cons_self) h.1
    rw [eq_of_map_opening_eq (fun u hu => hs u (List.mem_cons_of_mem _ hu))
      (fun u hu => ht u (List.mem_cons_of_mem _ hu)) h.2]

end Scope

/-! ## 3. The text of a checked declaration -/

namespace Checked

variable {α β : Type} [Named α] [Named β]

theorem plain_of_mem_openings (c : Checked α) :
    ∀ o ∈ c.declaration.openings, Plain o := by
  intro o ho
  rw [Declaration.openings_eq_map] at ho
  obtain ⟨s, hs, rfl⟩ := List.mem_map.mp ho
  exact (Declaration.proper_of_mem_scopes c hs).plain_opening

/-- A character of the line of a value is one of a name, or the comma behind it. -/
theorem mem_valueLines_cases (c : Checked α) {l : List Char}
    (hl : l ∈ Declaration.valueLines c.declaration.names) {ch : Char} (hch : ch ∈ l) :
    Identifier.barred.has ch = false ∨ ch = ',' := by
  rcases Declaration.mem_of_mem_valueLines hl hch with ⟨n, hn, hname⟩ | hcomma
  · exact Or.inl (Identifier.barred_of_mem (c.isIdentifier_of_mem_names hn) hname)
  · exact Or.inr hcomma

/-- The comma apart, no barred character stands in the line of a value. -/
theorem not_mem_valueLines (c : Checked α) {ch : Char} (hbarred : Identifier.barred.has ch = true)
    (hcomma : ch ≠ ',') : ∀ l ∈ Declaration.valueLines c.declaration.names, ch ∉ l := by
  intro l hl hmem
  rcases c.mem_valueLines_cases hl hmem with hno | hno
  · rw [hbarred] at hno
    cases hno
  · exact hcomma hno

theorem valueLines_ne_nil (c : Checked α) : Declaration.valueLines c.declaration.names ≠ [] := by
  intro h
  have hlen := Declaration.length_valueLines c.declaration.names
  rw [h, List.length_nil] at hlen
  exact c.names_ne_nil (List.length_eq_zero_iff.mp hlen.symm)

theorem comma_not_mem_name (c : Checked α) : ∀ n ∈ c.declaration.names, ',' ∉ n.toList :=
  fun _ hn => (plain_of_isIdentifier (c.isIdentifier_of_mem_names hn)).not_mem
    (by decide) (by decide) (by decide)

/-- No line holds a line end. -/
theorem newline_not_mem_lines (c : Checked α) : ∀ l ∈ c.declaration.lines, '\n' ∉ l := by
  have hopenings : ∀ o ∈ c.declaration.openings, '\n' ∉ o := fun o ho =>
    (c.plain_of_mem_openings o ho).not_mem (by decide) (by decide) (by decide)
  rw [Declaration.lines_eq_block]
  exact Declaration.not_mem_block (by decide) (by decide) (by decide)
    (c.not_mem_valueLines (by decide) (by decide)) hopenings 0

/-- **Splitting the text at its line ends gives the lines back.** -/
theorem linesOf_code (c : Checked α) : linesOf c.code = c.declaration.lines :=
  linesOf_ofList c.newline_not_mem_lines

/-- **The text is an unambiguous encoding.**  Two checked declarations, with values of any two
sorts, have the same text exactly if they agree in all that can show: the file name, the payloads
and objects behind the names, and the modifiers of a class that is not there never do, and
everything else always does. -/
theorem code_eq_code_iff {α β : Type} [Named α] [Named β] (s : Checked α) (t : Checked β) :
    s.code = t.code ↔
      s.declaration.namespaceName = t.declaration.namespaceName ∧
      s.declaration.className = t.declaration.className ∧
      s.declaration.enumName = t.declaration.enumName ∧
      s.declaration.enumAccess = t.declaration.enumAccess ∧
      s.declaration.names = t.declaration.names ∧
      (s.declaration.className ≠ "" →
        s.declaration.classAccess = t.declaration.classAccess ∧
        s.declaration.isPartial = t.declaration.isPartial) := by
  have hscopes := @Declaration.scopes_eq_iff α β s.declaration t.declaration
  constructor
  · intro h
    have hlines : s.declaration.lines = t.declaration.lines := by
      rw [← s.linesOf_code, ← t.linesOf_code, h]
    rw [Declaration.lines_eq_block, Declaration.lines_eq_block] at hlines
    obtain ⟨hopenings, hvalues⟩ := Declaration.block_injective s.valueLines_ne_nil
      t.valueLines_ne_nil (s.not_mem_valueLines (by decide) (by decide))
      (t.not_mem_valueLines (by decide) (by decide)) hlines
    have hnames : s.declaration.names = t.declaration.names := by
      rw [← Declaration.map_filter_valueLines _ s.comma_not_mem_name, hvalues,
        Declaration.map_filter_valueLines _ t.comma_not_mem_name]
    rw [Declaration.openings_eq_map, Declaration.openings_eq_map] at hopenings
    obtain ⟨hns, hcls, henum, hacc, hmod⟩ := hscopes.mp (Scope.eq_of_map_opening_eq
      (fun _ => Declaration.proper_of_mem_scopes s) (fun _ => Declaration.proper_of_mem_scopes t)
      hopenings)
    exact ⟨hns, hcls, henum, hacc, hnames, hmod⟩
  · rintro ⟨hns, hcls, henum, hacc, hnames, hmod⟩
    have hsame := hscopes.mpr ⟨hns, hcls, henum, hacc, hmod⟩
    rw [code, code, Declaration.code, Declaration.code, Declaration.lines, Declaration.lines,
      Declaration.openings_eq_map, Declaration.openings_eq_map, hsame, hnames]

end Checked
end EnumAssets

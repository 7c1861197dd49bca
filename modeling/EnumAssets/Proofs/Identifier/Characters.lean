/-
# The characters of names

A name never holds a character that the generated text, a path or the file system gives a meaning
to.  The text is laid out with spaces, tabs, line ends, commas and braces, and none of them can
come out of a name, whatever its script.

The argument has two halves.

* **The tables.**  Each of the six categories that a name is made of is a table of ranges, and so
  is the set of `barred` characters; two tables whose ranges never meet have no character in common
  (`has_eq_false_of_disjoint`).  Comparing the tables is the one computation here.
* **The shape.**  A name is a word of such characters, or an at sign in front of a reserved word,
  and a reserved word is made of letters (`isPart_of_mem_reserved`).

Hence `barred_of_mem`, the fact that later modules use.
-/
import EnumAssets.Identifier
import EnumAssets.Unicode.Blank

namespace EnumAssets

/-! ## 1. Tables without a common character -/

namespace CharSet

/-- Whether no range of one set meets a range of the other. -/
def disjoint (s t : CharSet) : Bool :=
  s.ranges.all fun r => t.ranges.all fun q => r.2.blt q.1 || q.2.blt r.1

/-- A character of one set is not in a disjoint one. -/
theorem has_eq_false_of_disjoint {s t : CharSet} (h : s.disjoint t = true) {c : Char}
    (hc : s.has c = true) : t.has c = false := by
  obtain ⟨r, hr, hlow, hhigh⟩ := has_iff.mp hc
  rw [Bool.eq_false_iff]
  intro ht
  obtain ⟨q, hq, hlow', hhigh'⟩ := has_iff.mp ht
  have hrq := List.all_eq_true.mp (List.all_eq_true.mp h r hr) q hq
  simp only [Bool.or_eq_true, Nat.blt_eq] at hrq
  omega

end CharSet

namespace Identifier

/-! ## 2. The characters that no name holds -/

/-- The characters with a meaning of their own: control characters, white space, those that are
forbidden in file names, and the punctuation of the generated language. -/
def barred : CharSet :=
  ⟨Unicode.control.ranges ++ Unicode.whiteSpace.ranges ++
    [(0x22, 0x22), (0x27, 0x2A), (0x2C, 0x2F), (0x3A, 0x3C), (0x3E, 0x3F), (0x5C, 0x5C),
      (0x7B, 0x7D)]⟩

theorem barred_of_control {c : Char} (h : Unicode.control.has c = true) : barred.has c = true := by
  obtain ⟨r, hr, hrange⟩ := CharSet.has_iff.mp h
  exact CharSet.has_iff.mpr ⟨r, List.mem_append_left _ (List.mem_append_left _ hr), hrange⟩

theorem barred_of_whiteSpace {c : Char} (h : Unicode.whiteSpace.has c = true) :
    barred.has c = true := by
  obtain ⟨r, hr, hrange⟩ := CharSet.has_iff.mp h
  exact CharSet.has_iff.mpr ⟨r, List.mem_append_left _ (List.mem_append_right _ hr), hrange⟩

/-- No letter is barred. -/
theorem barred_of_letter {c : Char} (h : Unicode.letter.has c = true) : barred.has c = false :=
  CharSet.has_eq_false_of_disjoint (by decide +kernel) h

/-- **No character of a word is barred**, in any script. -/
theorem barred_of_isPart {c : Char} (h : isPart c = true) : barred.has c = false := by
  simp only [isPart, Bool.or_eq_true] at h
  rcases h with ((((h | h) | h) | h) | h) | h
  · exact barred_of_letter h
  · exact CharSet.has_eq_false_of_disjoint (t := barred) (by decide +kernel) h
  · exact CharSet.has_eq_false_of_disjoint (t := barred) (by decide +kernel) h
  · exact CharSet.has_eq_false_of_disjoint (t := barred) (by decide +kernel) h
  · exact CharSet.has_eq_false_of_disjoint (t := barred) (by decide +kernel) h
  · exact CharSet.has_eq_false_of_disjoint (t := barred) (by decide +kernel) h

/-- What may begin a name may also stand behind its first character. -/
theorem isPart_of_isStart {c : Char} (h : isStart c = true) : isPart c = true := by
  simp only [isStart, Bool.or_eq_true, beq_iff_eq] at h
  rcases h with rfl | h
  · have : Unicode.connector.has '_' = true := by decide
    simp [isPart, this]
  · simp [isPart, h]

/-! ## 3. Words and reserved words -/

theorem isPart_of_isWord {cs : List Char} (h : isWord cs = true) : ∀ c ∈ cs, isPart c = true := by
  cases cs with
  | nil => simp
  | cons c rest =>
    simp only [isWord, Bool.and_eq_true, List.all_eq_true] at h
    intro d hd
    rcases List.mem_cons.mp hd with rfl | hd
    · exact isPart_of_isStart h.1
    · exact h.2 d hd

theorem isPart_of_mem_reserved : ∀ w ∈ reserved, ∀ c ∈ w.toList, isPart c = true := by
  have hall : (reserved.all fun w => w.toList.all isPart) = true := by decide
  intro w hw
  exact List.all_eq_true.mp (List.all_eq_true.mp hall w hw)

/-- An at sign is no part of a word. -/
theorem at_not_mem {cs : List Char} (h : ∀ c ∈ cs, isPart c = true) : '@' ∉ cs := by
  have hat : isPart '@' = false := by decide +kernel
  intro hmem
  rw [h '@' hmem] at hat
  cases hat

/-- A name is a word, or an at sign in front of a reserved word. -/
theorem isIdentifier_cases {s : String} (h : isIdentifier s = true) :
    (isWord s.toList = true ∧ isReserved s = false) ∨
      ∃ w, s.toList = '@' :: w.toList ∧ isReserved w = true := by
  unfold isIdentifier at h
  split at h
  · next word hs => exact Or.inr ⟨String.ofList word, by rw [hs, String.toList_ofList], h⟩
  · simp only [Bool.and_eq_true, Bool.not_eq_true'] at h
    exact Or.inl h

/-- A character of a name is one of a word, or the at sign in front of a reserved word. -/
theorem isPart_of_mem {s : String} (h : isIdentifier s = true) {c : Char} (hc : c ∈ s.toList) :
    c = '@' ∨ isPart c = true := by
  rcases isIdentifier_cases h with ⟨hword, -⟩ | ⟨w, hs, hw⟩
  · exact Or.inr (isPart_of_isWord hword c hc)
  · rw [hs] at hc
    rcases List.mem_cons.mp hc with rfl | hc
    · exact Or.inl rfl
    · exact Or.inr (isPart_of_mem_reserved w (List.contains_iff_mem.mp hw) c hc)

/-- **No barred character stands in a name.** -/
theorem barred_of_mem {s : String} (h : isIdentifier s = true) {c : Char} (hc : c ∈ s.toList) :
    barred.has c = false := by
  rcases isPart_of_mem h hc with rfl | hpart
  · decide
  · exact barred_of_isPart hpart

/-- A barred character is not in a name. -/
theorem not_mem_of_barred {s : String} (h : isIdentifier s = true) {c : Char}
    (hbarred : barred.has c = true) : c ∉ s.toList := by
  intro hmem
  rw [barred_of_mem h hmem] at hbarred
  cases hbarred

/-! ## 4. Namespaces -/

theorem mem_intercalate {α : Type} {x c : α} : ∀ {ls : List (List α)},
    c ∈ [x].intercalate ls → c = x ∨ ∃ l ∈ ls, c ∈ l
  | [], h => by simp at h
  | [l], h => Or.inr ⟨l, by simp, by simpa using h⟩
  | l :: m :: rest, h => by
    rw [List.intercalate_cons_cons, List.mem_append, List.mem_append, List.mem_singleton] at h
    rcases h with (h | h) | h
    · exact Or.inr ⟨l, by simp, h⟩
    · exact Or.inl h
    · rcases mem_intercalate h with h | ⟨k, hk, hc⟩
      · exact Or.inl h
      · exact Or.inr ⟨k, List.mem_cons_of_mem _ hk, hc⟩

/-- The dots apart, no barred character stands in a namespace. -/
theorem barred_of_mem_namespace {s : String} (h : isNamespace s = true) {c : Char}
    (hc : c ∈ s.toList) : c = '.' ∨ barred.has c = false := by
  have hsplit : ['.'].intercalate (s.toList.splitOn '.') = s.toList := List.intercalate_splitOn '.'
  rw [← hsplit] at hc
  rcases mem_intercalate hc with hdot | ⟨part, hpart, hc⟩
  · exact Or.inl hdot
  · have hname := List.all_eq_true.mp h part hpart
    exact Or.inr (barred_of_mem hname (by rwa [String.toList_ofList]))

end Identifier
end EnumAssets

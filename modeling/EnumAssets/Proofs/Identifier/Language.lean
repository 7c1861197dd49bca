/-
# The language of names

Words are closed under leaving out characters at the end, and names are the words that are not
reserved, next to the reserved words with an at sign in front.  Every reserved word is a word
(`isWord_of_isReserved`), so without an at sign a text is a word exactly if it is a name or reserved
(`isWord_iff`).  That is why the beginning of a name is a name or reserved, and why parts behind a
name make a name again unless the whole is reserved: `i` is a name, `in` and `int` are not, and
`into` is one.

Which characters may begin a name, and which may follow, is a matter of tables.  Below U+0080 they
come to letters, digits and the underscore (`isStart_of_ascii`, `isPart_of_ascii`).
-/
import EnumAssets.Proofs.Identifier.Characters

namespace EnumAssets

namespace Identifier

variable {s u v w : String}

/-! ## 1. Words -/

theorem isWord_append {cs : List Char} (hne : cs ≠ []) (ds : List Char) :
    isWord (cs ++ ds) = (isWord cs && ds.all isPart) := by
  cases cs with
  | nil => exact absurd rfl hne
  | cons c rest => simp [isWord, Bool.and_assoc]

/-- What is reserved is a word. -/
theorem isWord_of_isReserved (h : isReserved w = true) : isWord w.toList = true := by
  have hall : ∀ w ∈ reserved, isWord w.toList = true := by decide +kernel
  exact hall w (List.contains_iff_mem.mp h)

/-- No word begins with an at sign. -/
theorem head?_of_isWord {cs : List Char} (h : isWord cs = true) : cs.head? ≠ some '@' :=
  fun hhead => at_not_mem (isPart_of_isWord h) (List.mem_of_mem_head? hhead)

/-- Nor is anything reserved with an underscore in front. -/
theorem isReserved_underscore (c : Char) : isReserved ("_" ++ String.singleton c) = false := by
  have hall : ∀ w ∈ reserved, w.toList.head? ≠ some '_' := by decide
  rw [Bool.eq_false_iff]
  intro h
  rw [isReserved, List.contains_iff_mem] at h
  exact hall _ h (by simp)

/-! ## 2. Names -/

/-- **With an at sign in front**, a text is a name exactly if it is reserved. -/
theorem isIdentifier_at (w : String) : isIdentifier ("@" ++ w) = isReserved w := by
  have hchars : ("@" ++ w).toList = '@' :: w.toList := by simp
  simp [isIdentifier, hchars]

/-- Without one, a text is a name if it is a word that is not reserved. -/
theorem isIdentifier_of_head? (h : s.toList.head? ≠ some '@') :
    isIdentifier s = (isWord s.toList && !isReserved s) := by
  unfold isIdentifier
  split
  · next word hs =>
    rw [hs] at h
    exact absurd rfl h
  · rfl

/-- **A word** is a name or reserved. -/
theorem isWord_iff (h : s.toList.head? ≠ some '@') :
    isWord s.toList = true ↔ isIdentifier s = true ∨ isReserved s = true := by
  rw [isIdentifier_of_head? h, Bool.and_eq_true, Bool.not_eq_true']
  constructor
  · intro hword
    cases hreserved : isReserved s with
    | false => exact Or.inl ⟨hword, rfl⟩
    | true => exact Or.inr rfl
  · rintro (⟨hword, -⟩ | hreserved)
    · exact hword
    · exact isWord_of_isReserved hreserved

/-- **A character may follow** in a name if it makes one behind an underscore. -/
theorem isIdentifier_underscore (c : Char) :
    isIdentifier ("_" ++ String.singleton c) = isPart c := by
  have hchars : ("_" ++ String.singleton c).toList = ['_', c] := by simp
  have hstart : isStart '_' = true := by decide
  rw [isIdentifier_of_head? (by simp), isReserved_underscore, hchars]
  simp [isWord, hstart]

/-- A text that is not empty begins what is put together of it and another one. -/
theorem head?_append (hne : u ≠ "") (v : String) : (u ++ v).toList.head? = u.toList.head? := by
  obtain ⟨c, rest, hc⟩ := List.exists_cons_of_ne_nil (l := u.toList) (by simpa using hne)
  rw [String.toList_append, hc, List.cons_append, List.head?_cons, List.head?_cons]

/-- **Words and what follows them.** -/
theorem isWord_append_iff (hne : u ≠ "") (hat : u.toList.head? ≠ some '@') :
    isWord (u ++ v).toList = true ↔ (isIdentifier u = true ∨ isReserved u = true) ∧
      ∀ c ∈ v.toList, isIdentifier ("_" ++ String.singleton c) = true := by
  have hchars : u.toList ≠ [] := by simpa using hne
  rw [String.toList_append, isWord_append hchars, Bool.and_eq_true, isWord_iff hat,
    List.all_eq_true]
  simp only [isIdentifier_underscore]

/-- The beginning of a name is a name or reserved. -/
theorem isIdentifier_or_isReserved_of_append (hne : u ≠ "") (hat : u.toList.head? ≠ some '@')
    (h : isIdentifier (u ++ v) = true) : isIdentifier u = true ∨ isReserved u = true := by
  rw [isIdentifier_of_head? (by rwa [head?_append hne]), Bool.and_eq_true] at h
  exact ((isWord_append_iff hne hat).mp h.1).1

/-- What makes a word is a name unless it is reserved. -/
theorem isIdentifier_append_iff (hne : u ≠ "") (hat : u.toList.head? ≠ some '@')
    (hu : isIdentifier u = true ∨ isReserved u = true)
    (hv : ∀ c ∈ v.toList, isIdentifier ("_" ++ String.singleton c) = true) :
    isIdentifier (u ++ v) = true ↔ isReserved (u ++ v) = false := by
  rw [isIdentifier_of_head? (by rwa [head?_append hne]), (isWord_append_iff hne hat).mpr ⟨hu, hv⟩,
    Bool.true_and, Bool.not_eq_true']

/-! ## 3. Names below U+0080 -/

/-- Of a table, only the ranges that begin below U+0080 matter there, and with these the characters
can be gone through one by one. -/
theorem has_of_ascii (low : List (Nat × Nat)) {s : CharSet} {f : Char → Bool}
    (hlow : (s.ranges.filter fun r => decide (r.1 < 128)) = low)
    (hall : ∀ n < 128, CharSet.has ⟨low⟩ (Char.ofNat n) = f (Char.ofNat n)) {c : Char}
    (hc : c.toNat < 128) : s.has c = f c := by
  have hsame : s.has c = CharSet.has ⟨low⟩ c := by
    rw [Bool.eq_iff_iff, CharSet.has_iff, CharSet.has_iff, ← hlow]
    constructor
    · rintro ⟨r, hr, hfirst, hlast⟩
      have hbelow : r.1 < 128 := Nat.lt_of_le_of_lt hfirst hc
      exact ⟨r, List.mem_filter.mpr ⟨hr, decide_eq_true hbelow⟩, hfirst, hlast⟩
    · rintro ⟨r, hr, hrange⟩
      exact ⟨r, (List.mem_filter.mp hr).1, hrange⟩
  have hchar := hall c.toNat hc
  rwa [Char.ofNat_toNat, ← hsame] at hchar

theorem letter_of_ascii {c : Char} (hc : c.toNat < 128) : Unicode.letter.has c = c.isAlpha :=
  has_of_ascii [(0x41, 0x5A), (0x61, 0x7A)] (by decide +kernel) (by decide +kernel) hc

theorem isStart_of_ascii {c : Char} (hc : c.toNat < 128) : isStart c = (c.isAlpha || c == '_') := by
  rw [isStart, letter_of_ascii hc, Bool.or_comm]

theorem isPart_of_ascii {c : Char} (hc : c.toNat < 128) :
    isPart c = (c.isAlphanum || c == '_') := by
  have hdigit : Unicode.decimalDigit.has c = c.isDigit :=
    has_of_ascii [(0x30, 0x39)] (by decide +kernel) (by decide +kernel) hc
  have hconnector : Unicode.connector.has c = (c == '_') :=
    has_of_ascii [(0x5F, 0x5F)] (f := (· == '_')) (by decide +kernel) (by decide +kernel) hc
  have hnonspacing : Unicode.nonspacingMark.has c = false :=
    has_of_ascii [] (f := fun _ => false) (by decide +kernel) (by decide +kernel) hc
  have hspacing : Unicode.spacingMark.has c = false :=
    has_of_ascii [] (f := fun _ => false) (by decide +kernel) (by decide +kernel) hc
  have hformatting : Unicode.formatting.has c = false :=
    has_of_ascii [] (f := fun _ => false) (by decide +kernel) (by decide +kernel) hc
  rw [isPart, letter_of_ascii hc, hdigit, hconnector, hnonspacing, hspacing, hformatting,
    Char.isAlphanum]
  simp

/-- Whether a text is a letter or an underscore with letters, digits and underscores behind it. -/
def IsPlainWord (s : String) : Prop :=
  ∃ c rest, s.toList = c :: rest ∧ (c.isAlpha || c == '_') = true ∧
    ∀ d ∈ rest, (d.isAlphanum || d == '_') = true

theorem isWord_of_ascii (h : ∀ c ∈ s.toList, c.toNat < 128) :
    isWord s.toList = true ↔ IsPlainWord s := by
  rw [IsPlainWord]
  cases hs : s.toList with
  | nil => simp [isWord]
  | cons c rest =>
    rw [hs, List.forall_mem_cons] at h
    rw [isWord, Bool.and_eq_true, List.all_eq_true, isStart_of_ascii h.1]
    constructor
    · rintro ⟨hc, hrest⟩
      exact ⟨c, rest, rfl, hc, fun d hd => isPart_of_ascii (h.2 d hd) ▸ hrest d hd⟩
    · rintro ⟨c', rest', heq, hc, hrest⟩
      cases heq
      exact ⟨hc, fun d hd => (isPart_of_ascii (h.2 d hd)).trans (hrest d hd)⟩

/-- **Names below U+0080** are plain words that are not reserved, and reserved words with an at sign
in front. -/
theorem isIdentifier_of_ascii (h : ∀ c ∈ s.toList, c.toNat < 128) :
    isIdentifier s = true ↔ (IsPlainWord s ∧ isReserved s = false) ∨
      ∃ w, s = "@" ++ w ∧ isReserved w = true := by
  rw [← isWord_of_ascii h]
  constructor
  · intro hname
    rcases isIdentifier_cases hname with hword | ⟨w, hs, hreserved⟩
    · exact Or.inl hword
    · refine Or.inr ⟨w, ?_, hreserved⟩
      simp [← String.toList_inj, hs]
  · rintro (⟨hword, hfree⟩ | ⟨w, rfl, hreserved⟩)
    · rw [isIdentifier_of_head? (head?_of_isWord hword), hword, hfree]
      rfl
    · rwa [isIdentifier_at]

/-! ## 4. The language -/

/-- How names and reserved words lie among the beginnings of a text. -/
structure Continues (u v : String) : Prop where
  /-- The beginning of a name is a name or reserved. -/
  inherited : isIdentifier (u ++ v) = true → isIdentifier u = true ∨ isReserved u = true
  /-- Behind such a beginning, characters that may follow make a name unless the whole is reserved.
  -/
  extended : (isIdentifier u = true ∨ isReserved u = true) →
    (∀ c ∈ v.toList, isIdentifier ("_" ++ String.singleton c) = true) →
      (isIdentifier (u ++ v) = true ↔ isReserved (u ++ v) = false)

/-- **The structure of the language of names**: at signs, beginnings, and names below U+0080. -/
theorem language_of_names :
    (∀ w, (isIdentifier ("@" ++ w) = true ↔ isReserved w = true) ∧
        ¬ (isIdentifier w = true ∧ isIdentifier ("@" ++ w) = true)) ∧
      (∀ u v : String, u ≠ "" → u.toList.head? ≠ some '@' → Continues u v) ∧
      ∀ s : String, (∀ c ∈ s.toList, c.toNat < 128) →
        (isIdentifier s = true ↔ (IsPlainWord s ∧ isReserved s = false) ∨
          ∃ w, s = "@" ++ w ∧ isReserved w = true) := by
  refine ⟨fun w => ⟨by rw [isIdentifier_at], ?_⟩, fun u v hne hat => ?_, fun s h =>
    isIdentifier_of_ascii h⟩
  · rw [isIdentifier_at]
    rintro ⟨hname, hreserved⟩
    have hhead := head?_of_isWord (isWord_of_isReserved hreserved)
    rw [isIdentifier_of_head? hhead, hreserved, Bool.not_true, Bool.and_false] at hname
    cases hname
  · exact ⟨isIdentifier_or_isReserved_of_append hne hat, isIdentifier_append_iff hne hat⟩

example : (["i", "in", "int", "into"].map isIdentifier) = [true, false, false, true] := by
  decide +kernel

end Identifier
end EnumAssets

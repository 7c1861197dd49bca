/-
# How often a text occurs in another one

`occurrences part text` counts the places of a text at which a part begins.  Occurrences may
overlap, so the count of a text that is put together is not the sum of the counts in general.  It
is the sum where the pieces meet at a character that the part cannot run across:

* at a separator that the part does not hold, such as a line end or a tab
  (`occurrences_append_cons`);
* at a separator that the part ends with, such as the space behind a keyword: each piece in front
  of one counts if it ends with the rest of the part (`occurrences_flatMap_end`).
-/
import Mathlib.Algebra.GroupWithZero.Nat
import Mathlib.Data.List.Basic

namespace EnumAssets

/-- The number of places of a text at which a part begins; the part is not empty. -/
def occurrences (part : List Char) : List Char → Nat
  | [] => 0
  | ch :: rest => (if part <+: ch :: rest then 1 else 0) + occurrences part rest

theorem occurrences_nil (part : List Char) : occurrences part [] = 0 := rfl

theorem occurrences_cons (part : List Char) (ch : Char) (rest : List Char) :
    occurrences part (ch :: rest) =
      (if part <+: ch :: rest then 1 else 0) + occurrences part rest := rfl

/-! ## 1. Separators that the part does not hold -/

/-- What begins in front of a separator ends in front of it. -/
theorem prefix_append_cons_iff {part : List Char} {sep : Char} (h : sep ∉ part) :
    ∀ {a b : List Char}, part <+: a ++ sep :: b ↔ part <+: a := by
  induction part with
  | nil => simp
  | cons p rest ih =>
    rw [List.mem_cons, not_or] at h
    intro a b
    cases a with
    | nil =>
      rw [List.nil_append, List.cons_prefix_cons, List.prefix_nil]
      exact ⟨fun hp => absurd hp.1.symm h.1, fun hp => absurd hp (List.cons_ne_nil _ _)⟩
    | cons c a => rw [List.cons_append, List.cons_prefix_cons, List.cons_prefix_cons, ih h.2]

/-- **Across a separator that the part does not hold, occurrences add up.** -/
theorem occurrences_append_cons {part : List Char} {sep : Char} (hne : part ≠ [])
    (h : sep ∉ part) (b : List Char) : ∀ a : List Char,
      occurrences part (a ++ sep :: b) = occurrences part a + occurrences part b
  | [] => by
    have hno : ¬ part <+: sep :: b := fun hp =>
      hne (List.prefix_nil.mp ((prefix_append_cons_iff (a := []) h).mp hp))
    rw [List.nil_append, occurrences_cons, if_neg hno, occurrences_nil]
  | c :: a => by
    have hsame : part <+: c :: (a ++ sep :: b) ↔ part <+: c :: a :=
      prefix_append_cons_iff (a := c :: a) h
    rw [List.cons_append, occurrences_cons, occurrences_cons, occurrences_append_cons hne h b a]
    simp only [hsame, Nat.add_assoc]

/-- Pieces that each end with such a separator are counted one by one. -/
theorem occurrences_flatMap {part : List Char} {sep : Char} (hne : part ≠ []) (h : sep ∉ part) :
    ∀ ls : List (List Char),
      occurrences part (ls.flatMap (· ++ [sep])) = (ls.map (occurrences part)).sum
  | [] => rfl
  | l :: ls => by
    rw [List.flatMap_cons, List.append_assoc, List.singleton_append,
      occurrences_append_cons hne h, occurrences_flatMap hne h ls, List.map_cons, List.sum_cons]

/-- Separators in front change nothing. -/
theorem occurrences_replicate_append {part : List Char} {sep : Char} (hne : part ≠ [])
    (h : sep ∉ part) (l : List Char) : ∀ k : Nat,
      occurrences part (List.replicate k sep ++ l) = occurrences part l
  | 0 => by rw [List.replicate_zero, List.nil_append]
  | k + 1 => by
    rw [List.replicate_succ, List.cons_append, ← List.nil_append (sep :: _),
      occurrences_append_cons hne h, occurrences_replicate_append hne h l k,
      occurrences_nil, Nat.zero_add]

/-! ## 2. A separator at the end of the part -/

/-- Without the separator the part does not occur. -/
theorem occurrences_eq_zero {part : List Char} {sep : Char} (h : sep ∈ part) :
    ∀ {l : List Char}, sep ∉ l → occurrences part l = 0
  | [], _ => rfl
  | c :: l, hl => by
    have hno : ¬ part <+: c :: l := fun hp => hl (hp.subset h)
    rw [occurrences_cons, if_neg hno, Nat.zero_add,
      occurrences_eq_zero h fun hm => hl (List.mem_cons_of_mem _ hm)]

/-- In front of the first separator the part begins only where all that is left is the part. -/
theorem prefix_sep_iff {word : List Char} {sep : Char} (hword : sep ∉ word) :
    ∀ {v b : List Char}, sep ∉ v → (word ++ [sep] <+: v ++ sep :: b ↔ word = v) := by
  induction word with
  | nil =>
    intro v b hv
    cases v with
    | nil => simp
    | cons c v =>
      rw [List.mem_cons, not_or] at hv
      simp [hv.1]
  | cons p rest ih =>
    rw [List.mem_cons, not_or] at hword
    intro v b hv
    cases v with
    | nil => simpa using fun e : p = sep => absurd e.symm hword.1
    | cons c v =>
      rw [List.mem_cons, not_or] at hv
      rw [List.cons_append, List.cons_append, List.cons_prefix_cons, ih hword.2 hv.2,
        List.cons.injEq]

/-- A piece in front of the first separator counts if it ends with the rest of the part. -/
theorem occurrences_append_sep {word : List Char} {sep : Char} (hword : sep ∉ word)
    (b : List Char) : ∀ {v : List Char}, sep ∉ v →
      occurrences (word ++ [sep]) (v ++ sep :: b) =
        (if word <:+ v then 1 else 0) + occurrences (word ++ [sep]) b
  | [], _ => by
    have hstart : word ++ [sep] <+: sep :: b ↔ word = [] :=
      prefix_sep_iff hword (v := []) List.not_mem_nil
    simp only [List.nil_append, occurrences_cons, hstart, List.suffix_nil]
  | c :: v, hv => by
    have hstart : word ++ [sep] <+: c :: (v ++ sep :: b) ↔ word = c :: v :=
      prefix_sep_iff hword (v := c :: v) hv
    have ih := occurrences_append_sep hword b (v := v) fun hm => hv (List.mem_cons_of_mem _ hm)
    simp only [List.cons_append, occurrences_cons, ih, hstart, List.suffix_cons_iff]
    -- the word is the whole piece or stands further behind, never both
    by_cases heq : word = c :: v
    · have hlen : ¬ word <:+ v := fun hs => by
        have := hs.length_le
        rw [heq, List.length_cons] at this
        omega
      simp [heq, heq ▸ hlen]
    · simp [heq]

/-- **The part that ends with the separator** occurs once for each word in front of a separator
that ends like it. -/
theorem occurrences_flatMap_end {word last : List Char} {sep : Char} (hword : sep ∉ word)
    (hlast : sep ∉ last) : ∀ {ws : List (List Char)}, (∀ w ∈ ws, sep ∉ w) →
      occurrences (word ++ [sep]) (ws.flatMap (· ++ [sep]) ++ last) =
        ws.countP fun w => decide (word <:+ w)
  | [], _ => occurrences_eq_zero (by simp) hlast
  | w :: ws, h => by
    have ih := occurrences_flatMap_end hword hlast fun u hu => h u (List.mem_cons_of_mem _ hu)
    rw [List.flatMap_cons, List.append_assoc, List.append_assoc, List.singleton_append,
      occurrences_append_sep hword _ (h w List.mem_cons_self), ih, List.countP_cons,
      Nat.add_comm]
    simp

end EnumAssets

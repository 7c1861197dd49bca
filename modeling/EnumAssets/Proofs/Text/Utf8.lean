/-
# The bytes of a text

A byte below 0x80 never comes out of a character of several bytes, so an ASCII character is among
the bytes of a text exactly if it is among its characters (`mem_encode_iff`).  This is what lets a
path be taken apart at its slashes without being read as text.  For the same reason a text ends with
ASCII characters if its bytes end with theirs (`suffix_of_encode_suffix`).
-/
import EnumAssets.Text.Utf8
import Mathlib.Data.List.Basic
import Mathlib.Data.List.Induction

namespace EnumAssets.Utf8

theorem le_toNat_ofNat {n : Nat} (hlow : 128 ≤ n) (hhigh : n < 256) :
    128 ≤ (UInt8.ofNat n).toNat := by
  rw [UInt8.toNat_ofNat']
  omega

/-- A byte of a character is the character itself, or not ASCII. -/
theorem toNat_of_mem_encodeChar {c : Char} {b : UInt8} (h : b ∈ String.utf8EncodeChar c) :
    b.toNat = c.toNat ∨ 128 ≤ b.toNat := by
  have hc : c.val.toNat = c.toNat := rfl
  rw [String.utf8EncodeChar] at h
  split at h
  · left
    rw [List.mem_singleton.mp h, UInt8.toNat_ofNat', hc]
    omega
  · right
    split at h
    · rw [List.mem_cons, List.mem_singleton] at h
      rcases h with rfl | rfl <;> exact le_toNat_ofNat (by omega) (by omega)
    · split at h
      · rw [List.mem_cons, List.mem_cons, List.mem_singleton] at h
        rcases h with rfl | rfl | rfl <;> exact le_toNat_ofNat (by omega) (by omega)
      · rw [List.mem_cons, List.mem_cons, List.mem_cons, List.mem_singleton] at h
        rcases h with rfl | rfl | rfl | rfl <;> exact le_toNat_ofNat (by omega) (by omega)

/-- An ASCII character is one byte. -/
theorem encodeChar_of_ascii {c : Char} (hc : c.toNat < 128) :
    String.utf8EncodeChar c = [UInt8.ofNat c.toNat] := by
  have hsize : c.utf8Size = 1 := by
    rw [Char.utf8Size_eq_one_iff, UInt32.le_iff_toNat_le]
    exact Nat.le_of_lt_succ hc
  rw [String.utf8EncodeChar_eq_singleton hsize, List.singleton_inj]
  refine UInt8.toNat_inj.mp ?_
  rw [UInt8.toNat_ofNat', UInt32.toNat_toUInt8]
  rfl

/-- A character with an ASCII byte is that byte. -/
theorem eq_of_ascii_mem_encodeChar {c d : Char} (hc : c.toNat < 128)
    (h : UInt8.ofNat c.toNat ∈ String.utf8EncodeChar d) : c = d := by
  have hbyte : (UInt8.ofNat c.toNat).toNat = c.toNat := by
    rw [UInt8.toNat_ofNat']
    omega
  rcases toNat_of_mem_encodeChar h with hsame | hhigh
  · rw [hbyte] at hsame
    exact Char.toNat_inj.mp hsame
  · omega

/-- **An ASCII character is among the bytes** of a text if and only if it is in the text. -/
theorem mem_encode_iff {s : String} {c : Char} (hc : c.toNat < 128) :
    UInt8.ofNat c.toNat ∈ encode s ↔ c ∈ s.toList := by
  rw [encode, List.mem_flatMap]
  constructor
  · rintro ⟨d, hd, hmem⟩
    rwa [eq_of_ascii_mem_encodeChar hc hmem]
  · intro hmem
    refine ⟨c, hmem, ?_⟩
    rw [encodeChar_of_ascii hc]
    exact List.mem_singleton_self _

/-- **A text ends with ASCII characters** if its bytes end with theirs.  The induction takes both
texts from their ends, where one byte of the first is one character of the second. -/
theorem suffix_of_encode_suffix {s t : String} (h : ∀ c ∈ s.toList, c.toNat < 128)
    (hsuffix : encode s <:+ encode t) : s.toList <:+ t.toList := by
  rw [encode, encode] at hsuffix
  generalize t.toList = ds at hsuffix ⊢
  generalize s.toList = cs at h hsuffix ⊢
  induction cs using List.reverseRecOn generalizing ds with
  | nil => exact List.nil_suffix
  | append_singleton cs c ih =>
    have hc := h c (List.mem_append_right _ (List.mem_singleton_self c))
    rw [List.flatMap_append, List.flatMap_singleton, encodeChar_of_ascii hc] at hsuffix
    obtain ⟨front, hfront⟩ := hsuffix
    rcases List.eq_nil_or_concat ds with rfl | ⟨ds, d, rfl⟩
    · simp at hfront
    · rw [List.concat_eq_append, List.flatMap_append, List.flatMap_singleton,
        ← List.append_assoc] at hfront
      have hlast : UInt8.ofNat c.toNat ∈ String.utf8EncodeChar d := by
        have hget := congrArg List.getLast? hfront
        rw [List.getLast?_concat,
          List.getLast?_append_of_ne_nil _ String.utf8EncodeChar_ne_nil] at hget
        exact List.mem_of_getLast? hget.symm
      obtain rfl := eq_of_ascii_mem_encodeChar hc hlast
      rw [encodeChar_of_ascii hc] at hfront
      have hrest := ih ds (fun e he => h e (List.mem_append_left _ he))
        ⟨front, List.append_cancel_right hfront⟩
      rw [List.concat_eq_append]
      exact hrest.imp fun more hmore => by rw [← List.append_assoc, hmore]

end EnumAssets.Utf8

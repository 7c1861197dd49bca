/-
# Reading loses no byte

The pieces of a byte sequence, one behind the other, are that sequence again
(`flatMap_bytes_pieces`): a malformed part stands for its own bytes, and a character for the bytes
that encode it.  So bytes are read as a text exactly if they encode it (`decode_eq_some_iff`), and
bytes that encode no text have a malformed part (`exists_junk_of_not_text`), whatever makes it
malformed: a stray or missing continuation, an overlong form, a surrogate, a number that is too
large.  Where it is shown there is a U+FFFD (`replacement_mem_decodeLossy`).

What carries the induction is `Pending.Sound`: a character that has begun will be encoded by the
bytes read so far and any further ones that are accepted.  The bounds of the second byte are there
for this.  Within them the number is in the range of its length and no surrogate, so the encoding
has just these bytes.
-/
import EnumAssets.Proofs.Text.Roundtrip
import Mathlib.Algebra.Group.Nat.Defs

namespace EnumAssets.Utf8

/-! ## 1. The bytes of a piece -/

/-- The bytes that a piece was read from. -/
def Piece.bytes : Piece → Bytes
  | .char c => String.utf8EncodeChar c
  | .junk part => part

/-- The last bytes of a character with a number, as many as are said: six bits each, the highest
first. -/
def lastBytes (n : Nat) : Nat → Bytes
  | 0 => []
  | m + 1 => sixBits (n / 64 ^ m) :: lastBytes n m

theorem toNat_char {n : Nat} (h : n.isValidChar) : (Char.ofNat n).toNat = n := by
  rw [Char.ofNat, dif_pos h]
  rfl

/-! ## 2. Characters that have begun -/

/-- **What has begun can only become the character that it is the beginning of**: a number whose
highest bits are those read so far, and whose next byte is accepted, is encoded by the bytes read so
far and its last ones. -/
structure Pending.Sound (p : Pending) : Prop where
  missing_pos : 0 < p.missing
  low_le : 0x80 ≤ p.low.toNat
  le_high : p.high.toNat ≤ 0xBF
  encodes : ∀ n, n / 64 ^ p.missing = p.code →
    p.low.toNat ≤ n / 64 ^ (p.missing - 1) % 64 + 128 →
    n / 64 ^ (p.missing - 1) % 64 + 128 ≤ p.high.toNat →
    String.utf8EncodeChar (Char.ofNat n) = p.read ++ lastBytes n p.missing

theorem encodeChar_two {n : Nat} (hlow : 0x80 ≤ n) (hhigh : n < 0x800) :
    String.utf8EncodeChar (Char.ofNat n) = UInt8.ofNat (n / 64 + 192) :: lastBytes n 1 := by
  have hn : (Char.ofNat n).val.toNat = n := toNat_char (Or.inl (by omega))
  have hfirst : n / 64 % 32 = n / 64 := by omega
  rw [String.utf8EncodeChar, hn, if_neg (by omega), if_pos (by omega), hfirst]
  simp [lastBytes, sixBits]

theorem encodeChar_three {n : Nat} (hlow : 0x800 ≤ n) (hhigh : n < 0x10000)
    (hvalid : n < 0xD800 ∨ 0xDFFF < n) :
    String.utf8EncodeChar (Char.ofNat n) = UInt8.ofNat (n / 4096 + 224) :: lastBytes n 2 := by
  have hn : (Char.ofNat n).val.toNat = n := toNat_char (by rw [Nat.isValidChar]; omega)
  have hfirst : n / 4096 % 16 = n / 4096 := by omega
  rw [String.utf8EncodeChar, hn, if_neg (by omega), if_neg (by omega), if_pos (by omega), hfirst]
  simp [lastBytes, sixBits]

theorem encodeChar_four {n : Nat} (hlow : 0x10000 ≤ n) (hhigh : n < 0x110000) :
    String.utf8EncodeChar (Char.ofNat n) = UInt8.ofNat (n / 262144 + 240) :: lastBytes n 3 := by
  have hn : (Char.ofNat n).val.toNat = n := toNat_char (Or.inr (by omega))
  have hfirst : n / 262144 % 8 = n / 262144 := by omega
  rw [String.utf8EncodeChar, hn, if_neg (by omega), if_neg (by omega), if_neg (by omega), hfirst]
  simp [lastBytes, sixBits]

variable {n : Nat} {low high : UInt8}

theorem sound_two (hlow : 0xC2 ≤ n) (hhigh : n < 0xE0) :
    (Pending.mk [UInt8.ofNat n] 1 0x80 0xBF (n % 32)).Sound := by
  refine ⟨Nat.one_pos, Nat.le_refl _, Nat.le_refl _, fun k hk _ _ => ?_⟩
  simp only [Nat.pow_one] at hk
  have hfirst : k / 64 + 192 = n := by omega
  rw [encodeChar_two (by omega) (by omega), hfirst]
  rfl

/-- The second of three bytes rules out overlong forms behind 0xE0 and surrogates behind 0xED. -/
theorem sound_three (hn : 0xE0 ≤ n ∧ n < 0xF0)
    (hlow : low.toNat = if n = 0xE0 then 0xA0 else 0x80)
    (hhigh : high.toNat = if n = 0xED then 0x9F else 0xBF) :
    (Pending.mk [UInt8.ofNat n] 2 low high (n % 16)).Sound := by
  have hlow_le : 0x80 ≤ low.toNat := by split at hlow <;> omega
  have hle_high : high.toNat ≤ 0xBF := by split at hhigh <;> omega
  refine ⟨Nat.two_pos, hlow_le, hle_high, fun k hk hge hle => ?_⟩
  simp only [Nat.reducePow, Nat.add_one_sub_one] at hk hge hle
  have hfirst : k / 4096 + 224 = n := by omega
  have hshort : 0x800 ≤ k := by split at hlow <;> omega
  have hvalid : k < 0xD800 ∨ 0xDFFF < k := by split at hhigh <;> omega
  rw [encodeChar_three hshort (by omega) hvalid, hfirst]
  rfl

/-- The second of four bytes rules out overlong forms behind 0xF0 and too large numbers behind
0xF4. -/
theorem sound_four (hn : 0xF0 ≤ n ∧ n ≤ 0xF4)
    (hlow : low.toNat = if n = 0xF0 then 0x90 else 0x80)
    (hhigh : high.toNat = if n = 0xF4 then 0x8F else 0xBF) :
    (Pending.mk [UInt8.ofNat n] 3 low high (n % 8)).Sound := by
  have hlow_le : 0x80 ≤ low.toNat := by split at hlow <;> omega
  have hle_high : high.toNat ≤ 0xBF := by split at hhigh <;> omega
  refine ⟨Nat.succ_pos 2, hlow_le, hle_high, fun k hk hge hle => ?_⟩
  simp only [Nat.reducePow, Nat.reduceSub] at hk hge hle
  have hfirst : k / 262144 + 240 = n := by omega
  have hshort : 0x10000 ≤ k := by split at hlow <;> omega
  have hlast : k < 0x110000 := by split at hhigh <;> omega
  rw [encodeChar_four hshort hlast, hfirst]
  rfl

/-- A byte with which no character begins stands alone. -/
theorem lead_junk (hn : n < 256) (h : 0x80 ≤ n ∧ n < 0xC2 ∨ 0xF4 < n) :
    lead (UInt8.ofNat n) = .inl (.junk [UInt8.ofNat n]) := by
  simp only [lead, UInt8.lt_iff_toNat_lt, ← UInt8.toNat_inj, toNat_ofNat hn, UInt8.reduceToNat]
  rcases h with ⟨hlow, hhigh⟩ | hlow
  · rw [if_neg (by omega), if_pos hhigh]
  · rw [if_neg (by omega), if_neg (by omega), if_neg (by omega), if_neg (by omega),
      if_neg (by omega), if_neg (by omega), if_neg (by omega), if_neg (by omega), if_neg (by omega)]

/-- **A first byte** is a piece of its own, or a character begins with it. -/
theorem lead_cases (b : UInt8) : (∃ piece, lead b = .inl piece ∧ piece.bytes = [b]) ∨
    ∃ p, lead b = .inr p ∧ p.Sound ∧ p.read = [b] := by
  obtain ⟨n, hn, rfl⟩ : ∃ n < 256, UInt8.ofNat n = b := ⟨b.toNat, b.toNat_lt, UInt8.ofNat_toNat⟩
  by_cases hone : n < 0x80
  · have hascii : (Char.ofNat n).toNat = n := toNat_char (Or.inl (by omega))
    have hbytes := encodeChar_of_ascii (c := Char.ofNat n) (by omega)
    rw [hascii] at hbytes
    exact Or.inl ⟨_, lead_one hone, hbytes⟩
  by_cases hstray : n < 0xC2
  · exact Or.inl ⟨_, lead_junk hn (Or.inl ⟨by omega, hstray⟩), rfl⟩
  by_cases htwo : n < 0xE0
  · exact Or.inr ⟨_, lead_two (by omega) htwo, sound_two (by omega) htwo, rfl⟩
  by_cases hthree : n < 0xF0
  · obtain ⟨low, high, hlead, hlow, hhigh⟩ := lead_three (n := n) (by omega) hthree
    exact Or.inr ⟨_, hlead, sound_three ⟨by omega, hthree⟩ hlow hhigh, rfl⟩
  by_cases hfour : n ≤ 0xF4
  · obtain ⟨low, high, hlead, hlow, hhigh⟩ := lead_four (n := n) (by omega) hfour
    exact Or.inr ⟨_, hlead, sound_four ⟨by omega, hfour⟩ hlow hhigh, rfl⟩
  · exact Or.inl ⟨_, lead_junk hn (Or.inr (by omega)), rfl⟩

/-! ## 3. Bytes that are accepted -/

namespace Pending

variable {p : Pending} {b : UInt8}

/-- An accepted byte adds six bits, and is the one that the encoding of the number has there. -/
theorem Sound.sixBits_of_div (h : p.Sound) (hb : p.accepts b = true) {n : Nat}
    (hn : n % 64 = b.toNat % 64) : n % 64 + 128 = b.toNat ∧ sixBits n = b := by
  have hrange := accepts_iff.mp hb
  have hlow := h.low_le
  have hhigh := h.le_high
  have hbyte : n % 64 + 128 = b.toNat := by omega
  refine ⟨hbyte, ?_⟩
  rw [sixBits, hbyte, UInt8.ofNat_toNat]

/-- **The last byte** makes up the character. -/
theorem Sound.encodeChar_codeAfter (h : p.Sound) (hb : p.accepts b = true) (hlast : p.missing ≤ 1) :
    String.utf8EncodeChar (Char.ofNat (p.codeAfter b)) = p.read ++ [b] := by
  have hone : p.missing = 1 := Nat.le_antisymm hlast h.missing_pos
  have hcode : p.codeAfter b / 64 = p.code := by rw [codeAfter]; omega
  obtain ⟨hbyte, hbits⟩ := h.sixBits_of_div hb (n := p.codeAfter b) (by rw [codeAfter]; omega)
  have hrange := accepts_iff.mp hb
  have hencodes := h.encodes (p.codeAfter b)
  simp only [hone, Nat.pow_one, Nat.sub_self, Nat.pow_zero, Nat.div_one, hbyte] at hencodes
  rw [hencodes hcode hrange.1 hrange.2]
  simp [lastBytes, hbits]

/-- **A byte before the last** leaves a character that has begun. -/
theorem Sound.after (h : p.Sound) (hb : p.accepts b = true) (hmore : ¬ p.missing ≤ 1) :
    (p.after b).Sound := by
  obtain ⟨m, hm⟩ : ∃ m, p.missing = m + 2 := ⟨p.missing - 2, by omega⟩
  have hafter : (p.after b).missing = m + 1 := by simp [Pending.after, hm]
  refine ⟨by omega, Nat.le_refl _, Nat.le_refl _, fun n hn _ _ => ?_⟩
  rw [hafter] at hn ⊢
  have hcode : n / 64 ^ (m + 1) = p.codeAfter b := hn
  have hup : n / 64 ^ (m + 2) = p.code := by
    rw [Nat.pow_succ, ← Nat.div_div_eq_div_mul, hcode, codeAfter]
    omega
  obtain ⟨hbyte, hbits⟩ := h.sixBits_of_div hb (n := n / 64 ^ (m + 1)) (by
    rw [hcode, codeAfter]
    omega)
  have hrange := accepts_iff.mp hb
  have hencodes := h.encodes n
  simp only [hm, Nat.add_one_sub_one, hbyte] at hencodes
  rw [hencodes hup hrange.1 hrange.2, lastBytes, hbits, Pending.after]
  simp

end Pending

/-! ## 4. The whole sequence -/

/-- The bytes of a character that may have begun. -/
def begun : Option Pending → Bytes
  | none => []
  | some p => p.read

/-- What is read after a first byte, if no byte is lost later on. -/
theorem flatMap_bytes_startWith {b : UInt8} {next : Option Pending → List Piece} {rest : Bytes}
    (h : ∀ state, (∀ p ∈ state, p.Sound) → (next state).flatMap Piece.bytes = begun state ++ rest) :
    (startWith b next).flatMap Piece.bytes = b :: rest := by
  rcases lead_cases b with ⟨piece, hlead, hbytes⟩ | ⟨p, hlead, hsound, hread⟩
  · have hrest := h none fun p hp => absurd hp (Option.not_mem_none p)
    rw [startWith, hlead, List.flatMap_cons, hbytes, hrest]
    rfl
  · have hrest := h (some p) fun q hq => Option.mem_some_iff.mp hq ▸ hsound
    rw [startWith, hlead, hrest, begun, hread]
    rfl

theorem flatMap_bytes_piecesFrom : ∀ (bs : Bytes) (state : Option Pending),
    (∀ p ∈ state, p.Sound) → (piecesFrom state bs).flatMap Piece.bytes = begun state ++ bs
  | [], none, _ => rfl
  | [], some p, _ => by simp [piecesFrom, Piece.bytes, begun]
  | b :: rest, none, _ => by
    rw [piecesFrom]
    exact flatMap_bytes_startWith (flatMap_bytes_piecesFrom rest)
  | b :: rest, some p, h => by
    have hsound := h p rfl
    rw [piecesFrom]
    split
    · next hb =>
      split
      · next hlast =>
        have hrest := flatMap_bytes_piecesFrom rest none fun q hq =>
          absurd hq (Option.not_mem_none q)
        rw [List.flatMap_cons, Piece.bytes, hsound.encodeChar_codeAfter hb hlast, hrest]
        simp [begun]
      · next hmore =>
        have hrest := flatMap_bytes_piecesFrom rest (some (p.after b)) fun q hq =>
          Option.mem_some_iff.mp hq ▸ hsound.after hb hmore
        rw [hrest]
        simp [begun, Pending.after]
    · rw [List.flatMap_cons, Piece.bytes,
        flatMap_bytes_startWith (flatMap_bytes_piecesFrom rest), begun]

/-- **Reading loses no byte.** -/
theorem flatMap_bytes_pieces (bs : Bytes) : (pieces bs).flatMap Piece.bytes = bs :=
  flatMap_bytes_piecesFrom bs none fun p hp => absurd hp (Option.not_mem_none p)

/-! ## 5. What is a text, and what is none -/

variable {bs : Bytes} {s : String}

theorem eq_map_char_of_mapM : ∀ {ps : List Piece} {cs : List Char},
    ps.mapM Piece.char? = some cs → ps = cs.map .char
  | [], _, h => by
    cases h
    rfl
  | .junk _ :: _, _, h => by
    rw [List.mapM_cons] at h
    cases h
  | .char c :: ps, cs, h => by
    rw [List.mapM_cons] at h
    obtain ⟨_, hc, h⟩ := Option.bind_eq_some_iff.mp h
    obtain ⟨rest, hrest, h⟩ := Option.bind_eq_some_iff.mp h
    cases hc
    cases h
    rw [eq_map_char_of_mapM hrest, List.map_cons]

/-- **Bytes are read as a text** exactly if they encode it. -/
theorem decode_eq_some_iff : decode bs = some s ↔ encode s = bs := by
  constructor
  · intro h
    obtain ⟨cs, hcs, rfl⟩ := Option.map_eq_some_iff.mp h
    rw [← flatMap_bytes_pieces bs, eq_map_char_of_mapM hcs, encode, String.toList_ofList,
      List.flatMap_map]
    rfl
  · rintro rfl
    exact decode_encode s

theorem decode_eq_none_iff : decode bs = none ↔ ∀ s, encode s ≠ bs := by
  simp only [Option.eq_none_iff_forall_ne_some, Ne, decode_eq_some_iff]

/-- Where nothing is malformed, what is shown encodes to what was read. -/
theorem encode_decodeLossy (h : ∀ part, .junk part ∉ pieces bs) : encode (decodeLossy bs) = bs := by
  have hchars : ∀ piece ∈ pieces bs,
      String.utf8EncodeChar (piece.char?.getD replacement) = piece.bytes := by
    rintro (c | part) hpiece
    · rfl
    · exact absurd hpiece (h part)
  rw [encode, decodeLossy, String.toList_ofList, List.flatMap_map]
  exact (List.flatMap_congr hchars).trans (flatMap_bytes_pieces bs)

/-- **What encodes no text** has a malformed part. -/
theorem exists_junk_of_not_text (h : ∀ s, encode s ≠ bs) : ∃ part, .junk part ∈ pieces bs := by
  by_contra hnone
  exact h _ (encode_decodeLossy fun part hpart => hnone ⟨part, hpart⟩)

/-- **The malformed parts show.** -/
theorem replacement_mem_decodeLossy (h : ∀ s, encode s ≠ bs) :
    replacement ∈ (decodeLossy bs).toList := by
  obtain ⟨part, hpart⟩ := exists_junk_of_not_text h
  rw [decodeLossy, String.toList_ofList]
  exact List.mem_map.mpr ⟨.junk part, hpart, rfl⟩

end EnumAssets.Utf8

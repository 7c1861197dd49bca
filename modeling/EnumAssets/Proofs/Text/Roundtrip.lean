/-
# Reading what was written

The bytes of a text are read as the characters of the text and nothing else (`pieces_encode`), so
what is shown of them is the text (`decodeLossy_encode`) and no two texts have the same bytes
(`encode_injective`).

The argument goes character by character (`piecesFrom_encodeChar`).  The first byte tells how many
bytes belong to a character and bounds the second one (`lead_two`, `lead_three`, `lead_four`); each
further byte is within its bounds and adds six bits to the number (`piecesFrom_sixBits`).  What
remains is that the bits make up the number of the character again.
-/
import EnumAssets.Proofs.Text.Utf8

namespace EnumAssets.Utf8

/-! ## 1. The first byte -/

theorem toNat_ofNat {n : Nat} (h : n < 256) : (UInt8.ofNat n).toNat = n := by
  rw [UInt8.toNat_ofNat', Nat.mod_eq_of_lt h]

theorem lead_one {n : Nat} (h : n < 0x80) :
    lead (UInt8.ofNat n) = .inl (.char (Char.ofNat n)) := by
  have hn := toNat_ofNat (n := n) (by omega)
  simp only [lead, UInt8.lt_iff_toNat_lt, hn, UInt8.reduceToNat]
  rw [if_pos h]

theorem lead_two {n : Nat} (hlow : 0xC2 ≤ n) (hhigh : n < 0xE0) :
    lead (UInt8.ofNat n) = .inr ⟨[UInt8.ofNat n], 1, 0x80, 0xBF, n % 32⟩ := by
  have hn := toNat_ofNat (n := n) (by omega)
  simp only [lead, UInt8.lt_iff_toNat_lt, hn, UInt8.reduceToNat]
  rw [if_neg (by omega), if_neg (by omega), if_pos hhigh]

/-- The second of three bytes is bounded below against overlong forms, and above against
surrogates. -/
theorem lead_three {n : Nat} (hlow : 0xE0 ≤ n) (hhigh : n < 0xF0) :
    ∃ low high, lead (UInt8.ofNat n) = .inr ⟨[UInt8.ofNat n], 2, low, high, n % 16⟩ ∧
      low.toNat = (if n = 0xE0 then 0xA0 else 0x80) ∧
      high.toNat = (if n = 0xED then 0x9F else 0xBF) := by
  have hn := toNat_ofNat (n := n) (by omega)
  simp only [lead, UInt8.lt_iff_toNat_lt, ← UInt8.toNat_inj, hn, UInt8.reduceToNat]
  rw [if_neg (by omega), if_neg (by omega), if_neg (by omega)]
  by_cases hfirst : n = 0xE0
  · subst hfirst
    exact ⟨0xA0, 0xBF, rfl, rfl, rfl⟩
  · by_cases hsurrogate : n = 0xED
    · subst hsurrogate
      exact ⟨0x80, 0x9F, rfl, rfl, rfl⟩
    · rw [if_neg hfirst, if_neg hsurrogate, if_pos hhigh, if_neg hfirst, if_neg hsurrogate]
      exact ⟨0x80, 0xBF, rfl, rfl, rfl⟩

/-- The second of four bytes is bounded below against overlong forms, and above by the last
character. -/
theorem lead_four {n : Nat} (hlow : 0xF0 ≤ n) (hhigh : n ≤ 0xF4) :
    ∃ low high, lead (UInt8.ofNat n) = .inr ⟨[UInt8.ofNat n], 3, low, high, n % 8⟩ ∧
      low.toNat = (if n = 0xF0 then 0x90 else 0x80) ∧
      high.toNat = (if n = 0xF4 then 0x8F else 0xBF) := by
  have hn := toNat_ofNat (n := n) (by omega)
  simp only [lead, UInt8.lt_iff_toNat_lt, ← UInt8.toNat_inj, hn, UInt8.reduceToNat]
  rw [if_neg (by omega), if_neg (by omega), if_neg (by omega), if_neg (by omega),
    if_neg (by omega), if_neg (by omega)]
  by_cases hfirst : n = 0xF0
  · subst hfirst
    exact ⟨0x90, 0xBF, rfl, rfl, rfl⟩
  · by_cases hlast : n = 0xF4
    · subst hlast
      exact ⟨0x80, 0x8F, rfl, rfl, rfl⟩
    · rw [if_neg hfirst, if_neg hfirst, if_pos (by omega), if_neg hlast]
      exact ⟨0x80, 0xBF, rfl, rfl, rfl⟩

/-! ## 2. The bytes behind it -/

/-- A byte with the last six bits of a number, as it stands behind the first byte of a character. -/
def sixBits (k : Nat) : UInt8 :=
  UInt8.ofNat (k % 64 + 128)

theorem toNat_sixBits (k : Nat) : (sixBits k).toNat = k % 64 + 128 :=
  toNat_ofNat (by omega)

theorem Pending.accepts_iff {p : Pending} {b : UInt8} :
    p.accepts b = true ↔ p.low.toNat ≤ b.toNat ∧ b.toNat ≤ p.high.toNat := by
  rw [Pending.accepts, Bool.and_eq_true, decide_eq_true_iff, decide_eq_true_iff,
    UInt8.le_iff_toNat_le, UInt8.le_iff_toNat_le]

theorem Pending.accepts_sixBits {p : Pending} {k : Nat} (hlow : p.low.toNat ≤ k % 64 + 128)
    (hhigh : k % 64 + 128 ≤ p.high.toNat) : p.accepts (sixBits k) = true := by
  rw [Pending.accepts_iff, toNat_sixBits]
  exact ⟨hlow, hhigh⟩

theorem Pending.codeAfter_sixBits (p : Pending) (k : Nat) :
    p.codeAfter (sixBits k) = p.code * 64 + k % 64 := by
  rw [Pending.codeAfter, toNat_sixBits]
  omega

/-- **The bytes that are missing complete the character**, six bits each.  The bounds that the first
byte sets are those of the second one only. -/
theorem piecesFrom_sixBits (rest : Bytes) : ∀ {ks : List Nat} {k : Nat} {p : Pending},
    p.missing = ks.length + 1 → p.accepts (sixBits k) = true →
      piecesFrom (some p) (sixBits k :: ks.map sixBits ++ rest) =
        .char (Char.ofNat (ks.foldl (fun code j => code * 64 + j % 64) (p.code * 64 + k % 64))) ::
          piecesFrom none rest
  | [], k, p, hmissing, haccepts => by
    have hlast : p.missing ≤ 1 := Nat.le_of_eq hmissing
    rw [List.map_nil, List.cons_append, piecesFrom, if_pos haccepts, if_pos hlast,
      p.codeAfter_sixBits]
    rfl
  | j :: ks, k, p, hmissing, haccepts => by
    rw [List.length_cons] at hmissing
    have hmore : ¬ p.missing ≤ 1 := by omega
    have hnext : (p.after (sixBits k)).accepts (sixBits j) = true :=
      Pending.accepts_sixBits (by simp [Pending.after]) (by simp [Pending.after]; omega)
    rw [List.map_cons, List.cons_append, piecesFrom, if_pos haccepts, if_neg hmore,
      piecesFrom_sixBits rest (by rw [Pending.after, hmissing]; rfl) hnext, List.foldl_cons,
      Pending.after, p.codeAfter_sixBits]

/-! ## 3. One character -/

/-- No character is a surrogate, and none is beyond the last one. -/
theorem toNat_valid (c : Char) : c.toNat < 0xD800 ∨ 0xDFFF < c.toNat ∧ c.toNat < 0x110000 :=
  c.valid

/-- **The bytes of a character are read as that character**, whatever follows. -/
theorem piecesFrom_encodeChar (c : Char) (rest : Bytes) :
    piecesFrom none (String.utf8EncodeChar c ++ rest) = .char c :: piecesFrom none rest := by
  have hvalid := toNat_valid c
  have hback : Char.ofNat c.toNat = c := Char.ofNat_toNat c
  have hc : c.val.toNat = c.toNat := rfl
  rw [String.utf8EncodeChar, hc]
  generalize c.toNat = n at hvalid hback
  split
  · next hone =>
    rw [List.singleton_append, piecesFrom, startWith, lead_one (by omega)]
    simp only
    rw [hback]
  · split
    · next htwo =>
      have hbits := @piecesFrom_sixBits rest [] n
        ⟨[UInt8.ofNat (n / 64 % 32 + 192)], 1, 0x80, 0xBF, (n / 64 % 32 + 192) % 32⟩ rfl
        (Pending.accepts_sixBits (by simp) (by simp; omega))
      have hcode : (n / 64 % 32 + 192) % 32 * 64 + n % 64 = n := by omega
      rw [List.foldl_nil, hcode, hback] at hbits
      rw [List.cons_append, piecesFrom, startWith, lead_two (by omega) (by omega)]
      exact hbits
    · split
      · next hthree =>
        obtain ⟨low, high, hlead, hlow, hhigh⟩ :=
          lead_three (n := n / 4096 % 16 + 224) (by omega) (by omega)
        have hbits := @piecesFrom_sixBits rest [n] (n / 64)
          ⟨[UInt8.ofNat (n / 4096 % 16 + 224)], 2, low, high, (n / 4096 % 16 + 224) % 16⟩ rfl
          (Pending.accepts_sixBits (by rw [hlow]; split <;> omega) (by rw [hhigh]; split <;> omega))
        have hcode : ((n / 4096 % 16 + 224) % 16 * 64 + n / 64 % 64) * 64 + n % 64 = n := by omega
        rw [List.foldl_cons, List.foldl_nil, hcode, hback] at hbits
        rw [List.cons_append, piecesFrom, startWith, hlead]
        exact hbits
      · next hfour =>
        obtain ⟨low, high, hlead, hlow, hhigh⟩ :=
          lead_four (n := n / 262144 % 8 + 240) (by omega) (by omega)
        have hbits := @piecesFrom_sixBits rest [n / 64, n] (n / 4096)
          ⟨[UInt8.ofNat (n / 262144 % 8 + 240)], 3, low, high, (n / 262144 % 8 + 240) % 8⟩ rfl
          (Pending.accepts_sixBits (by rw [hlow]; split <;> omega) (by rw [hhigh]; split <;> omega))
        have hcode : (((n / 262144 % 8 + 240) % 8 * 64 + n / 4096 % 64) * 64 + n / 64 % 64) * 64 +
            n % 64 = n := by omega
        rw [List.foldl_cons, List.foldl_cons, List.foldl_nil, hcode, hback] at hbits
        rw [List.cons_append, piecesFrom, startWith, hlead]
        exact hbits

/-! ## 4. Whole texts -/

/-- **A text is read as its characters.** -/
theorem pieces_encode (s : String) : pieces (encode s) = s.toList.map .char := by
  rw [pieces, encode]
  induction s.toList with
  | nil => rfl
  | cons c cs ih => rw [List.flatMap_cons, piecesFrom_encodeChar, ih, List.map_cons]

theorem decodeLossy_encode (s : String) : decodeLossy (encode s) = s := by
  rw [decodeLossy, pieces_encode, List.map_map]
  exact (congrArg String.ofList (List.map_id _)).trans String.ofList_toList

/-- The bytes of a text are read as the text. -/
theorem decode_encode (s : String) : decode (encode s) = some s := by
  have hchars : (s.toList.map Piece.char).mapM Piece.char? = some s.toList := by
    induction s.toList with
    | nil => rfl
    | cons c cs ih =>
      rw [List.map_cons, List.mapM_cons, ih]
      rfl
  rw [decode, pieces_encode, hchars, Option.map_some, String.ofList_toList]

/-- No two texts have the same bytes. -/
theorem encode_injective {s t : String} (h : encode s = encode t) : s = t := by
  rw [← decodeLossy_encode s, h, decodeLossy_encode]

end EnumAssets.Utf8

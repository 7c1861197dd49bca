/-
# Rounding is to the nearest number

The code of a number is its place among the numbers of a format.  `Format.units` is the number
itself, counted in the least positive one, and `Format.value` is the number.  `nearest_round` states
what `Format.round` is for: no number of the format is nearer to the fraction than the one with that
code, and if another one is as near, the code is even.  There is one such code only (`Nearest.eq`),
and it is its own if the fraction is a number of the format (`Nearest.eq_of_value`).

The numbers are evenly spaced between two powers of two, and twice as far apart above each further
one.  So every code is `s * 2 ^ (digits - 1) + w` with a spacing of `2 ^ s` and a count `w` of
spacings (`units_cell`), and `Format.round` picks the spacing from the leading digit of the fraction
and the count by rounding to an integer (`Placed`).  Two facts are left.  All numbers from the
fraction's own power of two on are multiples of its spacing, so the nearest integer decides; and
all numbers below lie on the far side of that power, which is itself a multiple.

The short format is rounded to from integers and from longer numbers, the sign apart
(`Single.nearest_ofInt`, `Single.nearest_ofDouble`).
-/
import EnumAssets.Number.Binary
import Mathlib.Algebra.Order.Field.Power
import Mathlib.Data.Rat.Cast.Order
import Mathlib.Tactic.FieldSimp
import Mathlib.Tactic.Linarith
import Mathlib.Tactic.Positivity
import Mathlib.Tactic.Ring

namespace EnumAssets.Format

/-! ## 1. The numbers of a format -/

variable (f : Format)

/-- How many numbers there are with one spacing above the least. -/
def stride : Nat :=
  2 ^ (f.digits - 1)

/-- The number with a code, counted in the least positive number. -/
def units (code : Nat) : Nat :=
  if code / f.stride = 0 then code % f.stride
  else (f.stride + code % f.stride) * 2 ^ (code / f.stride - 1)

/-- The number with a code. -/
def value (code : Nat) : ℚ :=
  f.units code / 2 ^ f.depth

theorem stride_pos : 0 < f.stride :=
  Nat.two_pow_pos _

/-- A count of spacings: any up to twice the stride if the spacing is the least, and at least the
stride if it is not. -/
structure Cell (s w : Nat) : Prop where
  le_two : w ≤ 2 * f.stride
  stride_le : s ≠ 0 → f.stride ≤ w

variable {f}

theorem units_zero_add {m : Nat} (h : m < f.stride) : f.units m = m := by
  rw [units, Nat.div_eq_of_lt h, if_pos rfl, Nat.mod_eq_of_lt h]

theorem units_succ_mul_add {e m : Nat} (h : m < f.stride) :
    f.units ((e + 1) * f.stride + m) = (f.stride + m) * 2 ^ e := by
  have hdiv : ((e + 1) * f.stride + m) / f.stride = e + 1 := by
    rw [Nat.mul_comm, Nat.mul_add_div f.stride_pos, Nat.div_eq_of_lt h, Nat.add_zero]
  rw [units, hdiv, if_neg (Nat.succ_ne_zero e), Nat.mul_comm (e + 1), Nat.mul_add_mod,
    Nat.mod_eq_of_lt h, Nat.add_sub_cancel]

/-- **The number with a code**, by its spacing and the count of spacings. -/
theorem units_cell {s w : Nat} (h : f.Cell s w) : f.units (s * f.stride + w) = w * 2 ^ s := by
  rcases Nat.lt_or_ge w f.stride with hlow | hlow
  · have hs : s = 0 := by
      by_contra hs
      exact absurd (h.stride_le hs) (Nat.not_le.mpr hlow)
    rw [hs, Nat.zero_mul, Nat.zero_add, units_zero_add hlow, Nat.pow_zero, Nat.mul_one]
  obtain ⟨m, rfl⟩ := Nat.exists_eq_add_of_le hlow
  have hcode : s * f.stride + (f.stride + m) = (s + 1) * f.stride + m := by
    rw [Nat.succ_mul, Nat.add_assoc]
  rcases Nat.lt_or_ge m f.stride with hm | hm
  · rw [hcode, units_succ_mul_add hm]
  · -- the count is twice the stride: this is the first number with the next spacing
    have hm' : m = f.stride := by
      have := h.le_two
      omega
    have hcode' : (s + 1) * f.stride + f.stride = (s + 1 + 1) * f.stride + 0 :=
      (Nat.succ_mul (s + 1) f.stride).symm
    rw [hcode, hm', hcode', units_succ_mul_add f.stride_pos, Nat.add_zero, Nat.pow_succ,
      ← Nat.two_mul, Nat.mul_comm 2, Nat.mul_assoc, Nat.mul_comm 2]

theorem exists_cell (code : Nat) :
    ∃ s w, code = s * f.stride + w ∧ f.Cell s w ∧ w < 2 * f.stride := by
  have hpos := f.stride_pos
  have hdiv := Nat.div_add_mod code f.stride
  have hmod := Nat.mod_lt code hpos
  cases he : code / f.stride with
  | zero =>
    rw [he] at hdiv
    exact ⟨0, code, by omega, ⟨by omega, nofun⟩, by omega⟩
  | succ s =>
    refine ⟨s, f.stride + code % f.stride, ?_, ⟨by omega, fun _ => by omega⟩, by omega⟩
    rw [he, Nat.mul_succ, Nat.mul_comm] at hdiv
    omega

/-- **Codes ascend with their numbers.** -/
theorem units_strictMono : StrictMono f.units := by
  refine strictMono_nat_of_lt_succ fun code => ?_
  obtain ⟨s, w, hcode, hcell, hlt⟩ := exists_cell (f := f) code
  have hnext : f.Cell s (w + 1) := ⟨by omega, fun hs => Nat.le_succ_of_le (hcell.stride_le hs)⟩
  rw [hcode, Nat.add_assoc, units_cell hcell, units_cell hnext]
  exact Nat.mul_lt_mul_of_pos_right (Nat.lt_succ_self w) (Nat.two_pow_pos s)

theorem two_pow_depth_pos : 0 < Nat.pow 2 f.depth :=
  Nat.two_pow_pos _

theorem value_eq (code : Nat) : f.value code = f.units code / (Nat.pow 2 f.depth : ℕ) :=
  congrArg _ (Nat.cast_pow 2 f.depth).symm

theorem value_nonneg (code : Nat) : 0 ≤ f.value code := by
  rw [value]
  positivity

theorem value_strictMono : StrictMono f.value := fun c d h =>
  div_lt_div_of_pos_right (Nat.cast_lt.mpr (units_strictMono h)) (by positivity)

/-! ## 2. Rounding to an integer -/

/-- An integer is no farther than one half from a fraction, and even if it is that far. -/
structure Half (w : Nat) (x : ℚ) : Prop where
  abs_le : |(w : ℚ) - x| ≤ 1 / 2
  even : |(w : ℚ) - x| = 1 / 2 → Even w

theorem half_nearest (num : Nat) {den : Nat} (hden : 0 < den) :
    Half (nearest num den) (num / den) := by
  have hpos : (0 : ℚ) < den := Nat.cast_pos.mpr hden
  obtain ⟨x, hx⟩ : ∃ x : ℚ, x = (num % den : ℕ) / den := ⟨_, rfl⟩
  have hsplit : (num : ℚ) / den = (num / den : ℕ) + x := by
    rw [hx, div_eq_iff hpos.ne', add_mul, div_mul_cancel₀ _ hpos.ne']
    exact_mod_cast (Nat.div_add_mod' num den).symm
  have hlow : 0 ≤ x := hx ▸ by positivity
  have hhigh : x < 1 := hx ▸ (div_lt_one hpos).mpr (Nat.cast_lt.mpr (Nat.mod_lt num hden))
  have hlt : den < 2 * (num % den) ↔ 1 / 2 < x := by
    rw [hx, div_lt_div_iff₀ two_pos hpos, one_mul, mul_comm]
    exact_mod_cast Iff.rfl
  have heq : 2 * (num % den) = den ↔ x = 1 / 2 := by
    rw [hx, div_eq_div_iff hpos.ne' two_ne_zero, one_mul, mul_comm]
    exact_mod_cast Iff.rfl
  rw [hsplit, nearest]
  generalize num / den = q
  split
  · next hup =>
    have hdist : |((q + 1 : ℕ) : ℚ) - (q + x)| = 1 - x := by
      rw [abs_of_nonneg] <;> push_cast <;> linarith
    simp only [Bool.or_eq_true, Bool.and_eq_true, decide_eq_true_eq, beq_iff_eq, hlt, heq] at hup
    refine ⟨by rw [hdist]; rcases hup with hup | hup <;> linarith, fun hhalf => ?_⟩
    rw [hdist] at hhalf
    rcases hup with hup | ⟨-, hodd⟩
    · linarith
    · exact Nat.even_iff.mpr (by omega)
  · next hup =>
    have hdist : |((q : ℕ) : ℚ) - (q + x)| = x := by
      rw [abs_sub_comm, add_sub_cancel_left, abs_of_nonneg hlow]
    simp only [Bool.or_eq_true, Bool.and_eq_true, decide_eq_true_eq, beq_iff_eq, hlt, heq,
      not_or, not_and, not_lt] at hup
    refine ⟨by rw [hdist]; exact hup.1, fun hhalf => ?_⟩
    rw [hdist] at hhalf
    exact Nat.even_iff.mpr (by have := hup.2 hhalf; omega)

variable {w k : Nat} {x : ℚ}

/-- Every other integer is one half away or farther. -/
theorem Half.half_le (h : Half w x) (hne : k ≠ w) : 1 / 2 ≤ |(k : ℚ) - x| := by
  have hone : (1 : ℚ) ≤ |(k : ℚ) - w| := by
    have hint : (1 : ℤ) ≤ |(k : ℤ) - w| := Int.one_le_abs (by omega)
    exact_mod_cast hint
  have htriangle := abs_sub_le (k : ℚ) x w
  have hclose := h.abs_le
  rw [abs_sub_comm] at hclose
  linarith

/-! ## 3. The leading digit -/

variable {num den : Nat}

theorem reached_iff (hden : 0 < den) (guess : Int) :
    (if 0 ≤ guess then decide (den * Nat.pow 2 guess.toNat ≤ num)
      else decide (den ≤ num * Nat.pow 2 (-guess).toNat)) = true ↔
      (2 : ℚ) ^ guess ≤ num / den := by
  have hpos : (0 : ℚ) < den := Nat.cast_pos.mpr hden
  rw [le_div_iff₀ hpos]
  split
  · next h =>
    obtain ⟨n, rfl⟩ := Int.eq_ofNat_of_zero_le h
    rw [decide_eq_true_iff, Int.toNat_natCast, zpow_natCast, mul_comm]
    exact_mod_cast Iff.rfl
  · next h =>
    obtain ⟨n, rfl⟩ : ∃ n : ℕ, guess = -n := ⟨(-guess).toNat, by omega⟩
    rw [decide_eq_true_iff, neg_neg, Int.toNat_natCast, zpow_neg, zpow_natCast,
      inv_mul_le_iff₀ (by positivity), mul_comm]
    exact_mod_cast Iff.rfl

theorem leading_eq (hden : 0 < den) :
    leading num den = if (2 : ℚ) ^ ((num.log2 : ℤ) - den.log2) ≤ num / den
      then (num.log2 : ℤ) - den.log2 else (num.log2 : ℤ) - den.log2 - 1 :=
  if_congr (reached_iff hden _) rfl rfl

/-- The power of two below a positive number and the next one. -/
theorem log2_bounds {n : Nat} (h : 0 < n) :
    (2 : ℚ) ^ (n.log2 : ℤ) ≤ n ∧ (n : ℚ) < 2 ^ ((n.log2 : ℤ) + 1) := by
  constructor
  · rw [zpow_natCast]
    exact_mod_cast Nat.log2_self_le h.ne'
  · have hlt : n < 2 ^ (n.log2 + 1) := Nat.lt_log2_self
    rw [← Nat.cast_succ, zpow_natCast]
    exact_mod_cast hlt

/-- **The leading digit** tells between which powers of two a fraction is. -/
theorem leading_spec (hnum : 0 < num) (hden : 0 < den) :
    (2 : ℚ) ^ leading num den ≤ num / den ∧ (num : ℚ) / den < 2 ^ (leading num den + 1) := by
  have hpos : (0 : ℚ) < den := Nat.cast_pos.mpr hden
  obtain ⟨hnumlow, hnumhigh⟩ := log2_bounds hnum
  obtain ⟨hdenlow, hdenhigh⟩ := log2_bounds hden
  rw [leading_eq hden]
  split
  · next h =>
    refine ⟨h, ?_⟩
    rw [div_lt_iff₀ hpos]
    calc (num : ℚ) < 2 ^ ((num.log2 : ℤ) + 1) := hnumhigh
      _ = 2 ^ ((num.log2 : ℤ) - den.log2 + 1) * 2 ^ (den.log2 : ℤ) := by
        rw [← zpow_add₀ two_ne_zero]
        congr 1
        ring
      _ ≤ 2 ^ ((num.log2 : ℤ) - den.log2 + 1) * den := by gcongr
  · next h =>
    rw [sub_add_cancel]
    refine ⟨?_, not_le.mp h⟩
    rw [le_div_iff₀ hpos]
    calc (2 : ℚ) ^ ((num.log2 : ℤ) - den.log2 - 1) * den
        ≤ 2 ^ ((num.log2 : ℤ) - den.log2 - 1) * 2 ^ ((den.log2 : ℤ) + 1) := by gcongr
      _ = 2 ^ (num.log2 : ℤ) := by
        rw [← zpow_add₀ two_ne_zero]
        congr 1
        ring
      _ ≤ num := hnumlow

/-! ## 4. Where a fraction is placed -/

/-- **A fraction is placed** at a count of spacings that is nearest to it, where the spacing is that
of the numbers around it.  The fraction is counted in the least positive number. -/
structure Placed (f : Format) (x : ℚ) (s w : Nat) : Prop where
  half : Half w (x / 2 ^ s)
  stride_le : s ≠ 0 → (f.stride : ℚ) ≤ x / 2 ^ s
  lt_two : x / 2 ^ s < 2 * f.stride

theorem half_scaled (hden : 0 < den) (last : Int) :
    Half (if 0 ≤ last then nearest num (den * Nat.pow 2 last.toNat)
      else nearest (num * Nat.pow 2 (-last).toNat) den) (num / den / 2 ^ last) := by
  split
  · next h =>
    obtain ⟨n, rfl⟩ := Int.eq_ofNat_of_zero_le h
    have hscaled := half_nearest num (Nat.mul_pos hden (Nat.two_pow_pos n))
    rwa [Nat.cast_mul, Nat.cast_pow, Nat.cast_two, ← div_div, ← zpow_natCast] at hscaled
  · next h =>
    obtain ⟨n, rfl⟩ : ∃ n : ℕ, last = -n := ⟨(-last).toNat, by omega⟩
    have hscaled := half_nearest (num * 2 ^ n) hden
    rw [Nat.cast_mul, Nat.cast_pow, Nat.cast_two, mul_div_right_comm, ← zpow_natCast] at hscaled
    rwa [neg_neg, Int.toNat_natCast, zpow_neg, div_inv_eq_mul]

theorem exists_placed (num : Nat) (hdigits : 0 < f.digits) (hden : 0 < den) :
    ∃ s w, f.Placed (num / den * 2 ^ f.depth) s w ∧
      f.round num den = min f.infinity (s * f.stride + w) := by
  have hstride : (0 : ℚ) < f.stride := Nat.cast_pos.mpr f.stride_pos
  rcases Nat.eq_zero_or_pos num with rfl | hnum
  · refine ⟨0, 0, ⟨⟨by simp, by simp⟩, by simp, by simpa using hstride⟩, ?_⟩
    simp [round]
  obtain ⟨hlow, hhigh⟩ := leading_spec hnum hden
  obtain ⟨last, hlast⟩ : ∃ last, last =
      max (-(f.depth : Int)) (leading num den - ((f.digits : Int) - 1)) := ⟨_, rfl⟩
  obtain ⟨s, hs⟩ : ∃ s : ℕ, (s : Int) = last + f.depth := ⟨(last + f.depth).toNat, by omega⟩
  have hscale : (num : ℚ) / den * 2 ^ f.depth / 2 ^ s = num / den / 2 ^ last := by
    rw [← zpow_natCast, ← zpow_natCast, hs, zpow_add₀ two_ne_zero]
    field_simp
  have hpow : (f.stride : ℚ) = 2 ^ ((f.digits : Int) - 1) := by
    rw [stride, Nat.cast_pow, Nat.cast_two, ← zpow_natCast, Nat.cast_pred hdigits]
  refine ⟨s, _, ⟨hscale ▸ half_scaled hden last, ?_, ?_⟩, ?_⟩
  · intro hne
    rw [hscale, hpow, le_div_iff₀ (by positivity), ← zpow_add₀ two_ne_zero]
    have hexp : (f.digits : Int) - 1 + last = leading num den := by omega
    rwa [hexp]
  · rw [hscale, hpow, div_lt_iff₀ (by positivity), mul_assoc, ← zpow_add₀ two_ne_zero,
      ← zpow_one_add₀ two_ne_zero]
    refine hhigh.trans_le (zpow_le_zpow_right₀ one_le_two ?_)
    omega
  · have hspacing : (last + f.depth).toNat = s := by omega
    rw [round, if_neg hnum.ne', ← hlast]
    simp only [hspacing]
    rfl

/-! ## 5. Rounding to the nearest number -/

variable {s : Nat}

theorem Placed.cell (h : f.Placed x s w) : f.Cell s w := by
  obtain ⟨hlow, hhigh⟩ := abs_le.mp h.half.abs_le
  constructor
  · have hlt : (w : ℚ) < 2 * f.stride + 1 := by linarith [h.lt_two]
    exact Nat.le_of_lt_succ (by exact_mod_cast hlt)
  · intro hs
    have hlt : (f.stride : ℚ) < w + 1 := by linarith [h.stride_le hs]
    exact Nat.le_of_lt_succ (by exact_mod_cast hlt)

/-- **A number is a multiple of a spacing, or below all the numbers with that spacing.** -/
theorem units_cases (s d : Nat) :
    (∃ k, f.units d = k * 2 ^ s) ∨ s ≠ 0 ∧ f.units d < f.stride * 2 ^ s := by
  obtain ⟨s', w, rfl, hcell, hlt⟩ := exists_cell (f := f) d
  rw [units_cell hcell]
  rcases Nat.lt_or_ge s' s with hs | hs
  · refine Or.inr ⟨by omega, ?_⟩
    calc w * 2 ^ s' < 2 * f.stride * 2 ^ s' := Nat.mul_lt_mul_of_pos_right hlt (by positivity)
      _ = f.stride * 2 ^ (s' + 1) := by ring
      _ ≤ f.stride * 2 ^ s := Nat.mul_le_mul_left _ (Nat.pow_le_pow_right two_pos hs)
  · obtain ⟨m, rfl⟩ := Nat.exists_eq_add_of_le hs
    exact Or.inl ⟨w * 2 ^ m, by ring⟩

/-- The first multiple with a spacing that is not the least is not above the fraction. -/
theorem Placed.stride_mul_le (h : f.Placed x s w) (hs : s ≠ 0) :
    ((f.stride * 2 ^ s : ℕ) : ℚ) ≤ x := by
  push_cast
  exact (le_div_iff₀ (by positivity)).mp (h.stride_le hs)

/-- Of two numbers below it the smaller one is farther away. -/
theorem abs_sub_lt_of_lt {a b : ℚ} (hab : a < b) (hb : b ≤ x) : |b - x| < |a - x| := by
  rw [abs_sub_comm, abs_of_nonneg (sub_nonneg.mpr hb), abs_sub_comm,
    abs_of_nonneg (sub_nonneg.mpr (hab.le.trans hb))]
  linarith

/-- How far a multiple of the spacing is, counted in spacings. -/
theorem abs_multiple_sub (s k : Nat) (x : ℚ) :
    |((k * 2 ^ s : ℕ) : ℚ) - x| = |(k : ℚ) - x / 2 ^ s| * 2 ^ s := by
  have hpos : (0 : ℚ) < 2 ^ s := by positivity
  rw [← abs_of_pos hpos, ← abs_mul, abs_of_pos hpos, sub_mul, div_mul_cancel₀ _ hpos.ne']
  push_cast
  rfl

/-- **No other number is nearer**, and one is as near only if the count of spacings is even. -/
theorem Placed.nearer (h : f.Placed x s w) {d : Nat} (hne : d ≠ s * f.stride + w) :
    |(f.units (s * f.stride + w) : ℚ) - x| < |(f.units d : ℚ) - x| ∨
      |(f.units (s * f.stride + w) : ℚ) - x| = |(f.units d : ℚ) - x| ∧ Even w := by
  have hpos : (0 : ℚ) < 2 ^ s := by positivity
  have hunits : f.units d ≠ w * 2 ^ s := by
    rw [← units_cell h.cell]
    exact fun heq => hne (units_strictMono.injective heq)
  rw [units_cell h.cell]
  rcases units_cases s d with ⟨k, hk⟩ | ⟨hs, hlt⟩
  · -- both are multiples of the spacing: the nearest integer decides
    have hkw : k ≠ w := fun heq => hunits (heq ▸ hk)
    rw [hk, abs_multiple_sub, abs_multiple_sub]
    rcases (h.half.abs_le.trans (h.half.half_le hkw)).lt_or_eq with hlt | heq
    · exact Or.inl (mul_lt_mul_of_pos_right hlt hpos)
    · refine Or.inr ⟨by rw [heq], h.half.even (le_antisymm h.half.abs_le ?_)⟩
      rw [heq]
      exact h.half.half_le hkw
  · -- the other number is beyond a multiple that is no nearer than this one
    have hbelow : ((f.units d : ℕ) : ℚ) < (f.stride * 2 ^ s : ℕ) := Nat.cast_lt.mpr hlt
    have hmultiple : |((w * 2 ^ s : ℕ) : ℚ) - x| ≤ |((f.stride * 2 ^ s : ℕ) : ℚ) - x| := by
      rw [abs_multiple_sub, abs_multiple_sub]
      refine mul_le_mul_of_nonneg_right ?_ hpos.le
      rcases eq_or_ne f.stride w with heq | hkw
      · rw [heq]
      · exact h.half.abs_le.trans (h.half.half_le hkw)
    exact Or.inl (hmultiple.trans_lt (abs_sub_lt_of_lt hbelow (h.stride_mul_le hs)))

/-- Numbers below it are not above the fraction. -/
theorem Placed.units_le (h : f.Placed x s w) {d : Nat} (hlt : d < s * f.stride + w) :
    (f.units d : ℚ) ≤ x := by
  have hpos : (0 : ℚ) < 2 ^ s := by positivity
  have hunits : f.units d < w * 2 ^ s := units_cell h.cell ▸ units_strictMono hlt
  rcases units_cases s d with ⟨k, hk⟩ | ⟨hs, hlt⟩
  · have hkw : (k : ℚ) + 1 ≤ w := by
      exact_mod_cast Nat.lt_of_mul_lt_mul_right (hk ▸ hunits)
    have hle : (k : ℚ) ≤ x / 2 ^ s := by linarith [(abs_le.mp h.half.abs_le).2]
    rw [hk]
    push_cast
    exact (le_div_iff₀ hpos).mp hle
  · exact (Nat.cast_le.mpr hlt.le).trans (h.stride_mul_le hs)

/-- **The code of the number nearest to a fraction**; of two that are equally near, the even one. -/
structure Nearest (f : Format) (r : ℚ) (code : Nat) : Prop where
  le_infinity : code ≤ f.infinity
  abs_le : ∀ d ≤ f.infinity, |f.value code - r| ≤ |f.value d - r|
  even : ∀ d ≤ f.infinity, d ≠ code → |f.value d - r| = |f.value code - r| → Even code

theorem abs_value_sub (d : Nat) (r : ℚ) :
    |f.value d - r| = |(f.units d : ℚ) - r * 2 ^ f.depth| / 2 ^ f.depth := by
  have hpos : (0 : ℚ) < 2 ^ f.depth := by positivity
  rw [value, ← abs_of_pos hpos, ← abs_div, abs_of_pos hpos, sub_div,
    mul_div_cancel_right₀ _ hpos.ne']

variable {r : ℚ}

/-- A code is nearest if no other one is nearer, counted in the least positive number. -/
theorem nearest_of_units {code : Nat} (hcode : code ≤ f.infinity)
    (h : ∀ d ≤ f.infinity, d ≠ code →
      |(f.units code : ℚ) - r * 2 ^ f.depth| < |(f.units d : ℚ) - r * 2 ^ f.depth| ∨
        |(f.units code : ℚ) - r * 2 ^ f.depth| = |(f.units d : ℚ) - r * 2 ^ f.depth| ∧
          Even code) : f.Nearest r code := by
  have hpos : (0 : ℚ) < 2 ^ f.depth := by positivity
  constructor
  case le_infinity => exact hcode
  case abs_le =>
    intro d hd
    rw [abs_value_sub, abs_value_sub, div_le_div_iff_of_pos_right hpos]
    rcases eq_or_ne d code with rfl | hne
    · exact le_rfl
    · exact (h d hd hne).elim le_of_lt fun heq => heq.1.le
  case even =>
    intro d hd hne heq
    rw [abs_value_sub, abs_value_sub, div_left_inj' hpos.ne'] at heq
    exact (h d hd hne).elim (fun hlt => absurd heq hlt.ne') And.right

/-- **Rounding gives the nearest number of the format**, or infinity beyond the largest. -/
theorem nearest_round (num : Nat) (hdigits : 1 < f.digits) (hden : 0 < den) :
    f.Nearest (num / den) (f.round num den) := by
  obtain ⟨s, w, hplaced, hround⟩ := exists_placed (f := f) num (by omega) hden
  rw [hround]
  rcases le_or_gt (s * f.stride + w) f.infinity with hle | hlt
  · rw [min_eq_right hle]
    refine nearest_of_units hle fun d _ hne => ?_
    refine (hplaced.nearer hne).imp_right fun ⟨heq, hw⟩ => ⟨heq, ?_⟩
    have hstride : Even f.stride := (Nat.even_pow.mpr ⟨even_two, by omega⟩)
    exact (hstride.mul_left s).add hw
  · -- all numbers lie below the fraction, so the last of them is the nearest
    rw [min_eq_left hlt.le]
    refine nearest_of_units le_rfl fun d hd hne => Or.inl ?_
    have hlast := hplaced.units_le hlt
    have hless : (f.units d : ℚ) < f.units f.infinity :=
      Nat.cast_lt.mpr (units_strictMono (lt_of_le_of_ne hd hne))
    exact abs_sub_lt_of_lt hless hlast

/-- **There is only one nearest number**: between two that are equally near and both even, there
would be a third one, nearer than both. -/
theorem Nearest.not_lt {c d : Nat} (hc : f.Nearest r c) (hd : f.Nearest r d) : ¬ c < d := by
  intro hlt
  have heq : |f.value c - r| = |f.value d - r| :=
    le_antisymm (hc.abs_le d hd.le_infinity) (hd.abs_le c hc.le_infinity)
  have hevenc : Even c := hc.even d hd.le_infinity hlt.ne' heq.symm
  have hevend : Even d := hd.even c hc.le_infinity hlt.ne heq
  have hbetween : c + 1 < d := by
    rcases hevenc with ⟨a, rfl⟩
    rcases hevend with ⟨b, rfl⟩
    omega
  have hlow : f.value c < f.value (c + 1) := value_strictMono (Nat.lt_succ_self c)
  have hhigh : f.value (c + 1) < f.value d := value_strictMono hbetween
  have hthird : |f.value (c + 1) - r| < |f.value c - r| := by
    rw [abs_lt]
    constructor
    · linarith [neg_abs_le (f.value c - r)]
    · rw [heq]
      linarith [le_abs_self (f.value d - r)]
  have hle : c + 1 ≤ f.infinity := hbetween.le.trans hd.le_infinity
  exact absurd (hc.abs_le _ hle) (not_le.mpr hthird)

theorem Nearest.eq {c d : Nat} (hc : f.Nearest r c) (hd : f.Nearest r d) : c = d :=
  Nat.le_antisymm (Nat.not_lt.mp (hd.not_lt hc)) (Nat.not_lt.mp (hc.not_lt hd))

/-- **A number of the format is nearest to itself alone.** -/
theorem Nearest.eq_of_value {c d : Nat} (h : f.Nearest (f.value c) d) (hc : c ≤ f.infinity) :
    d = c := by
  have hle := h.abs_le c hc
  rw [sub_self, abs_zero] at hle
  exact value_strictMono.injective (sub_eq_zero.mp (abs_nonpos_iff.mp hle))

end EnumAssets.Format

namespace EnumAssets

/-! ## 6. The short format -/

/-- The number with the bits of a longer number that is finite. -/
def Double.value (x : Double) : ℚ :=
  (if x.isNegative then -1 else 1) * Format.double.value x.code

namespace Single

/-- Whether the sign is set. -/
def isNegative (x : Single) : Bool :=
  decide (Nat.pow 2 31 ≤ x.bits.toNat)

/-- The number with the bits of a number that is finite. -/
def value (x : Single) : ℚ :=
  (if x.isNegative then -1 else 1) * Format.single.value x.code

theorem toNat_bits_ofCode (negative : Bool) {code : Nat} (h : code < 2 ^ 31) :
    (ofCode negative code).bits.toNat = (if negative then 2 ^ 31 else 0) + code := by
  rw [ofCode, UInt32.toNat_ofNat']
  refine Nat.mod_eq_of_lt ?_
  split <;> simp <;> omega

theorem code_ofCode (negative : Bool) {code : Nat} (h : code < 2 ^ 31) :
    (ofCode negative code).code = code := by
  rw [Single.code, toNat_bits_ofCode negative h]
  cases negative <;> simpa using h

theorem isNegative_ofCode (negative : Bool) {code : Nat} (h : code < 2 ^ 31) :
    (ofCode negative code).isNegative = negative := by
  rw [isNegative, toNat_bits_ofCode negative h]
  cases negative
  · simpa using h
  · simp

/-- **The short number nearest to a rational**: the nearest code with the sign in front. -/
structure Nearest (x : Single) (r : ℚ) : Prop where
  code : Format.single.Nearest |r| x.code
  isNegative_iff : r ≠ 0 → (x.isNegative = true ↔ r < 0)

theorem nearest_ofCode {negative : Bool} {r : ℚ} {num den : Nat} (hden : 0 < den)
    (habs : |r| = num / den) (hsign : r ≠ 0 → (negative = true ↔ r < 0)) :
    (ofCode negative (Format.single.round num den)).Nearest r := by
  have hnearest := Format.nearest_round (f := Format.single) num (by decide) hden
  have hsmall : Format.single.round num den < 2 ^ 31 :=
    hnearest.le_infinity.trans_lt (by decide)
  constructor
  case code => rwa [code_ofCode negative hsmall, habs]
  case isNegative_iff => rwa [isNegative_ofCode negative hsmall]

/-- **An integer is read as the number nearest to it.** -/
theorem nearest_ofInt (n : Int) : (ofInt n).Nearest n := by
  refine nearest_ofCode Nat.one_pos ?_ fun _ => ?_
  · rw [Nat.cast_one, div_one, Nat.cast_natAbs, Int.cast_abs]
  · rw [decide_eq_true_iff, Int.cast_lt_zero]

/-- A finite longer number is rounded as a fraction. -/
theorem ofDouble_eq {x : Double} (h : x.code < Format.double.infinity) :
    ofDouble x = ofCode x.isNegative
      (Format.single.round (Format.double.units x.code) (Nat.pow 2 Format.double.depth)) := by
  have hnan : ¬ x.isNaN = true := by
    rw [Double.isNaN, decide_eq_true_iff]
    exact h.le.not_gt
  have hexponent : ¬ x.code / Nat.pow 2 52 = 0x7FF := by
    have : x.code < 0x7FF0000000000000 := h
    simp
    omega
  have hunits : Format.double.units x.code = if x.code / Nat.pow 2 52 = 0
      then x.code % Nat.pow 2 52
      else (Nat.pow 2 52 + x.code % Nat.pow 2 52) * Nat.pow 2 (x.code / Nat.pow 2 52 - 1) := rfl
  rw [ofDouble, hunits]
  simp only [if_neg hnan, if_neg hexponent]
  split <;> rfl

/-- The sign of a value does not show in its absolute value. -/
theorem abs_sign_mul (negative : Bool) {v : ℚ} (h : 0 ≤ v) :
    |(if negative then -1 else 1 : ℚ) * v| = v := by
  cases negative <;> simp [abs_of_nonneg h]

theorem sign_mul_neg_iff (negative : Bool) {v : ℚ} (h : 0 ≤ v)
    (hne : (if negative then -1 else 1 : ℚ) * v ≠ 0) :
    (if negative then -1 else 1 : ℚ) * v < 0 ↔ negative = true := by
  have hpos : 0 < v := lt_of_le_of_ne h fun heq => hne (by rw [← heq, mul_zero])
  cases negative <;> simp [hpos, hpos.le]

/-- **A finite longer number is read as the number nearest to it**, and keeps its sign. -/
theorem nearest_ofDouble {x : Double} (h : x.code < Format.double.infinity) :
    (ofDouble x).Nearest x.value ∧ (ofDouble x).isNegative = x.isNegative := by
  have hden := Format.double.two_pow_depth_pos
  have hnonneg := Format.double.value_nonneg x.code
  rw [ofDouble_eq h]
  constructor
  · have habs : |x.value| = Format.double.value x.code := abs_sign_mul _ hnonneg
    exact nearest_ofCode hden (habs.trans (Format.double.value_eq x.code))
      fun hne => (sign_mul_neg_iff _ hnonneg hne).symm
  · refine isNegative_ofCode _ (lt_of_le_of_lt ?_ (by decide : Format.single.infinity < 2 ^ 31))
    exact (Format.nearest_round _ (by decide) hden).le_infinity

/-- Infinity is read as infinity. -/
theorem ofDouble_infinity {x : Double} (h : x.code = Format.double.infinity) :
    ofDouble x = ofCode x.isNegative Format.single.infinity := by
  have hnan : ¬ x.isNaN = true := by simp [Double.isNaN, h]
  have hexponent : x.code / Nat.pow 2 52 = 0x7FF := by rw [h]; rfl
  rw [ofDouble]
  simp only [if_neg hnan, if_pos hexponent]

/-- What is no number is read as no number. -/
theorem isNaN_ofDouble {x : Double} (h : x.isNaN = true) : (ofDouble x).isNaN = true := by
  rw [ofDouble]
  simp only [if_pos h]
  rw [isNaN, code_ofCode _ (by decide)]
  decide

/-- **A number that the short format has is kept.** -/
theorem Nearest.value_eq {x y : Single} (h : x.Nearest y.value)
    (hy : y.code ≤ Format.single.infinity) : x.value = y.value := by
  have hnonneg := Format.single.value_nonneg y.code
  have habs : |y.value| = Format.single.value y.code := abs_sign_mul _ hnonneg
  have hcode : x.code = y.code := (habs ▸ h.code).eq_of_value hy
  by_cases hzero : y.value = 0
  · rw [hzero, abs_zero] at habs
    rw [hzero, value, hcode, ← habs, mul_zero]
  · have hsign : x.isNegative = y.isNegative := by
      rw [Bool.eq_iff_iff, h.isNegative_iff hzero]
      exact sign_mul_neg_iff _ hnonneg hzero
    rw [value, value, hcode, hsign]

end Single
end EnumAssets

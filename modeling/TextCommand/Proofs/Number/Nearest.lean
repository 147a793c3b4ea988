import Mathlib.Algebra.Order.Ring.Abs
import TextCommand.Proofs.Number.Encoding

/-!
# The nearest finite encoding

A fraction lies between the midpoints to the neighbours of the rank that it rounds to.  So no finite encoding is
nearer to it than the one of that rank and of its own sign, and if another value is as near the rank is even.  Beyond
the midpoint between the largest finite magnitude and the next one there is no such rank.
-/

namespace TextCommand.Number

attribute [local instance (high)] instPowNat

namespace Format

variable (f : Format)

/-- No finite encoding stands for a number nearer to `x`; where another number is as near, this one is even. -/
structure Nearest (x : ℚ) (bits : Nat) : Prop where
  finite : f.IsFinite bits
  nearest : ∀ other, f.IsFinite other → |x - f.value bits| ≤ |x - f.value other|
  even : ∀ other, f.IsFinite other → f.value other ≠ f.value bits →
    |x - f.value other| = |x - f.value bits| → bits % 2 = 0

/-- Between the midpoints to the neighbours of a rank, and on neither of them if the rank is odd. -/
structure RoundsTo (y : ℚ) (rank : Nat) : Prop where
  low_le : f.magnitude (rank - 1) + f.magnitude rank ≤ 2 * y
  le_high : 2 * y ≤ f.magnitude rank + f.magnitude (rank + 1)
  strict : rank % 2 = 1 → f.magnitude (rank - 1) + f.magnitude rank < 2 * y ∧
    2 * y < f.magnitude rank + f.magnitude (rank + 1)

/-- The midpoint between the largest finite magnitude and the one that would follow it. -/
def overflow : ℚ := (f.magnitude (f.infinity - 1) + f.magnitude f.infinity) / 2

variable {f}

/-! ### Magnitudes and midpoints -/

theorem magnitude_strictMono : StrictMono f.magnitude := by
  intro a b h
  have hunits : (f.units a : ℚ) < f.units b := by exact_mod_cast f.units_lt h
  exact div_lt_div_of_pos_right hunits (by positivity)

theorem magnitude_zero : f.magnitude 0 = 0 := by
  have hunits : f.units 0 = 0 := if_pos f.binade_pos
  rw [magnitude, hunits, Nat.cast_zero, zero_div]

theorem magnitude_nonneg (rank : Nat) : 0 ≤ f.magnitude rank :=
  magnitude_zero (f := f) ▸ magnitude_strictMono.monotone (Nat.zero_le rank)

/-- Measured in multiples of the smallest magnitude the midpoints are natural numbers. -/
theorem rounds_iff_roundsTo {num den rank : Nat} (hden : 0 < den) :
    f.Rounds num den rank ↔ f.RoundsTo (num / den) rank := by
  have hden' : (0 : ℚ) < den := by exact_mod_cast hden
  have hscale : (0 : ℚ) < 2 ^ f.scale := by positivity
  have htwice : 2 * ((num : ℚ) / den) = (2 * (num * 2 ^ f.scale) : ℕ) / (2 ^ f.scale * den) := by
    push_cast
    field_simp
  have hmid : ∀ a b, f.magnitude a + f.magnitude b =
      ((f.units a + f.units b) * den : ℕ) / (2 ^ f.scale * den) := fun a b => by
    unfold magnitude
    push_cast
    field_simp
  have hpos : (0 : ℚ) < 2 ^ f.scale * den := mul_pos hscale hden'
  have hle : ∀ m n : ℕ, (m : ℚ) / (2 ^ f.scale * den) ≤ n / (2 ^ f.scale * den) ↔ m ≤ n :=
    fun m n => (div_le_div_iff_of_pos_right hpos).trans Nat.cast_le
  have hlt : ∀ m n : ℕ, (m : ℚ) / (2 ^ f.scale * den) < n / (2 ^ f.scale * den) ↔ m < n :=
    fun m n => (div_lt_div_iff_of_pos_right hpos).trans Nat.cast_lt
  constructor
  · rintro ⟨hlow, hhigh, hstrict⟩
    constructor <;> rw [htwice, hmid]
    · exact (hle _ _).mpr hlow
    · exact (hle _ _).mpr hhigh
    · rw [hmid, hlt, hlt]
      exact hstrict
  · rintro ⟨hlow, hhigh, hstrict⟩
    rw [htwice, hmid, hle] at hlow hhigh
    rw [htwice, hmid, hmid, hlt, hlt] at hstrict
    exact ⟨hlow, hhigh, hstrict⟩

/-! ### Distances -/

/-- Of two numbers the larger one is at least as near exactly from their midpoint on. -/
theorem abs_sub_larger_le_iff {y a b : ℚ} (hab : a < b) : |y - b| ≤ |y - a| ↔ a + b ≤ 2 * y := by
  rw [← sq_le_sq]
  constructor
  · intro h
    by_contra hy
    nlinarith [mul_pos (sub_pos.mpr hab) (sub_pos.mpr (not_le.mp hy))]
  · intro h
    nlinarith [mul_nonneg (sub_pos.mpr hab).le (sub_nonneg.mpr h)]

/-- The smaller one is at least as near exactly up to their midpoint. -/
theorem abs_sub_smaller_le_iff {y a b : ℚ} (hab : a < b) : |y - a| ≤ |y - b| ↔ 2 * y ≤ a + b := by
  have hmirrored := abs_sub_larger_le_iff (y := -y) (neg_lt_neg hab)
  rw [neg_sub_neg, neg_sub_neg, abs_sub_comm a, abs_sub_comm b] at hmirrored
  rw [hmirrored]
  constructor <;> intro h <;> linarith

/-- What rounds to a rank is as near to its magnitude as to any other, and no nearer only if the rank is even. -/
theorem RoundsTo.abs_sub_le {y : ℚ} {rank : Nat} (h : f.RoundsTo y rank) (other : Nat) :
    |y - f.magnitude rank| ≤ |y - f.magnitude other| ∧
      (other ≠ rank → |y - f.magnitude other| = |y - f.magnitude rank| → rank % 2 = 0) := by
  have hlow := h.low_le
  have hhigh := h.le_high
  rcases Nat.lt_trichotomy other rank with hlt | rfl | hgt
  · -- a smaller magnitude is at most the one below
    have hless : f.magnitude other < f.magnitude rank := magnitude_strictMono hlt
    have hbelow : f.magnitude other ≤ f.magnitude (rank - 1) := magnitude_strictMono.monotone (by omega)
    refine ⟨(abs_sub_larger_le_iff hless).mpr (by linarith), fun _ htie => ?_⟩
    have hmidpoint := (abs_sub_smaller_le_iff hless).mp htie.le
    by_contra hodd
    linarith [(h.strict (by omega)).1]
  · exact ⟨le_refl _, fun hne => absurd rfl hne⟩
  · -- a larger one is at least the one above
    have hmore : f.magnitude rank < f.magnitude other := magnitude_strictMono hgt
    have habove : f.magnitude (rank + 1) ≤ f.magnitude other := magnitude_strictMono.monotone hgt
    refine ⟨(abs_sub_smaller_le_iff hmore).mpr (by linarith), fun _ htie => ?_⟩
    have hmidpoint := (abs_sub_larger_le_iff hmore).mp htie.le
    by_contra hodd
    linarith [(h.strict (by omega)).2]

/-! ### Overflow -/

theorem Proper.infinity_even (hf : f.Proper) : f.infinity % 2 = 0 ∧ 0 < f.infinity := by
  have hprecision := hf.precision
  have hexponent : 2 ≤ 2 ^ f.exponentBits := Nat.pow_le_pow_right Nat.two_pos hf.exponentBits
  have hbinade : f.binade = 2 * 2 ^ (f.precision - 2) := by
    rw [binade, ← Nat.pow_succ']
    congr 1
    omega
  refine ⟨?_, Nat.mul_pos (by omega) f.binade_pos⟩
  rw [infinity, hbinade, Nat.mul_left_comm, Nat.mul_mod_right]

/-- The rank of what lies below the last midpoint is finite, and of nothing else. -/
theorem RoundsTo.lt_infinity_iff (hf : f.Proper) {y : ℚ} {rank : Nat} (h : f.RoundsTo y rank) :
    rank < f.infinity ↔ y < f.overflow := by
  obtain ⟨heven, hpos⟩ := hf.infinity_even
  have hsucc : f.infinity - 1 + 1 = f.infinity := by omega
  rw [overflow, lt_div_iff₀' (by norm_num)]
  constructor
  · intro hrank
    rcases Nat.lt_or_ge rank (f.infinity - 1) with hlt | hge
    · have hrank' : f.magnitude rank < f.magnitude (f.infinity - 1) := magnitude_strictMono hlt
      have hnext : f.magnitude (rank + 1) ≤ f.magnitude f.infinity := magnitude_strictMono.monotone hrank
      linarith [h.le_high]
    · -- the last finite rank is odd, so the midpoint itself is out
      obtain rfl : rank = f.infinity - 1 := by omega
      have hinside := (h.strict (by omega)).2
      rwa [hsucc] at hinside
  · intro hy
    -- from that midpoint on the rank is not finite
    by_contra hrank
    have hlow := h.low_le
    have hpred : f.magnitude (f.infinity - 1) ≤ f.magnitude (rank - 1) := magnitude_strictMono.monotone (by omega)
    have hself : f.magnitude f.infinity ≤ f.magnitude rank := magnitude_strictMono.monotone (by omega)
    linarith

end Format

/-! ### Signs -/

namespace Binary

open Format

variable {f : Format}

theorem factor_ne_zero (b : Binary f) : b.factor ≠ 0 := by
  unfold factor
  split <;> norm_num

theorem abs_sub_of_same {b c : Binary f} (h : c.negative = b.negative) (y : ℚ) :
    |b.factor * y - c.value| = |y - f.magnitude c.rank| := by
  have habs : |b.factor| = 1 := by
    unfold factor
    split <;> simp
  have hfactor : c.factor = b.factor := by rw [factor, factor, h]
  rw [value, hfactor, ← mul_sub, abs_mul, habs, one_mul]

theorem abs_sub_of_opposite {b c : Binary f} (h : c.negative ≠ b.negative) {y : ℚ} (hy : 0 ≤ y) :
    |b.factor * y - c.value| = y + f.magnitude c.rank := by
  have hsum : 0 ≤ y + f.magnitude c.rank := add_nonneg hy (magnitude_nonneg _)
  unfold value factor
  rw [Bool.eq_not.mpr h]
  cases b.negative
  · simp [abs_of_nonneg hsum]
  · rw [← abs_neg]
    simp [add_comm, abs_of_nonneg hsum]

/-- An encoding is as even as its rank. -/
theorem bits_mod_two (hf : f.Proper) (b : Binary f) : b.bits % 2 = b.rank % 2 := by
  have heven := f.rank_mod_two hf.precision (b.negative.toNat * 2 ^ f.exponentBits) b.rank
  rwa [Nat.mul_assoc, ← b.bits_eq hf] at heven

/-- The finite encodings are those of the numbers, so these are all that a nearest one is compared with. -/
theorem nearest_bits_iff (hf : f.Proper) {x : ℚ} {b : Binary f} :
    f.Nearest x b.bits ↔ ∀ c : Binary f, |x - b.value| ≤ |x - c.value| ∧
      (c.value ≠ b.value → |x - c.value| = |x - b.value| → b.rank % 2 = 0) := by
  constructor
  · intro h c
    have hnearest := h.nearest _ (c.isFinite_bits hf)
    have heven := h.even _ (c.isFinite_bits hf)
    rw [value_bits hf, value_bits hf] at hnearest heven
    rw [bits_mod_two hf] at heven
    exact ⟨hnearest, heven⟩
  · intro h
    refine ⟨b.isFinite_bits hf, fun other hother => ?_, fun other hother => ?_⟩
    all_goals
      obtain ⟨c, rfl⟩ := exists_of_isFinite hf hother
      rw [value_bits hf, value_bits hf]
    · exact (h c).1
    · rw [bits_mod_two hf]
      exact (h c).2

/-- What rounds to the rank of a number has that number, behind the same sign, as the nearest one. -/
theorem nearest_of_roundsTo (hf : f.Proper) {b : Binary f} {y : ℚ} (hy : 0 ≤ y)
    (h : f.RoundsTo y b.rank) : f.Nearest (b.factor * y) b.bits := by
  refine (nearest_bits_iff hf).mpr fun c => ?_
  rw [abs_sub_of_same rfl]
  by_cases hsign : c.negative = b.negative
  · -- the same sign: the distances are those of the magnitudes
    obtain ⟨hle, htie⟩ := h.abs_sub_le c.rank
    rw [abs_sub_of_same hsign]
    refine ⟨hle, fun hvalue => htie fun hrank => hvalue ?_⟩
    rw [value, value, hrank, factor, factor, hsign]
  · -- a number with the other sign is no nearer than zero
    obtain ⟨hle, htie⟩ := h.abs_sub_le 0
    have hc : 0 ≤ f.magnitude c.rank := magnitude_nonneg _
    rw [magnitude_zero, sub_zero, abs_of_nonneg hy] at hle htie
    rw [abs_sub_of_opposite hsign hy]
    refine ⟨by linarith, fun _ heq => ?_⟩
    by_cases hrank : 0 = b.rank
    · rw [← hrank]
    · exact htie hrank (by linarith)

/-- Behind the sign of the nearest number no other finite rank is nearer. -/
theorem abs_sub_le_of_nearest (hf : f.Proper) {b : Binary f} {y : ℚ}
    (h : f.Nearest (b.factor * y) b.bits) {rank : Nat} (hrank : rank < f.infinity)
    (hne : rank ≠ b.rank) : |y - f.magnitude b.rank| ≤ |y - f.magnitude rank| ∧
      (|y - f.magnitude rank| = |y - f.magnitude b.rank| → b.rank % 2 = 0) := by
  have hsame := abs_sub_of_same (b := b) (c := ⟨b.negative, rank, hrank⟩) rfl y
  obtain ⟨hle, heven⟩ := (nearest_bits_iff hf).mp h ⟨b.negative, rank, hrank⟩
  rw [abs_sub_of_same rfl, hsame] at hle heven
  refine ⟨hle, heven fun hvalue => hne ?_⟩
  exact magnitude_strictMono.injective (mul_left_cancel₀ b.factor_ne_zero hvalue)

/-- The nearest number below the overflow has the rank that the fraction rounds to. -/
theorem roundsTo_of_nearest (hf : f.Proper) {b : Binary f} {y : ℚ} (hy : 0 ≤ y)
    (hbelow : y < f.overflow) (h : f.Nearest (b.factor * y) b.bits) : f.RoundsTo y b.rank := by
  have hfinite := b.finite
  have hlow : f.magnitude (b.rank - 1) + f.magnitude b.rank ≤ 2 * y ∧
      (b.rank % 2 = 1 → f.magnitude (b.rank - 1) + f.magnitude b.rank < 2 * y) := by
    -- nothing is below zero; other ranks have one below them to compare with
    rcases Nat.eq_zero_or_pos b.rank with hzero | hpos
    · rw [hzero, magnitude_zero]
      exact ⟨by linarith, by simp⟩
    · have hless : f.magnitude (b.rank - 1) < f.magnitude b.rank := magnitude_strictMono (by omega)
      have hpred : b.rank - 1 < f.infinity := by omega
      obtain ⟨hle, htie⟩ := abs_sub_le_of_nearest hf h hpred (by omega)
      refine ⟨(abs_sub_larger_le_iff hless).mp hle, fun hodd => ?_⟩
      by_contra hmidpoint
      have hle' := (abs_sub_smaller_le_iff hless).mpr (not_lt.mp hmidpoint)
      have heven := htie (le_antisymm hle' hle)
      omega
  have hhigh : 2 * y ≤ f.magnitude b.rank + f.magnitude (b.rank + 1) ∧
      (b.rank % 2 = 1 → 2 * y < f.magnitude b.rank + f.magnitude (b.rank + 1)) := by
    -- the one above is finite, or the overflow is the midpoint
    rcases Nat.lt_or_ge (b.rank + 1) f.infinity with hnext | hlast
    · have hmore : f.magnitude b.rank < f.magnitude (b.rank + 1) := magnitude_strictMono (by omega)
      obtain ⟨hle, htie⟩ := abs_sub_le_of_nearest hf h hnext (by omega)
      refine ⟨(abs_sub_smaller_le_iff hmore).mp hle, fun hodd => ?_⟩
      by_contra hmidpoint
      have hle' := (abs_sub_larger_le_iff hmore).mpr (not_lt.mp hmidpoint)
      have heven := htie (le_antisymm hle' hle)
      omega
    · have hnext : b.rank + 1 = f.infinity := by omega
      have hrank : b.rank = f.infinity - 1 := by omega
      rw [overflow, lt_div_iff₀' (by norm_num)] at hbelow
      rw [hnext, hrank]
      exact ⟨hbelow.le, fun _ => hbelow⟩
  exact ⟨hlow.1, hhigh.1, fun hodd => ⟨hlow.2 hodd, hhigh.2 hodd⟩⟩

end Binary

/-! ### Decimals -/

namespace Decimal

open Format

variable {f : Format}

def magnitude (d : Decimal) : ℚ := d.numeral / 10 ^ d.places

def value (d : Decimal) : ℚ := (if d.negative then -1 else 1) * d.magnitude

theorem magnitude_nonneg (d : Decimal) : 0 ≤ d.magnitude :=
  div_nonneg (Nat.cast_nonneg _) (by positivity)

theorem abs_value (d : Decimal) : |d.value| = d.magnitude := by
  have hfactor : |if d.negative then (-1 : ℚ) else 1| = 1 := by split <;> simp
  rw [value, abs_mul, hfactor, one_mul, abs_of_nonneg d.magnitude_nonneg]

theorem rounds_iff_roundsTo (d : Decimal) (rank : Nat) :
    f.Rounds d.numeral (10 ^ d.places) rank ↔ f.RoundsTo d.magnitude rank := by
  have hmagnitude : d.magnitude = (d.numeral : ℚ) / (10 ^ d.places : ℕ) := by
    unfold magnitude
    push_cast
    rfl
  rw [hmagnitude]
  exact Format.rounds_iff_roundsTo (Nat.pow_pos (by decide))

theorem roundsTo_nearestRank (hf : f.Proper) (d : Decimal) :
    f.RoundsTo d.magnitude (f.nearestRank d.numeral (10 ^ d.places)) :=
  (d.rounds_iff_roundsTo _).mp (f.rounds_nearestRank hf.precision _ (Nat.pow_pos (by decide)))

/-- Decimals below the overflow have a nearest number, ... -/
theorem exists_nearest (hf : f.Proper) {d : Decimal} (h : |d.value| < f.overflow) :
    ∃ b, d.nearest f = some b := by
  rw [abs_value, ← (roundsTo_nearestRank hf d).lt_infinity_iff hf] at h
  exact ⟨_, dif_pos h⟩

/-- ... and it is the nearest one of all finite encodings, with the sign of the decimal.  There is only one such
number, and for no other decimals is there any. -/
theorem nearest_eq_some_iff (hf : f.Proper) {d : Decimal} {b : Binary f} :
    d.nearest f = some b ↔
      |d.value| < f.overflow ∧ f.Nearest d.value b.bits ∧ b.negative = d.negative := by
  rw [abs_value]
  constructor
  · intro h
    unfold nearest at h
    dsimp only at h
    split at h
    · next hfinite =>
      cases h
      have hrounds := roundsTo_nearestRank hf d
      exact ⟨(hrounds.lt_infinity_iff hf).mp hfinite,
        Binary.nearest_of_roundsTo (b := ⟨_, _, hfinite⟩) hf d.magnitude_nonneg hrounds, rfl⟩
    · cases h
  · rintro ⟨hbelow, hnearest, hsign⟩
    have hvalue : d.value = b.factor * d.magnitude := by rw [value, Binary.factor, hsign]
    rw [hvalue] at hnearest
    have hrounds := Binary.roundsTo_of_nearest hf d.magnitude_nonneg hbelow hnearest
    have hrank := f.nearestRank_eq hf.precision (Nat.pow_pos (by decide))
      ((d.rounds_iff_roundsTo _).mpr hrounds)
    obtain ⟨negative, rank, hfinite⟩ := b
    obtain rfl : negative = d.negative := hsign
    obtain rfl : f.nearestRank d.numeral (10 ^ d.places) = rank := hrank
    exact dif_pos hfinite

end Decimal

/-! ### The two formats -/

namespace Format

/-- The overflow as a difference of two powers, compared in multiples of the smallest magnitude. -/
theorem overflow_eq {f : Format} {m n : Nat}
    (h : f.units (f.infinity - 1) + f.units f.infinity + 2 * 2 ^ n * 2 ^ f.scale =
      2 * 2 ^ m * 2 ^ f.scale) : f.overflow = 2 ^ m - 2 ^ n := by
  have hunits : (f.units (f.infinity - 1) + f.units f.infinity + 2 * 2 ^ n * 2 ^ f.scale : ℚ) =
      2 * 2 ^ m * 2 ^ f.scale := by exact_mod_cast h
  unfold overflow magnitude
  field_simp
  linarith

theorem overflow_single : single.overflow = 2 ^ 128 - 2 ^ 103 := overflow_eq (by decide +kernel)

theorem overflow_double : double.overflow = 2 ^ 1024 - 2 ^ 970 := overflow_eq (by decide +kernel)

end Format

end TextCommand.Number

import Mathlib.Algebra.Order.Field.Rat
import Mathlib.Tactic.FieldSimp
import Mathlib.Tactic.Linarith
import Mathlib.Tactic.Ring
import TextCommand.Proofs.Number.Rounding

/-!
# What the interchange encodings stand for

An interchange encoding is a sign bit, a biased exponent and a fraction.  Exponents that are not all ones are those
of the finite numbers, and the lowest one is that of the subnormal numbers, which have no leading one.  The numbers
of a format are exactly what its finite encodings stand for: a rank is an encoding below the sign bit, and its
units are the value in multiples of the smallest positive number.
-/

namespace TextCommand.Number

attribute [local instance (high)] instPowNat

namespace Format

variable (f : Format)

/-- A fraction of a bit and an exponent of a bit, at least. -/
structure Proper : Prop where
  precision : 2 ≤ f.precision
  exponentBits : 1 ≤ f.exponentBits

theorem proper_single : single.Proper := ⟨by decide, by decide⟩

theorem proper_double : double.Proper := ⟨by decide, by decide⟩

/-! ### The fields of an encoding -/

/-- The bits behind the leading one, which is not encoded. -/
def fractionBits : Nat := f.precision - 1

def bias : Nat := 2 ^ (f.exponentBits - 1) - 1

def signField (bits : Nat) : Nat := bits / 2 ^ (f.exponentBits + f.fractionBits)

def exponentField (bits : Nat) : Nat := bits / 2 ^ f.fractionBits % 2 ^ f.exponentBits

def fractionField (bits : Nat) : Nat := bits % 2 ^ f.fractionBits

/-- Encodings of finite numbers have one bit for the sign, and not all bits of the exponent are ones. -/
structure IsFinite (bits : Nat) : Prop where
  width : bits < 2 ^ (1 + f.exponentBits + f.fractionBits)
  exponent : f.exponentField bits < 2 ^ f.exponentBits - 1

/-- The number that a finite encoding stands for. -/
def value (bits : Nat) : ℚ :=
  (-1) ^ f.signField bits *
    if f.exponentField bits = 0 then
      f.fractionField bits / 2 ^ f.fractionBits * (2 : ℚ) ^ (1 - f.bias : ℤ)
    else
      (1 + f.fractionField bits / 2 ^ f.fractionBits) * (2 : ℚ) ^ (f.exponentField bits - f.bias : ℤ)

/-- The magnitude of a rank. -/
def magnitude (rank : Nat) : ℚ := f.units rank / 2 ^ f.scale

variable {f}

/-- The smallest positive number is a unit in the last place of the lowest exponent. -/
theorem Proper.two_pow_scale (h : f.Proper) : 2 * 2 ^ f.scale = 2 ^ f.bias * 2 ^ f.fractionBits := by
  have hprecision := h.precision
  have hpos : 0 < 2 ^ (f.exponentBits - 1) := Nat.two_pow_pos _
  have hsum : f.scale + 1 = f.bias + f.fractionBits := by
    unfold scale bias fractionBits
    omega
  rw [← Nat.pow_add, ← hsum, Nat.pow_succ, Nat.mul_comm]

/-- A magnitude by its exponent and its fraction. -/
theorem Proper.magnitude_eq (h : f.Proper) (rank : Nat) :
    f.magnitude rank =
      if rank / f.binade = 0 then
        (rank % f.binade : ℕ) / 2 ^ f.fractionBits * (2 : ℚ) ^ (1 - f.bias : ℤ)
      else
        (1 + (rank % f.binade : ℕ) / 2 ^ f.fractionBits) *
          (2 : ℚ) ^ ((rank / f.binade : ℕ) - f.bias : ℤ) := by
  have hscale : (2 : ℚ) * 2 ^ f.scale = 2 ^ f.bias * 2 ^ f.fractionBits := by
    exact_mod_cast h.two_pow_scale
  have hbinade : (f.binade : ℚ) = 2 ^ f.fractionBits := by
    rw [binade, ← fractionBits]
    push_cast
    rfl
  have hinv : (1 : ℚ) / 2 ^ f.scale = 2 / (2 ^ f.bias * 2 ^ f.fractionBits) := by
    rw [← hscale]
    field_simp
  have hshift : ∀ e : Nat, (2 : ℚ) ^ (e - f.bias : ℤ) = 2 ^ e / 2 ^ f.bias := fun e => by
    rw [zpow_sub₀ (by norm_num), zpow_natCast, zpow_natCast]
  have hone : (2 : ℚ) ^ (1 - f.bias : ℤ) = 2 / 2 ^ f.bias := by
    simpa using hshift 1
  unfold magnitude units
  rw [div_eq_mul_one_div, hinv]
  by_cases hsub : rank < f.binade
  · have hdiv : rank / f.binade = 0 := Nat.div_eq_of_lt hsub
    rw [if_pos hsub, if_pos hdiv, Nat.mod_eq_of_lt hsub, hone]
    field_simp
  · have hdiv : rank / f.binade ≠ 0 := (Nat.div_pos (Nat.le_of_not_lt hsub) f.binade_pos).ne'
    obtain ⟨e, he⟩ := Nat.exists_eq_succ_of_ne_zero hdiv
    rw [if_neg hsub, if_neg hdiv, hshift, he, Nat.succ_sub_one]
    push_cast
    rw [hbinade, pow_succ]
    field_simp

end Format

/-! ### Numbers of a format and finite encodings -/

namespace Binary

open Format

variable {f : Format}

/-- The sign, as a factor. -/
def factor (x : Binary f) : ℚ := if x.negative then -1 else 1

def value (x : Binary f) : ℚ := x.factor * f.magnitude x.rank

theorem bits_eq (hf : f.Proper) (x : Binary f) :
    x.bits = x.negative.toNat * (2 ^ f.exponentBits * f.binade) + x.rank := by
  have hprecision := hf.precision
  have hexponent : f.exponentBits + f.precision - 1 = f.exponentBits + (f.precision - 1) := by omega
  rw [bits, hexponent, Nat.pow_add, ← Format.binade]
  cases x.negative <;> simp

theorem rank_lt (x : Binary f) : x.rank < 2 ^ f.exponentBits * f.binade :=
  Nat.lt_of_lt_of_le x.finite (Nat.mul_le_mul_right _ (Nat.sub_le _ _))

theorem rank_div_lt (x : Binary f) : x.rank / f.binade < 2 ^ f.exponentBits - 1 :=
  Nat.div_lt_of_lt_mul (Nat.mul_comm _ f.binade ▸ x.finite)

theorem signField_bits (hf : f.Proper) (x : Binary f) : f.signField x.bits = x.negative.toNat := by
  have hpos : 0 < 2 ^ f.exponentBits * f.binade := Nat.mul_pos (Nat.two_pow_pos _) f.binade_pos
  rw [signField, x.bits_eq hf, fractionBits, Nat.pow_add, ← Format.binade, Nat.add_comm,
    Nat.add_mul_div_right _ _ hpos, Nat.div_eq_of_lt x.rank_lt, Nat.zero_add]

theorem exponentField_bits (hf : f.Proper) (x : Binary f) :
    f.exponentField x.bits = x.rank / f.binade := by
  have hlt := x.rank_div_lt
  rw [exponentField, x.bits_eq hf, fractionBits, ← Format.binade, ← Nat.mul_assoc, Nat.add_comm,
    Nat.add_mul_div_right _ _ f.binade_pos, Nat.add_mul_mod_self_right,
    Nat.mod_eq_of_lt (Nat.lt_of_lt_of_le hlt (Nat.sub_le _ _))]

theorem fractionField_bits (hf : f.Proper) (x : Binary f) :
    f.fractionField x.bits = x.rank % f.binade := by
  rw [fractionField, x.bits_eq hf, fractionBits, ← Format.binade, ← Nat.mul_assoc, Nat.add_comm,
    Nat.add_mul_mod_self_right]

theorem value_bits (hf : f.Proper) (x : Binary f) :
    f.value x.bits = x.value := by
  have hsign : (-1 : ℚ) ^ x.negative.toNat = x.factor := by
    unfold factor
    cases x.negative <;> simp
  rw [Format.value, x.signField_bits hf, x.exponentField_bits hf, x.fractionField_bits hf, hsign,
    value, hf.magnitude_eq]

theorem isFinite_bits (hf : f.Proper) (x : Binary f) : f.IsFinite x.bits where
  width := by
    have hlt := x.rank_lt
    rw [x.bits_eq hf, fractionBits, Nat.pow_add, ← Format.binade, Nat.pow_add, Nat.pow_one,
      Nat.mul_assoc]
    cases x.negative <;> simp <;> omega
  exponent := by
    rw [x.exponentField_bits hf]
    exact x.rank_div_lt

/-- Every finite encoding is that of a number of the format. -/
theorem exists_of_isFinite (hf : f.Proper) {bits : Nat} (h : f.IsFinite bits) :
    ∃ x : Binary f, x.bits = bits := by
  have hwidth := h.width
  rw [fractionBits, Nat.pow_add, ← Format.binade, Nat.pow_add, Nat.pow_one, Nat.mul_assoc] at hwidth
  have hexponent := h.exponent
  rw [exponentField, fractionBits, ← Format.binade, ← Nat.mod_mul_right_div_self,
    Nat.div_lt_iff_lt_mul f.binade_pos, Nat.mul_comm f.binade] at hexponent
  refine ⟨⟨decide (2 ^ f.exponentBits * f.binade ≤ bits), bits % (2 ^ f.exponentBits * f.binade),
    hexponent⟩, ?_⟩
  rw [bits_eq hf]
  generalize 2 ^ f.exponentBits * f.binade = half at *
  by_cases hnegative : half ≤ bits
  · have hmod : bits % half = bits - half := by
      rw [Nat.mod_eq_sub_mod hnegative, Nat.mod_eq_of_lt (by omega)]
    simp only [hnegative, decide_true, Bool.toNat_true, hmod]
    omega
  · have hmod : bits % half = bits := Nat.mod_eq_of_lt (by omega)
    simp only [hnegative, decide_false, Bool.toNat_false, hmod]
    omega

end Binary

end TextCommand.Number

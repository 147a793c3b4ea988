import TextCommand.Number.Decimal

/-!
# Rounding to the nearest rank

The magnitudes of a format grow with their ranks, and each rank is the nearest one to everything between
the midpoints to its neighbours; a midpoint itself belongs to the even rank.  `nearestRank` finds the rank
that a fraction `Rounds` to, and there is no other.
-/

namespace TextCommand.Number

-- powers are the core library's own, whatever else is imported
attribute [local instance (high)] instPowNat

/-- Between two bounds, and on neither of them if `n` is odd. -/
structure Between (n low x high : Nat) : Prop where
  low_le : low ≤ x
  le_high : x ≤ high
  strict : n % 2 = 1 → low < x ∧ x < high

/-- Half a unit below the quotient and half a unit above it are the bounds of what rounds to it. -/
theorem between_roundHalfEven (num : Nat) {den : Nat} (hden : 0 < den) :
    Between (roundHalfEven num den) (2 * (roundHalfEven num den * den)) (2 * num + den)
      (2 * (roundHalfEven num den * den) + 2 * den) := by
  have hdiv := Nat.div_add_mod' num den
  have hmod := Nat.mod_lt num hden
  have hsucc := Nat.add_one_mul (num / den) den
  generalize hq : num / den = q at *
  generalize hr : num % den = r at *
  unfold roundHalfEven
  simp only [hq, hr]
  split
  · -- less than half a unit is left
    constructor <;> omega
  · split
    · -- more than half a unit
      constructor <;> omega
    · -- half a unit, to the even side
      split <;> constructor <;> omega

/-- A quotient below a whole number rounds to at most that number, ... -/
theorem roundHalfEven_le {num den bound : Nat} (hden : 0 < den) (h : num < bound * den) :
    roundHalfEven num den ≤ bound := by
  have hlow := (between_roundHalfEven num hden).low_le
  refine Nat.le_of_not_lt fun hlt => ?_
  have hmul := Nat.mul_le_mul_right den hlt
  rw [Nat.succ_mul] at hmul
  omega

/-- ... and a quotient that reaches a whole number rounds to at least that number. -/
theorem le_roundHalfEven {num den bound : Nat} (hden : 0 < den) (h : bound * den ≤ num) :
    bound ≤ roundHalfEven num den := by
  have hhigh := (between_roundHalfEven num hden).le_high
  refine Nat.le_of_not_lt fun hlt => ?_
  have hmul := Nat.mul_le_mul_right den hlt
  rw [Nat.succ_mul] at hmul
  omega

namespace Format

variable (f : Format)

/-! ### The magnitudes grow -/

theorem binade_pos : 0 < f.binade := Nat.two_pow_pos _

/-- A rank in the binade of the exponent `e`, or at the end of it. -/
theorem units_of_le {e q : Nat} (hlow : e = 0 ∨ f.binade ≤ q) (hhigh : q ≤ 2 * f.binade) :
    f.units (e * f.binade + q) = q * 2 ^ e := by
  have hpos := f.binade_pos
  have hnormal : ∀ {n t : Nat}, t < f.binade →
      f.units ((n + 1) * f.binade + t) = (f.binade + t) * 2 ^ n := by
    intro n t ht
    have hle : f.binade ≤ (n + 1) * f.binade := Nat.le_mul_of_pos_left _ (Nat.succ_pos n)
    rw [units, if_neg (by omega), Nat.add_comm ((n + 1) * f.binade), Nat.add_mul_mod_self_right,
      Nat.add_mul_div_right _ _ hpos, Nat.mod_eq_of_lt ht, Nat.div_eq_of_lt ht, Nat.zero_add,
      Nat.add_sub_cancel]
  rcases Nat.lt_or_ge q f.binade with hq | hq
  · -- below the first binade the spacing is the smallest
    obtain rfl : e = 0 := by omega
    rw [Nat.zero_mul, Nat.zero_add, units, if_pos hq, Nat.pow_zero, Nat.mul_one]
  · obtain ⟨t, rfl⟩ := Nat.exists_eq_add_of_le hq
    have hrank : e * f.binade + (f.binade + t) = (e + 1) * f.binade + t := by
      rw [Nat.add_one_mul, Nat.add_assoc]
    rw [hrank]
    rcases Nat.lt_or_ge t f.binade with ht | ht
    · exact hnormal ht
    · -- the end of a binade is the start of the next one
      obtain rfl : t = f.binade := by omega
      have hnext := hnormal (n := e + 1) hpos
      rw [Nat.add_zero, Nat.add_zero f.binade, Nat.add_one_mul (e + 1)] at hnext
      rw [hnext, Nat.pow_succ, Nat.mul_comm (2 ^ e), ← Nat.mul_assoc, Nat.mul_two]

/-- Every rank lies in a binade. -/
theorem exists_binade (rank : Nat) :
    ∃ e q, rank = e * f.binade + q ∧ (e = 0 ∨ f.binade ≤ q) ∧ q < 2 * f.binade := by
  have hpos := f.binade_pos
  rcases Nat.lt_or_ge rank f.binade with hrank | hrank
  · exact ⟨0, rank, by omega, .inl rfl, by omega⟩
  · have hmod := Nat.mod_lt rank hpos
    have hdiv := Nat.div_add_mod' rank f.binade
    obtain ⟨e, he⟩ := Nat.exists_eq_add_one.mpr (Nat.div_pos hrank hpos)
    rw [he, Nat.add_one_mul] at hdiv
    exact ⟨e, f.binade + rank % f.binade, by omega, .inr (by omega), by omega⟩

theorem units_lt_succ (rank : Nat) : f.units rank < f.units (rank + 1) := by
  obtain ⟨e, q, rfl, hlow, hhigh⟩ := f.exists_binade rank
  rw [Nat.add_assoc, f.units_of_le hlow (by omega), f.units_of_le (by omega) (by omega)]
  exact Nat.mul_lt_mul_of_pos_right (Nat.lt_succ_self q) (Nat.two_pow_pos e)

theorem units_lt {a b : Nat} (h : a < b) : f.units a < f.units b := by
  induction h with
  | refl => exact f.units_lt_succ a
  | step _ ih => exact Nat.lt_trans ih (f.units_lt_succ _)

/-- The next magnitude is at least one spacing further, also from the end of a binade. -/
theorem le_units_succ {e q : Nat} (hlow : e = 0 ∨ f.binade ≤ q) (hhigh : q ≤ 2 * f.binade) :
    (q + 1) * 2 ^ e ≤ f.units (e * f.binade + q + 1) := by
  have hpos := f.binade_pos
  rcases Nat.lt_or_ge q (2 * f.binade) with hq | hq
  · -- inside the binade
    exact Nat.le_of_eq (by rw [Nat.add_assoc, f.units_of_le (by omega) (by omega)])
  · -- at its end the spacing is twice as wide
    obtain rfl : q = 2 * f.binade := by omega
    have hrank : e * f.binade + 2 * f.binade + 1 = (e + 1) * f.binade + (f.binade + 1) := by
      rw [Nat.add_one_mul e]
      omega
    rw [hrank, f.units_of_le (by omega) (by omega), Nat.pow_succ, Nat.mul_comm (2 ^ e),
      ← Nat.mul_assoc]
    exact Nat.mul_le_mul_right _ (by omega)

/-! ### What rounds to a rank -/

/-- The fraction `num / den` is nearest to the magnitude of a rank, or half way to a neighbour and the
rank is even. -/
def Rounds (num den rank : Nat) : Prop :=
  Between rank ((f.units (rank - 1) + f.units rank) * den) (2 * (num * 2 ^ f.scale))
    ((f.units rank + f.units (rank + 1)) * den)

/-- A fraction rounds to no two ranks. -/
theorem Rounds.not_lt {f : Format} {num den a b : Nat} (hden : 0 < den) (ha : f.Rounds num den a)
    (hb : f.Rounds num den b) : ¬ a < b := by
  intro hlt
  have hhigh := ha.le_high
  have hlow := hb.low_le
  obtain rfl | hlt : b = a + 1 ∨ a + 1 < b := by omega
  · -- the midpoint of two neighbours, one of which is odd
    have hodd := ha.strict
    have hodd' := hb.strict
    rw [Nat.add_sub_cancel] at hlow hodd'
    omega
  · -- further apart the midpoints are in between
    have hsum : f.units a + f.units (a + 1) < f.units (b - 1) + f.units b :=
      Nat.add_lt_add (units_lt f (by omega)) (units_lt f hlt)
    have hmul := Nat.mul_lt_mul_of_pos_right hsum hden
    omega

theorem Rounds.eq {f : Format} {num den a b : Nat} (hden : 0 < den) (ha : f.Rounds num den a)
    (hb : f.Rounds num den b) : a = b :=
  Nat.le_antisymm (Nat.le_of_not_lt (hb.not_lt hden ha)) (Nat.le_of_not_lt (ha.not_lt hden hb))

/-! ### The nearest rank -/

/-- The shift that `nearestRank` takes brings a quotient into one binade, or leaves it below the first. -/
theorem shift_spec (hprecision : 2 ≤ f.precision) (num : Nat) {den shift : Nat} (hden : 0 < den)
    (hshift : shift = (num / den).log2 + 1 - f.precision) :
    num < 2 * f.binade * (den * 2 ^ shift) ∧
      (shift = 0 ∨ f.binade * (den * 2 ^ shift) ≤ num) := by
  have hquotient : ∀ n, n * (den * 2 ^ shift) = n * 2 ^ shift * den := fun n => by
    rw [Nat.mul_comm den, Nat.mul_assoc]
  rw [hquotient, hquotient, ← Nat.div_lt_iff_lt_mul hden, ← Nat.le_div_iff_mul_le hden]
  generalize num / den = n at *
  have htwo : 2 * f.binade = 2 ^ f.precision := by
    rw [binade, ← Nat.pow_succ', Nat.succ_eq_add_one, Nat.sub_add_cancel (by omega)]
  refine ⟨?_, ?_⟩
  · -- the shift makes the quotient no longer than the precision
    rw [htwo, ← Nat.pow_add]
    exact Nat.lt_of_lt_of_le Nat.lt_log2_self (Nat.pow_le_pow_right Nat.two_pos (by omega))
  · -- nor shorter, if it is shifted at all
    rcases Nat.eq_zero_or_pos shift with hzero | hpos
    · exact .inl hzero
    · have hn : n ≠ 0 := by
        rintro rfl
        rw [Nat.log2_zero] at hshift
        omega
      have hexponent : f.precision - 1 + shift = n.log2 := by omega
      refine .inr ?_
      rw [binade, ← Nat.pow_add, hexponent]
      exact Nat.log2_self_le hn

/-- With at least two bits of precision a rank is as even as its significand. -/
theorem rank_mod_two (hprecision : 2 ≤ f.precision) (e q : Nat) :
    (e * f.binade + q) % 2 = q % 2 := by
  have hprecision' : f.precision - 1 = f.precision - 2 + 1 := by omega
  rw [binade, hprecision', Nat.pow_succ', Nat.mul_left_comm, Nat.mul_add_mod]

/-- How far below a rank its lower neighbour is: a whole spacing, or less where the rank begins a binade
with a wider spacing. -/
theorem units_pred {e q : Nat} (hlow : e = 0 ∨ f.binade ≤ q) (hhigh : q ≤ 2 * f.binade) :
    (q = 0 ∧ f.units (e * f.binade + q - 1) = 0) ∨
      f.units (e * f.binade + q - 1) + 2 ^ e = q * 2 ^ e ∨
      (0 < e ∧ q = f.binade ∧ f.units (e * f.binade + q - 1) < q * 2 ^ e) := by
  have hpos := f.binade_pos
  rcases Nat.eq_zero_or_pos q with rfl | hq
  · obtain rfl : e = 0 := by omega
    refine .inl ⟨rfl, ?_⟩
    rw [Nat.zero_mul, units, if_pos hpos]
  · obtain ⟨k, rfl⟩ := Nat.exists_eq_add_one.mpr hq
    -- the rank before is in the same binade, or the last one of the binade below
    by_cases hinside : e = 0 ∨ f.binade ≤ k
    · refine .inr (.inl ?_)
      rw [← Nat.add_assoc, Nat.add_sub_cancel, f.units_of_le hinside (by omega), Nat.add_one_mul]
    · refine .inr (.inr ⟨by omega, by omega, ?_⟩)
      rw [← f.units_of_le hlow hhigh]
      exact f.units_lt (by omega)

/-- What rounds to a significand in units of a binade's spacing rounds to the rank of that significand.  At
the start of a binade the spacing below is narrower, and what lies there is not in this binade. -/
theorem rounds_of_between (hprecision : 2 ≤ f.precision) {num den e q step : Nat} (hden : 0 < den)
    (hstep : step = den * 2 ^ e) (hlow : e = 0 ∨ f.binade ≤ q) (hhigh : q ≤ 2 * f.binade)
    (hstart : e = 0 ∨ f.binade * step ≤ num * 2 ^ f.scale)
    (h : Between q (2 * (q * step)) (2 * (num * 2 ^ f.scale) + step) (2 * (q * step) + 2 * step)) :
    f.Rounds num den (e * f.binade + q) := by
  have hmul : ∀ n, n * 2 ^ e * den = n * step := fun n => by
    rw [hstep, Nat.mul_assoc, Nat.mul_comm den]
  have hunits : f.units (e * f.binade + q) * den = q * step := by
    rw [f.units_of_le hlow hhigh, hmul]
  have hnext : q * step + step ≤ f.units (e * f.binade + q + 1) * den := by
    rw [← Nat.add_one_mul, ← hmul]
    exact Nat.mul_le_mul_right den (f.le_units_succ hlow hhigh)
  have hpred : (q = 0 ∧ f.units (e * f.binade + q - 1) * den = 0) ∨
      f.units (e * f.binade + q - 1) * den + step = q * step ∨
      (q * step ≤ num * 2 ^ f.scale ∧ f.units (e * f.binade + q - 1) * den < q * step) := by
    refine (f.units_pred hlow hhigh).imp ?_ (Or.imp ?_ ?_)
    · rintro ⟨hzero, hunits⟩
      exact ⟨hzero, by rw [hunits, Nat.zero_mul]⟩
    · intro hunits
      rw [← hmul, ← hunits, Nat.add_mul, hstep, Nat.mul_comm den]
    · rintro ⟨hexponent, hbinade, hunits⟩
      refine ⟨?_, ?_⟩
      · rw [hbinade]
        exact hstart.resolve_left (by omega)
      · rw [← hmul]
        exact Nat.mul_lt_mul_of_pos_right hunits hden
  obtain ⟨hbelow, habove, hstrict⟩ := h
  rw [Rounds, Nat.add_mul, Nat.add_mul, hunits]
  generalize num * 2 ^ f.scale = scaled at *
  constructor
  · rcases hpred with ⟨rfl, hzero⟩ | hunits | ⟨hreached, hunits⟩ <;> omega
  · omega
  · intro hodd
    rw [f.rank_mod_two hprecision] at hodd
    have hsides := hstrict hodd
    rcases hpred with ⟨rfl, hzero⟩ | hunits | ⟨hreached, hunits⟩ <;> omega

/-- The rank found is the one that the fraction rounds to. -/
theorem rounds_nearestRank (hprecision : 2 ≤ f.precision) (num : Nat) {den : Nat} (hden : 0 < den) :
    f.Rounds num den (f.nearestRank num den) := by
  obtain ⟨e, he⟩ : ∃ e, e = (num * 2 ^ f.scale / den).log2 + 1 - f.precision := ⟨_, rfl⟩
  obtain ⟨step, hstep⟩ : ∃ step, step = den * 2 ^ e := ⟨_, rfl⟩
  have hpos : 0 < step := hstep ▸ Nat.mul_pos hden (Nat.two_pow_pos e)
  obtain ⟨hend, hstart⟩ := f.shift_spec hprecision (num * 2 ^ f.scale) hden he
  rw [← hstep] at hend hstart
  have hrank : f.nearestRank num den =
      e * f.binade + roundHalfEven (num * 2 ^ f.scale) step := by
    rw [hstep, he, nearestRank]
  rw [hrank]
  exact f.rounds_of_between hprecision hden hstep (hstart.imp_right (le_roundHalfEven hpos))
    (roundHalfEven_le hpos hend) hstart (between_roundHalfEven _ hpos)

theorem nearestRank_eq (hprecision : 2 ≤ f.precision) {num den rank : Nat} (hden : 0 < den)
    (h : f.Rounds num den rank) : f.nearestRank num den = rank :=
  (f.rounds_nearestRank hprecision num hden).eq hden h

end Format

end TextCommand.Number

import Mathlib.Algebra.Group.Nat.Defs
import TextCommand.Proofs.Number.Decimal
import TextCommand.Proofs.Number.Encoding

/-!
# Numbers read back from their shortest text

What a basin holds rounds to its rank.  The multiple of a power of ten that `shortest` finds is one of the
numbers in the basin, so its text, read as a decimal and rounded, gives the number back; and no decimal with
fewer digits does.
-/

namespace TextCommand.Number

attribute [local instance (high)] instPowNat

/-- Both bounds and the number between them may be multiplied. -/
theorem Between.mul_iff {n low x high k : Nat} (hk : 0 < k) :
    Between n (low * k) (x * k) (high * k) ↔ Between n low x high := by
  have hle : ∀ a b, a * k ≤ b * k ↔ a ≤ b := fun a b => Nat.mul_le_mul_right_iff hk
  have hlt : ∀ a b, a * k < b * k ↔ a < b := fun a b => Nat.mul_lt_mul_right hk
  constructor
  · rintro ⟨hlow, hhigh, hstrict⟩
    simp only [hle, hlt] at hlow hhigh hstrict
    exact ⟨hlow, hhigh, hstrict⟩
  · rintro ⟨hlow, hhigh, hstrict⟩
    constructor <;> simpa only [hle, hlt]

/-! ### Multiples in a basin -/

namespace Basin

variable {b : Basin}

theorem holds_iff {n : Nat} :
    b.holds n = true ↔ b.low ≤ n ∧ n ≤ b.high ∧ (b.closed = false → b.low < n ∧ n < b.high) := by
  unfold holds
  cases b.closed
  · simp only [Bool.false_eq_true, if_false, Bool.and_eq_true, decide_eq_true_eq]
    exact ⟨fun ⟨hlow, hhigh⟩ => ⟨Nat.le_of_lt hlow, Nat.le_of_lt hhigh, fun _ => ⟨hlow, hhigh⟩⟩,
      fun ⟨_, _, hstrict⟩ => hstrict trivial⟩
  · simp

/-- A basin has no gaps. -/
theorem holds_of_le {x y z : Nat} (hx : b.holds x = true) (hz : b.holds z = true) (hxy : x ≤ y)
    (hyz : y ≤ z) : b.holds y = true := by
  obtain ⟨hlow, -, hlow'⟩ := holds_iff.mp hx
  obtain ⟨-, hhigh, hhigh'⟩ := holds_iff.mp hz
  refine holds_iff.mpr ⟨by omega, by omega, fun hopen => ?_⟩
  exact ⟨Nat.lt_of_lt_of_le (hlow' hopen).1 hxy, Nat.lt_of_le_of_lt hyz (hhigh' hopen).2⟩

theorem holds_of_multiple? {step n : Nat} (h : b.multiple? step = some n) :
    b.holds (n * step) = true := by
  unfold multiple? at h
  dsimp only at h
  split at h
  · next hbelow =>
    split at h
    · next hup =>
      cases h
      exact (Bool.and_eq_true_iff.mp hup).1
    · cases h
      exact hbelow
  · split at h
    · next hup =>
      cases h
      exact hup
    · cases h

/-- The two multiples next to the centre are the only ones that need to be tried. -/
theorem not_holds_of_multiple? {step : Nat} (hstep : 0 < step) (hcentre : b.holds b.centre = true)
    (h : b.multiple? step = none) (m : Nat) : b.holds (m * step) = false := by
  rw [Bool.eq_false_iff]
  intro hm
  unfold multiple? at h
  dsimp only at h
  split at h
  · split at h <;> cases h
  · next hbelow =>
    split at h
    · cases h
    · next hup =>
      rcases Nat.lt_or_ge (b.centre / step) m with hlt | hge
      · have habove : b.centre < (b.centre / step + 1) * step :=
          Nat.lt_mul_of_div_lt (Nat.lt_succ_self _) hstep
        exact hup (holds_of_le hcentre hm (Nat.le_of_lt habove) (Nat.mul_le_mul_right step hlt))
      · -- a multiple below it
        exact hbelow (holds_of_le hm hcentre (Nat.mul_le_mul_right step hge)
          (Nat.div_mul_le_self _ _))

theorem holds_coarsest (hcentre : b.holds b.centre = true) (power : Nat) :
    b.holds ((b.coarsest power).1 * 10 ^ (b.coarsest power).2) = true := by
  induction power with
  | zero => simpa [coarsest] using hcentre
  | succ power ih =>
    rw [coarsest]
    split
    · next hmultiple => exact holds_of_multiple? hmultiple
    · exact ih

/-- No coarser power of ten has a multiple in the basin. -/
theorem le_coarsest (hcentre : b.holds b.centre = true) {power k m : Nat} (hk : k ≤ power)
    (hm : b.holds (m * 10 ^ k) = true) : k ≤ (b.coarsest power).2 := by
  induction power with
  | zero => omega
  | succ power ih =>
    rw [coarsest]
    split
    · exact hk
    · -- it has none, so `k` is smaller
      next hnone =>
      rcases Nat.eq_or_lt_of_le hk with rfl | hlt
      · rw [not_holds_of_multiple? (Nat.pow_pos (by decide)) hcentre hnone] at hm
        cases hm
      · exact ih (Nat.le_of_lt_succ hlt)

end Basin

namespace Format

variable (f : Format) {rank : Nat}

/-! ### The basin of a rank -/

theorem holds_basin_iff {n : Nat} :
    (f.basin rank).holds n = true ↔ Between rank (f.basin rank).low n (f.basin rank).high := by
  have hclosed : (f.basin rank).closed = false ↔ rank % 2 = 1 := by
    simp only [basin, decide_eq_false_iff_not]
    omega
  rw [Basin.holds_iff, hclosed]
  exact ⟨fun ⟨hlow, hhigh, hstrict⟩ => ⟨hlow, hhigh, hstrict⟩,
    fun ⟨hlow, hhigh, hstrict⟩ => ⟨hlow, hhigh, hstrict⟩⟩

theorem holds_centre (hrank : 0 < rank) : (f.basin rank).holds (f.basin rank).centre = true := by
  have hunit : 0 < 5 ^ f.decimalPlaces := Nat.pow_pos (by decide)
  have hbelow : f.units (rank - 1) < f.units rank := f.units_lt (by omega)
  have habove := f.units_lt_succ rank
  rw [holds_basin_iff]
  refine (Between.mul_iff hunit).mpr ?_
  constructor <;> omega

/-- A fraction, measured in the units of the basin. -/
theorem rounds_iff_between {num den : Nat} :
    f.Rounds num den rank ↔ Between rank ((f.basin rank).low * den) (num * 10 ^ f.decimalPlaces)
      ((f.basin rank).high * den) := by
  have hunit : 0 < 5 ^ f.decimalPlaces := Nat.pow_pos (by decide)
  have hten : num * 10 ^ f.decimalPlaces = 2 * (num * 2 ^ f.scale) * 5 ^ f.decimalPlaces := by
    have hfactor : 10 ^ f.decimalPlaces = 2 ^ f.decimalPlaces * 5 ^ f.decimalPlaces :=
      Nat.mul_pow 2 5 _
    rw [hfactor, decimalPlaces, Nat.pow_succ 2]
    ac_rfl
  have hbound : ∀ a, a * 5 ^ f.decimalPlaces * den = a * den * 5 ^ f.decimalPlaces :=
    fun a => Nat.mul_right_comm _ _ _
  rw [Rounds, ← Between.mul_iff hunit, hten]
  simp only [basin, hbound]

theorem rounds_iff_holds {num den n : Nat} (hden : 0 < den)
    (hvalue : num * 10 ^ f.decimalPlaces = n * den) :
    f.Rounds num den rank ↔ (f.basin rank).holds n = true := by
  rw [rounds_iff_between, hvalue, Between.mul_iff hden, holds_basin_iff]

theorem holds_shortest (hrank : 0 < rank) :
    (f.basin rank).holds ((f.shortest rank).1 * 10 ^ (f.shortest rank).2) = true :=
  Basin.holds_coarsest (f.holds_centre hrank) _

/-! ### No decimal is shorter -/

theorem units_succ_le (hrank : 0 < rank) : f.units (rank + 1) ≤ 2 * f.units rank := by
  obtain ⟨e, q, rfl, hlow, hhigh⟩ := f.exists_binade rank
  have hq : 0 < q := by
    have hpos := f.binade_pos
    refine Nat.pos_of_ne_zero fun hzero => ?_
    obtain rfl : e = 0 := by omega
    omega
  rw [Nat.add_assoc, f.units_of_le hlow (by omega), f.units_of_le (by omega) (by omega),
    ← Nat.mul_assoc]
  exact Nat.mul_le_mul_right _ (by omega)

/-- The search begins with a power of ten that is itself above the basin. -/
theorem high_lt_start (hrank : 0 < rank) :
    (f.basin rank).high < 10 ^ ((f.basin rank).centre.log2 / 3 + 1 + 1) := by
  have hcentre : (f.basin rank).high ≤ 2 * (f.basin rank).centre := by
    have hnext := f.units_succ_le hrank
    simp only [basin, ← Nat.mul_assoc]
    exact Nat.mul_le_mul_right _ (by omega)
  generalize (f.basin rank).centre = centre at *
  have height : centre < 8 ^ (centre.log2 / 3 + 1) := by
    have hpow : 8 ^ (centre.log2 / 3 + 1) = 2 ^ (3 * (centre.log2 / 3 + 1)) :=
      (Nat.pow_mul 2 3 _).symm
    rw [hpow]
    exact Nat.lt_of_lt_of_le Nat.lt_log2_self (Nat.pow_le_pow_right Nat.two_pos (by omega))
  have hten : 8 ^ (centre.log2 / 3 + 1) ≤ 10 ^ (centre.log2 / 3 + 1) :=
    Nat.pow_le_pow_left (by decide) _
  rw [Nat.pow_succ 10]
  omega

/-- The power of ten that is found is the coarsest with a multiple in the basin. -/
theorem le_shortest (hrank : 0 < rank) {m k : Nat} (h : (f.basin rank).holds (m * 10 ^ k) = true) :
    k ≤ (f.shortest rank).2 := by
  refine Basin.le_coarsest (f.holds_centre hrank) ?_ h
  obtain ⟨hlow, hhigh, -⟩ := Basin.holds_iff.mp h
  have hpos : 0 < (f.basin rank).low := by
    have hbelow : f.units (rank - 1) < f.units rank := f.units_lt (by omega)
    exact Nat.mul_pos (by omega) (Nat.pow_pos (by decide))
  have hm : 0 < m := by
    refine Nat.pos_of_ne_zero ?_
    rintro rfl
    omega
  have hstart := f.high_lt_start hrank
  have hle : 10 ^ k ≤ m * 10 ^ k := Nat.le_mul_of_pos_left _ hm
  have hlt : 10 ^ k < 10 ^ ((f.basin rank).centre.log2 / 3 + 1 + 1) :=
    Nat.lt_of_le_of_lt hle (Nat.lt_of_le_of_lt hhigh hstart)
  exact Nat.le_of_lt_succ ((Nat.pow_lt_pow_iff_right (by decide)).mp hlt)

/-- Between a fraction that rounds to the rank and a number in its basin there are only numbers in the
basin. -/
theorem holds_of_rounds {num den n z : Nat} (hden : 0 < den) (h : f.Rounds num den rank)
    (hz : (f.basin rank).holds z = true) (hle : num * 10 ^ f.decimalPlaces ≤ n * den) (hnz : n ≤ z) :
    (f.basin rank).holds n = true := by
  obtain ⟨hlow, -, hstrict⟩ := f.rounds_iff_between.mp h
  rw [f.holds_basin_iff] at hz ⊢
  refine ⟨Nat.le_of_mul_le_mul_right (Nat.le_trans hlow hle) hden, Nat.le_trans hnz hz.le_high,
    fun hodd => ⟨?_, Nat.lt_of_le_of_lt hnz (hz.strict hodd).2⟩⟩
  exact Nat.lt_of_mul_lt_mul_right (Nat.lt_of_lt_of_le (hstrict hodd).1 hle)

/-- Whatever digits, followed by whatever zeros and with a point wherever, are read as a number other than
zero, its shortest numeral has no more of them. -/
theorem shortest_length_le (hrank : 0 < rank) {m zeros places : Nat}
    (h : f.Rounds (m * 10 ^ zeros) (10 ^ places) rank) :
    (Nat.toDigits 10 (f.shortest rank).1).length ≤ (Nat.toDigits 10 m).length := by
  refine Nat.le_of_not_lt fun hlonger => ?_
  have hholds := f.holds_shortest hrank
  have hcoarsest := fun m k => f.le_shortest hrank (m := m) (k := k)
  generalize f.shortest rank = found at *
  obtain ⟨n, power⟩ := found
  dsimp only at hlonger hholds hcoarsest
  have hden : 0 < 10 ^ places := Nat.pow_pos (by decide)
  obtain ⟨length, hlength⟩ : ∃ length, length = (Nat.toDigits 10 m).length := ⟨_, rfl⟩
  have hpos : 0 < length := hlength ▸ List.length_pos_iff.mpr Nat.toDigits_ne_nil
  have hm : m < 10 ^ length :=
    (Nat.length_toDigits_le_iff (by decide) hpos).mp (Nat.le_of_eq hlength.symm)
  have hn : 10 ^ length ≤ n := by
    refine Nat.le_of_not_lt fun hn => ?_
    have hle := (Nat.length_toDigits_le_iff (by decide) hpos).mpr hn
    omega
  have hround : 1 * 10 ^ (length + power) ≤ n * 10 ^ power := by
    rw [Nat.one_mul, Nat.pow_add]
    exact Nat.mul_le_mul_right _ hn
  have hvalue : m * 10 ^ zeros * 10 ^ f.decimalPlaces = m * 10 ^ (zeros + f.decimalPlaces) := by
    rw [Nat.mul_assoc, ← Nat.pow_add]
  rcases Nat.lt_or_ge (10 ^ (length + power) * 10 ^ places) (m * 10 ^ (zeros + f.decimalPlaces))
    with habove | hbelow
  · -- so few digits reach that far only with more zeros than the numeral that was found
    have hexponent : length + power + places < length + (zeros + f.decimalPlaces) := by
      refine (Nat.pow_lt_pow_iff_right (a := 10) (by decide)).mp ?_
      rw [Nat.pow_add, Nat.pow_add 10 length (_ + _)]
      exact Nat.lt_trans habove (Nat.mul_lt_mul_of_pos_right hm (Nat.pow_pos (by decide)))
    have hsplit : m * 10 ^ zeros * 10 ^ f.decimalPlaces =
        m * 10 ^ (zeros + f.decimalPlaces - places) * 10 ^ places := by
      rw [hvalue, Nat.mul_assoc, ← Nat.pow_add]
      congr 2
      omega
    have hle := hcoarsest _ _ ((f.rounds_iff_holds hden hsplit).mp h)
    omega
  · -- otherwise a round number lies between the two, and it has even more zeros
    rw [← hvalue, ← Nat.one_mul (10 ^ (length + power))] at hbelow
    have hle := hcoarsest _ _ (f.holds_of_rounds hden h hholds hbelow hround)
    omega

/-! ### Numbers and their texts -/

theorem rounds_zero : f.Rounds 0 1 0 := by
  have hzero : f.units 0 = 0 := if_pos f.binade_pos
  rw [Rounds, Nat.zero_sub, hzero]
  constructor <;> omega

/-- The digits of a magnitude are those of a fraction that rounds to it, and no fewer digits would do. -/
theorem exists_positional (rank : Nat) :
    ∃ m zeros places, magnitudeText f rank = positional (m * 10 ^ zeros) places ∧
      f.Rounds (m * 10 ^ zeros) (10 ^ places) rank ∧
      ∀ m' zeros' places', f.Rounds (m' * 10 ^ zeros') (10 ^ places') rank →
        (Nat.toDigits 10 m).length ≤ (Nat.toDigits 10 m').length := by
  unfold magnitudeText
  by_cases hrank : rank = 0
  · rw [if_pos hrank, hrank]
    exact ⟨0, 0, 0, rfl, f.rounds_zero, fun m' _ _ _ => List.length_pos_iff.mpr Nat.toDigits_ne_nil⟩
  · have hpos := Nat.pos_of_ne_zero hrank
    have hholds := f.holds_shortest hpos
    have hshortest : ∀ m' zeros' places', f.Rounds (m' * 10 ^ zeros') (10 ^ places') rank →
        (Nat.toDigits 10 (f.shortest rank).1).length ≤ (Nat.toDigits 10 m').length :=
      fun _ _ _ => f.shortest_length_le hpos
    rw [if_neg hrank]
    dsimp only
    generalize f.shortest rank = found at hholds hshortest
    obtain ⟨numeral, power⟩ := found
    split
    · next hplaces =>
      refine ⟨numeral, _, 0, rfl, ?_, hshortest⟩
      refine (f.rounds_iff_holds (n := numeral * 10 ^ power) (by decide) ?_).mpr hholds
      rw [Nat.mul_assoc, ← Nat.pow_add, Nat.sub_add_cancel hplaces, Nat.pow_zero, Nat.mul_one]
    · refine ⟨numeral, 0, _, by rw [Nat.pow_zero, Nat.mul_one], ?_, hshortest⟩
      refine (f.rounds_iff_holds (Nat.pow_pos (by decide)) ?_).mpr hholds
      rw [Nat.pow_zero, Nat.mul_one, Nat.mul_assoc, ← Nat.pow_add]
      congr 2
      omega

end Format

section Texts

variable {f : Format} (hprecision : 2 ≤ f.precision) (x : Binary f)
include hprecision

/-- A decimal whose nearest number that is. -/
theorem rounds_of_nearest {d : Decimal} (h : d.nearest f = some x) :
    f.Rounds d.numeral (10 ^ d.places) x.rank := by
  have hden : 0 < 10 ^ d.places := Nat.pow_pos (by decide)
  have hrounds := f.rounds_nearestRank hprecision d.numeral hden
  unfold Decimal.nearest at h
  dsimp only at h
  split at h
  · cases h
    exact hrounds
  · cases h

/-- The text of a number is that of a decimal which rounds to it, with the fewest digits, zeros at the end
not counted, of all that do. -/
theorem readDecimal?_toText :
    ∃ m zeros places, readDecimal? x.toText = some ⟨x.negative, m * 10 ^ zeros, places⟩ ∧
      Decimal.nearest f ⟨x.negative, m * 10 ^ zeros, places⟩ = some x ∧
      ∀ m' zeros' places', Decimal.nearest f ⟨x.negative, m' * 10 ^ zeros', places'⟩ = some x →
        (Nat.toDigits 10 m).length ≤ (Nat.toDigits 10 m').length := by
  obtain ⟨m, zeros, places, htext, hrounds, hshortest⟩ := f.exists_positional x.rank
  refine ⟨m, zeros, places, ?_, ?_, ?_⟩
  · rw [Binary.toText, htext, readDecimal?_positional]
  · have hrank := f.nearestRank_eq hprecision (Nat.pow_pos (by decide)) hrounds
    simp only [Decimal.nearest, hrank, x.finite, dite_true]
  · intro m' zeros' places' hnearest
    exact hshortest m' zeros' places' (rounds_of_nearest hprecision x hnearest)

/-- **Numbers are read back.** -/
theorem readBinary?_toText : readBinary? f x.toText = some x := by
  obtain ⟨m, zeros, places, hread, hnearest, -⟩ := readDecimal?_toText hprecision x
  rw [readBinary?, hread, Option.bind_some, hnearest]

/-- The text of a number has neither an exponent nor a point without a digit behind it. -/
theorem isDecimalText_toText : IsDecimalText x.toText.toList := by
  rw [← isSome_readDecimal?_iff]
  obtain ⟨d, hd, -⟩ := Option.bind_eq_some_iff.mp (readBinary?_toText hprecision x)
  rw [hd]
  rfl

end Texts

example : (⟨true, 0, by decide⟩ : Double).toText = "-0" := rfl

/-- Every pattern of 64 bits whose exponent is not the highest one is that of a number. -/
theorem exists_bits {bits : Nat} (hbits : bits < 2 ^ 64)
    (hexponent : bits / 2 ^ 52 % 2 ^ 11 < 2 ^ 11 - 1) : ∃ x : Double, x.bits = bits :=
  Binary.exists_of_isFinite Format.proper_double ⟨hbits, hexponent⟩

end TextCommand.Number

namespace TextCommand

theorem Reader.readDouble_toText {gap rest : List Char} (h : Separates gap rest) (passed : List Char)
    (x : Number.Double) :
    (Reader.mk passed (x.toText.toList ++ (gap ++ rest))).readDouble =
      ⟨.ok x, ⟨passed ++ (x.toText.toList ++ gap), rest⟩⟩ := by
  obtain ⟨hne, hbare⟩ := (Number.isDecimalText_toText (f := .double) (by decide) x).bare
  exact Reader.readScalar_bare h passed (fun hnil => hne (by rw [hnil]; rfl)) hbare
    (Number.readBinary?_toText (by decide) x)

end TextCommand

import TextCommand.Number.Integer

/-!
# Integers read back

The decimal text of an integer is an optional minus and digits; reading it gives the integer, and a
fixed width is no obstacle to a number that has that width.  Addition within that width is exact up
to its ends.
-/

namespace TextCommand.Number

/-- The characters of a decimal text. -/
theorem toList_toString (n : Int) :
    (toString n).toList =
      if n < 0 then '-' :: Nat.toDigits 10 n.natAbs else Nat.toDigits 10 n.natAbs := by
  cases n with
  | ofNat m =>
    have hpos : ¬ Int.ofNat m < 0 := Int.not_lt.mpr (Int.natCast_nonneg m)
    rw [if_neg hpos]
    exact Nat.toList_repr
  | negSucc m =>
    rw [if_pos (Int.negSucc_lt_zero m)]
    show ("-" ++ (m + 1).repr).toList = _
    rw [String.toList_append, Nat.toList_repr]
    rfl

theorem digitsValue_toDigits (n : Nat) : digitsValue (Nat.toDigits 10 n) = n :=
  Nat.ofDigitChars_ten_toDigits

theorem all_isDigit_toDigits (n : Nat) : (Nat.toDigits 10 n).all Char.isDigit = true :=
  List.all_eq_true.mpr fun _ hc => Nat.isDigit_of_mem_toDigits (by decide) (by decide) hc

/-- A text that does not begin with a sign has none to split off. -/
theorem splitSign_of_unsigned {cs : List Char} (h : ∀ c ∈ cs.head?, c ≠ '-' ∧ c ≠ '+') :
    splitSign cs = (false, cs) := by
  unfold splitSign
  split
  · exact absurd rfl (h '-' rfl).1
  · exact absurd rfl (h '+' rfl).2
  · rfl

theorem ne_sign_of_isDigit {c : Char} (h : c.isDigit = true) : c ≠ '-' ∧ c ≠ '+' := by
  constructor
  · rintro rfl
    cases h
  · rintro rfl
    cases h

/-- A text of digits has no sign to split off. -/
theorem splitSign_of_isDigit {cs : List Char} (h : cs.all Char.isDigit = true) :
    splitSign cs = (false, cs) :=
  splitSign_of_unsigned fun c hc =>
    ne_sign_of_isDigit (List.all_eq_true.mp h c (List.mem_of_mem_head? hc))

theorem readInteger?_toString (n : Int) : readInteger? (toString n) = some n := by
  have hne : (Nat.toDigits 10 n.natAbs).isEmpty = false := by
    simp [Nat.toDigits_ne_nil]
  have hdigits := all_isDigit_toDigits n.natAbs
  have hvalue := digitsValue_toDigits n.natAbs
  unfold readInteger?
  rw [toList_toString]
  by_cases hn : n < 0
  · rw [if_pos hn]
    simp only [splitSign, hne, hdigits, Bool.not_false, Bool.and_self, if_true, signed, hvalue]
    congr 1
    omega
  · rw [if_neg hn, splitSign_of_isDigit hdigits]
    simp only [hne, hdigits, Bool.not_false, Bool.and_self, if_true, signed, hvalue]
    congr 1
    simp
    omega

theorem readInt32?_toString (n : Int32) : readInt32? (toString n.toInt) = some n := by
  simp only [readInt32?, readInteger?_toString, Option.bind_some, Int32.ofInt_toInt]
  exact if_pos ⟨n.minValue_le_toInt, n.toInt_le⟩

theorem readInt64?_toString (n : Int64) : readInt64? (toString n.toInt) = some n := by
  simp only [readInt64?, readInteger?_toString, Option.bind_some, Int64.ofInt_toInt]
  exact if_pos ⟨n.minValue_le_toInt, n.toInt_le⟩

/-- The sum in exact arithmetic, held at the ends of the range. -/
theorem toInt_clampedAdd (a b : Int32) :
    (clampedAdd a b).toInt = max (-2147483648) (min 2147483647 (a.toInt + b.toInt)) := by
  have hmin : Int32.minValue.toInt = -2147483648 := rfl
  have hmax : Int32.maxValue.toInt = 2147483647 := rfl
  rw [clampedAdd, hmin, hmax]
  exact Int32.toInt_ofInt_of_le (by omega) (by omega)

end TextCommand.Number

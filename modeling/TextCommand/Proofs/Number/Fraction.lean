import TextCommand.Proofs.Number.Decimal
import TextCommand.Proofs.Number.Nearest
import TextCommand.Proofs.Number.Numeral

/-!
# Decimals and their values

Which fraction each text of the grammar of decimals is.  Behind the point, digits count in negative powers of ten.
What is read from such a text has that value and the sign of the text.
-/

namespace TextCommand.Number

attribute [local instance (high)] instPowNat

/-- The texts that are decimals, and which fractions they are. -/
inductive DecimalText : List Char → ℚ → Prop
  | integer {cs : List Char} {n : Int} (h : IntegerText cs n) : DecimalText cs n
  | point (sign : Sign) {whole fraction : List Char} (hwhole : ∀ c ∈ whole, IsDigit c)
      (hfraction : IsNumeral fraction) :
      DecimalText (sign.text ++ (whole ++ '.' :: fraction))
        (sign.factor * (placeValue whole + placeValue fraction / 10 ^ fraction.length))

theorem placeValue_append (front back : List Char) :
    placeValue (front ++ back) = placeValue front * 10 ^ back.length + placeValue back := by
  rw [← digitsValue_eq, digitsValue, List.foldl_append, foldl_digits, ← digitsValue, digitsValue_eq]

theorem splitSign_fst_iff (cs : List Char) : (splitSign cs).1 = true ↔ cs.head? = some '-' := by
  unfold splitSign
  split
  · simp
  · simp
  · next hminus _ =>
    cases cs with
    | nil => simp
    | cons c cs =>
      have hc : c ≠ '-' := by
        rintro rfl
        exact hminus cs rfl
      simp [hc]

/-! ### Values -/

theorem Decimal.value_mk (sign : Sign) (numeral places : Nat) :
    (Decimal.mk sign.negative numeral places).value = sign.factor * (numeral / 10 ^ places) := by
  cases sign <;> simp [value, magnitude, Sign.negative, Sign.factor]

/-- A decimal text is read, and what is read has its value. -/
theorem DecimalText.exists_read {s : String} {x : ℚ} (h : DecimalText s.toList x) :
    ∃ d, readDecimal? s = some d ∧ d.value = x := by
  generalize hs : s.toList = cs at h
  have hdigit : ∀ {digits : List Char}, (∀ c ∈ digits, IsDigit c) → ∀ c ∈ digits, c.isDigit = true :=
    fun hdigits c hc => isDigit_iff.mpr (hdigits c hc)
  cases h with
  | integer h =>
    obtain ⟨sign, hdigits⟩ := h
    next digits =>
    have htext : s.toList = sign.text ++ withPoint digits [] := hs
    rw [readDecimal?_of_withPoint sign (hdigit hdigits.isDigit) (List.forall_mem_nil _)
      (fun hnil => hdigits.ne_nil hnil.1) htext]
    refine ⟨_, rfl, ?_⟩
    rw [Decimal.value_mk, List.append_nil, digitsValue_eq]
    simp
  | point sign hwhole hfraction =>
    next whole fraction =>
    have htext : s.toList = sign.text ++ withPoint whole fraction := by
      rw [hs, withPoint, if_neg hfraction.ne_nil]
    rw [readDecimal?_of_withPoint sign (hdigit hwhole) (hdigit hfraction.isDigit)
      (fun hnil => hfraction.ne_nil hnil.2) htext]
    refine ⟨_, rfl, ?_⟩
    rw [Decimal.value_mk, digitsValue_eq, placeValue_append]
    push_cast
    field_simp

/-- The texts of the grammar are those that have a value. -/
theorem isDecimalText_iff {cs : List Char} : IsDecimalText cs ↔ ∃ x, DecimalText cs x := by
  constructor
  · rintro ⟨hsign, hwhole, hpoint, hne, hfraction⟩
    obtain ⟨sign, rfl⟩ := Sign.exists_text hsign
    obtain rfl | rfl := hpoint
    · -- without a point all digits stand in front of it
      refine ⟨_, .integer (.signed sign ⟨List.append_ne_nil_of_right_ne_nil _ hne, fun c hc => ?_⟩)⟩
      exact isDigit_iff.mp (List.forall_mem_append.mpr ⟨hwhole, hfraction⟩ c hc)
    · exact ⟨_, .point sign (fun c hc => isDigit_iff.mp (hwhole c hc))
        ⟨hne, fun c hc => isDigit_iff.mp (hfraction c hc)⟩⟩
  · rintro ⟨x, h⟩
    rw [← String.toList_ofList (l := cs)] at h ⊢
    obtain ⟨d, hd, -⟩ := h.exists_read
    rw [← isSome_readDecimal?_iff, hd]
    rfl

/-- What is read is the value of the text, ... -/
theorem decimalText_iff {s : String} {x : ℚ} :
    DecimalText s.toList x ↔ ∃ d, readDecimal? s = some d ∧ d.value = x := by
  constructor
  · exact DecimalText.exists_read
  · rintro ⟨d, hd, rfl⟩
    have htext : IsDecimalText s.toList := by
      rw [← isSome_readDecimal?_iff, hd]
      rfl
    obtain ⟨x, hx⟩ := isDecimalText_iff.mp htext
    obtain ⟨d', hd', rfl⟩ := hx.exists_read
    obtain rfl : d = d' := Option.some.inj (hd.symm.trans hd')
    exact hx

/-- ... so no text has two, ... -/
theorem DecimalText.unique {cs : List Char} {x y : ℚ} (hx : DecimalText cs x)
    (hy : DecimalText cs y) : x = y := by
  rw [← String.toList_ofList (l := cs), decimalText_iff] at hx hy
  obtain ⟨d, hd, rfl⟩ := hx
  obtain ⟨d', hd', rfl⟩ := hy
  rw [Option.some.inj (hd.symm.trans hd')]

/-- ... and has the sign of the text, also where the value is zero. -/
theorem negative_of_readDecimal? {s : String} {d : Decimal} (h : readDecimal? s = some d) :
    d.negative = true ↔ s.toList.head? = some '-' := by
  obtain ⟨parts, -, rfl⟩ := Option.map_eq_some_iff.mp h
  exact splitSign_fst_iff s.toList

/-! ### Numbers of a format -/

variable {f : Format}

/-- The texts that are decimals smaller than a bound. -/
def IsDecimalBelow (bound : ℚ) (cs : List Char) : Prop := ∃ x, DecimalText cs x ∧ |x| < bound

/-- The number of the format that is nearest to the value of a text, with a sign bit exactly if the text has a
minus. -/
structure RoundedFrom (cs : List Char) (b : Binary f) : Prop where
  nearest : ∃ x, DecimalText cs x ∧ f.Nearest x b.bits
  sign : f.signField b.bits = 1 ↔ cs.head? = some '-'

theorem signField_bits_eq_one_iff (hf : f.Proper) (b : Binary f) :
    f.signField b.bits = 1 ↔ b.negative = true := by
  rw [b.signField_bits hf]
  cases b.negative <;> simp

/-- **Decimals are rounded once.**  A text is read as a number exactly if it is a decimal below the overflow, and
then as the number that is nearest to it. -/
theorem readBinary?_eq_some_iff (hf : f.Proper) {s : String} {b : Binary f} :
    readBinary? f s = some b ↔ IsDecimalBelow f.overflow s.toList ∧ RoundedFrom s.toList b := by
  rw [readBinary?, Option.bind_eq_some_iff]
  constructor
  · rintro ⟨d, hd, hnearest⟩
    obtain ⟨hbelow, hbits, hsign⟩ := (Decimal.nearest_eq_some_iff hf).mp hnearest
    have hvalue : DecimalText s.toList d.value := decimalText_iff.mpr ⟨d, hd, rfl⟩
    refine ⟨⟨_, hvalue, hbelow⟩, ⟨_, hvalue, hbits⟩, ?_⟩
    rw [signField_bits_eq_one_iff hf, hsign, negative_of_readDecimal? hd]
  · rintro ⟨⟨x, hx, hbelow⟩, ⟨y, hy, hbits⟩, hsign⟩
    obtain rfl := hy.unique hx
    obtain ⟨d, hd, rfl⟩ := decimalText_iff.mp hx
    refine ⟨d, hd, (Decimal.nearest_eq_some_iff hf).mpr ⟨hbelow, hbits, ?_⟩⟩
    rw [signField_bits_eq_one_iff hf, ← negative_of_readDecimal? hd] at hsign
    exact Bool.eq_iff_iff.mpr hsign

theorem exists_roundedFrom (hf : f.Proper) {cs : List Char} (h : IsDecimalBelow f.overflow cs) :
    ∃ b : Binary f, RoundedFrom cs b := by
  obtain ⟨x, hx, hbelow⟩ := h
  rw [← String.toList_ofList (l := cs)] at hx ⊢
  obtain ⟨d, hd, rfl⟩ := decimalText_iff.mp hx
  obtain ⟨b, hb⟩ := Decimal.exists_nearest hf hbelow
  have hread : readBinary? f (String.ofList cs) = some b := by rw [readBinary?, hd, Option.bind_some, hb]
  exact ⟨b, ((readBinary?_eq_some_iff hf).mp hread).2⟩

end TextCommand.Number

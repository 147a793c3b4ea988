import TextCommand.Number.Shortest
import TextCommand.Proofs.Argument.Written
import TextCommand.Proofs.Number.Numeral

/-!
# Decimals as text

The texts that are read as decimals are exactly those of one grammar: a sign or none, digits or none, a point
or none, and at least one digit.  What `positional` writes is read back digit by digit.
-/

namespace TextCommand.Number

attribute [local instance (high)] instPowNat

/-! ### Digits and a point -/

/-- The digits on both sides of a point, which stands there only if digits follow. -/
def withPoint (whole fraction : List Char) : List Char :=
  if fraction = [] then whole else whole ++ '.' :: fraction

theorem takeWhile_isDigit {whole : List Char} (hwhole : ∀ c ∈ whole, c.isDigit = true)
    (rest : List Char) (hrest : ∀ c ∈ rest.head?, c.isDigit = false) :
    (whole ++ rest).takeWhile Char.isDigit = whole ∧ (whole ++ rest).dropWhile Char.isDigit = rest := by
  rw [List.takeWhile_append_of_pos hwhole, List.dropWhile_append_of_pos hwhole]
  cases rest with
  | nil => simp
  | cons c cs =>
    have hc := hrest c rfl
    simp [hc]

theorem splitPoint_eq_some_iff {cs whole fraction : List Char} :
    splitPoint cs = some (whole, fraction) ↔
      (∀ c ∈ whole, c.isDigit = true) ∧ (∀ c ∈ fraction, c.isDigit = true) ∧
        ¬ (whole = [] ∧ fraction = []) ∧ cs = withPoint whole fraction := by
  constructor
  · intro h
    have hcs := List.takeWhile_append_dropWhile (p := Char.isDigit) (l := cs)
    have hdigits : ∀ c ∈ cs.takeWhile Char.isDigit, c.isDigit = true :=
      List.all_eq_true.mp List.all_takeWhile
    unfold splitPoint at h
    dsimp only at h
    split at h
    · next hdrop =>
      split at h
      · cases h
      · next hempty =>
        cases h
        rw [hdrop, List.append_nil] at hcs
        exact ⟨hdigits, by simp, by simpa using hempty, hcs.symm⟩
    · next digits hdrop =>
      split at h
      · next hfraction =>
        cases h
        obtain ⟨hne, hall⟩ : fraction ≠ [] ∧ ∀ c ∈ fraction, c.isDigit = true := by
          simpa using hfraction
        rw [hdrop] at hcs
        exact ⟨hdigits, hall, fun h => hne h.2, by rw [withPoint, if_neg hne, hcs]⟩
      · cases h
    · cases h
  · rintro ⟨hwhole, hfraction, hne, rfl⟩
    unfold splitPoint withPoint
    by_cases hnil : fraction = []
    · obtain ⟨htake, hdrop⟩ := takeWhile_isDigit hwhole [] (by simp)
      rw [List.append_nil] at htake hdrop
      have hwhole_ne : whole ≠ [] := fun h => hne ⟨h, hnil⟩
      simp [hnil, htake, hdrop, hwhole_ne]
    · obtain ⟨htake, hdrop⟩ := takeWhile_isDigit hwhole ('.' :: fraction)
        (by rintro c hc; cases hc; rfl)
      have hall : fraction.all Char.isDigit = true := List.all_eq_true.mpr hfraction
      simp [hnil, htake, hdrop, hall]

/-! ### The grammar -/

/-- The grammar `[-+]?[0-9]*\.?[0-9]+`, part by part. -/
inductive IsDecimalText : List Char → Prop
  | parts {sign whole point fraction : List Char}
      (hsign : sign = [] ∨ sign = ['-'] ∨ sign = ['+'])
      (hwhole : ∀ c ∈ whole, c.isDigit = true)
      (hpoint : point = [] ∨ point = ['.'])
      (hne : fraction ≠ []) (hfraction : ∀ c ∈ fraction, c.isDigit = true) :
      IsDecimalText (sign ++ (whole ++ (point ++ fraction)))

/-- Digits and a point do not begin with a sign. -/
theorem unsigned_withPoint {whole : List Char} (hwhole : ∀ c ∈ whole, c.isDigit = true)
    (fraction : List Char) : ∀ c ∈ (withPoint whole fraction).head?, c ≠ '-' ∧ c ≠ '+' := by
  intro c hc
  cases whole with
  | cons d ds =>
    refine ne_sign_of_isDigit (hwhole c ?_)
    unfold withPoint at hc
    split at hc <;> cases hc <;> exact List.mem_cons_self
  | nil =>
    unfold withPoint at hc
    split at hc
    · cases hc
    · cases hc
      exact ⟨by decide, by decide⟩

theorem readDecimal?_of_withPoint {s : String} (sign : Sign) {whole fraction : List Char}
    (hwhole : ∀ c ∈ whole, c.isDigit = true) (hfraction : ∀ c ∈ fraction, c.isDigit = true)
    (hne : ¬ (whole = [] ∧ fraction = [])) (hs : s.toList = sign.text ++ withPoint whole fraction) :
    readDecimal? s =
      some ⟨sign.negative, digitsValue (whole ++ fraction), fraction.length⟩ := by
  have hsplit : splitSign s.toList = (sign.negative, withPoint whole fraction) := by
    rw [hs, splitSign_text sign (unsigned_withPoint hwhole fraction)]
  have hpoint := splitPoint_eq_some_iff.mpr ⟨hwhole, hfraction, hne, rfl⟩
  simp only [readDecimal?, hsplit, hpoint, Option.map_some]

/-- **The grammar of decimals.**  A text is read as a decimal exactly if it is in the grammar. -/
theorem isSome_readDecimal?_iff (s : String) :
    (readDecimal? s).isSome = true ↔ IsDecimalText s.toList := by
  constructor
  · intro h
    obtain ⟨d, hd⟩ := Option.isSome_iff_exists.mp h
    obtain ⟨⟨whole, fraction⟩, hpoint, -⟩ := Option.map_eq_some_iff.mp hd
    obtain ⟨hwhole, hfraction, hne, hrest⟩ := splitPoint_eq_some_iff.mp hpoint
    obtain ⟨sign, hs, -⟩ := exists_splitSign s.toList
    have htext : (splitSign s.toList).2 = withPoint whole fraction := hrest
    rw [hs, htext]
    by_cases hnil : fraction = []
    · rw [withPoint, if_pos hnil, ← List.nil_append whole, ← List.nil_append whole]
      exact .parts sign.text_eq (by simp) (.inl rfl) (fun h => hne ⟨h, hnil⟩) hwhole
    · rw [withPoint, if_neg hnil]
      exact .parts sign.text_eq hwhole (.inr rfl) hnil hfraction
  · intro h
    generalize hs : s.toList = cs at h
    cases h with
    | @parts sign whole point fraction hsign hwhole hpoint hne hfraction =>
      obtain ⟨sign, rfl⟩ := Sign.exists_text hsign
      obtain rfl | rfl := hpoint
      · -- without a point all digits stand in front of it
        have hall : ∀ c ∈ whole ++ fraction, c.isDigit = true :=
          List.forall_mem_append.mpr ⟨hwhole, hfraction⟩
        have hs' : s.toList = sign.text ++ withPoint (whole ++ fraction) [] := hs
        rw [readDecimal?_of_withPoint sign hall (List.forall_mem_nil _) (by simp [hne]) hs']
        rfl
      · have htext : whole ++ (['.'] ++ fraction) = withPoint whole fraction := by
          rw [withPoint, if_neg hne]
          rfl
        rw [htext] at hs
        rw [readDecimal?_of_withPoint sign hwhole hfraction (fun h => hne h.2) hs]
        rfl

/-- A decimal is a word that needs no quotes. -/
theorem IsDecimalText.bare {cs : List Char} (h : IsDecimalText cs) :
    cs ≠ [] ∧ ∀ c ∈ cs, isBare c = true := by
  obtain ⟨hsign, hwhole, hpoint, hne, hfraction⟩ := h
  refine ⟨by simp [hne], ?_⟩
  simp only [List.forall_mem_append]
  refine ⟨?_, fun c hc => isBare_of_isDigit (hwhole c hc), ?_,
    fun c hc => isBare_of_isDigit (hfraction c hc)⟩
  · obtain rfl | rfl | rfl := hsign <;> simp [isBare]
  · obtain rfl | rfl := hpoint <;> simp [isBare]

/-! ### Positional texts -/

theorem digitsValue_zeros (n : Nat) (cs : List Char) :
    digitsValue (List.replicate n '0' ++ cs) = digitsValue cs := by
  induction n with
  | zero => rfl
  | succ n ih => exact ih

/-- The digits on both sides of the point of a positional text. -/
theorem positional_eq (numeral places : Nat) :
    ∃ whole fraction, positional numeral places = withPoint whole fraction ∧ whole ≠ [] ∧
      (∀ c ∈ whole, c.isDigit = true) ∧ (∀ c ∈ fraction, c.isDigit = true) ∧
      digitsValue (whole ++ fraction) = numeral ∧ fraction.length = places := by
  have hdigits : ∀ c ∈ Nat.toDigits 10 numeral, c.isDigit = true :=
    List.all_eq_true.mp (all_isDigit_toDigits numeral)
  have hvalue := digitsValue_toDigits numeral
  have hne : Nat.toDigits 10 numeral ≠ [] := Nat.toDigits_ne_nil
  unfold positional
  generalize Nat.toDigits 10 numeral = digits at *
  by_cases hplaces : places = 0
  · refine ⟨digits, [], ?_, hne, hdigits, by simp, ?_, hplaces.symm⟩
    · rw [if_pos hplaces, withPoint, if_pos rfl]
    · rw [List.append_nil, hvalue]
  · by_cases hlength : places < digits.length
    · have hback : (digits.drop (digits.length - places)).length = places := by
        rw [List.length_drop]
        omega
      have hfront : 0 < (digits.take (digits.length - places)).length := by
        rw [List.length_take]
        omega
      have hback_ne : digits.drop (digits.length - places) ≠ [] := by
        intro hnil
        rw [hnil] at hback
        exact hplaces hback.symm
      refine ⟨digits.take (digits.length - places), digits.drop (digits.length - places), ?_,
        List.length_pos_iff.mp hfront, fun c hc => hdigits c (List.mem_of_mem_take hc),
        fun c hc => hdigits c (List.mem_of_mem_drop hc), ?_, hback⟩
      · rw [if_neg hplaces, if_pos hlength, withPoint, if_neg hback_ne]
      · rw [List.take_append_drop, hvalue]
    · refine ⟨['0'], List.replicate (places - digits.length) '0' ++ digits, ?_, by simp, by simp,
        ?_, ?_, ?_⟩
      · rw [if_neg hplaces, if_neg hlength, withPoint, if_neg (by simp [hne])]
        rfl
      · exact List.forall_mem_append.mpr ⟨by simp, hdigits⟩
      · exact (digitsValue_zeros _ digits).trans hvalue
      · rw [List.length_append, List.length_replicate]
        omega

/-- A positional text, behind a minus or not, is read as the decimal that it was written for. -/
theorem readDecimal?_positional (negative : Bool) (numeral places : Nat) :
    readDecimal? (String.ofList ((if negative then ['-'] else []) ++ positional numeral places)) =
      some ⟨negative, numeral, places⟩ := by
  obtain ⟨whole, fraction, htext, hne, hwhole, hfraction, hvalue, hlength⟩ :=
    positional_eq numeral places
  obtain ⟨sign, hsign, rfl⟩ : ∃ sign : Sign, (if negative then ['-'] else []) = sign.text ∧
      sign.negative = negative := by
    cases negative
    · exact ⟨.none, rfl, rfl⟩
    · exact ⟨.minus, rfl, rfl⟩
  rw [htext, hsign, readDecimal?_of_withPoint sign hwhole hfraction (fun h => hne h.1)
    String.toList_ofList, hvalue, hlength]

end TextCommand.Number

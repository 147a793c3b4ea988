import Mathlib.Algebra.Group.Int.Defs
import TextCommand.Proofs.Number.Integer

/-!
# Numerals and their values

What integers look like, and which number each of them is: a sign or none in front of digits, of which each counts
ten to the power of how many stand behind it.  Texts are read as integers exactly if they look like that, and give
exactly that number.
-/

namespace TextCommand.Number

attribute [local instance (high)] instPowNat

/-! ### Digits -/

def IsDigit (c : Char) : Prop := '0' ≤ c ∧ c ≤ '9'

instance (c : Char) : Decidable (IsDigit c) := inferInstanceAs (Decidable (_ ∧ _))

theorem isDigit_iff {c : Char} : c.isDigit = true ↔ IsDigit c := by
  simp [Char.isDigit, IsDigit, Char.le_def]

/-- One digit or more. -/
structure IsNumeral (digits : List Char) : Prop where
  ne_nil : digits ≠ []
  isDigit : ∀ c ∈ digits, IsDigit c

theorem isNumeral_iff {digits : List Char} :
    (!digits.isEmpty && digits.all Char.isDigit) = true ↔ IsNumeral digits := by
  simp only [Bool.and_eq_true, Bool.not_eq_true', List.isEmpty_eq_false_iff, List.all_eq_true,
    isDigit_iff]
  exact ⟨fun ⟨hne, hdigit⟩ => ⟨hne, hdigit⟩, fun ⟨hne, hdigit⟩ => ⟨hne, hdigit⟩⟩

/-- Each digit counts ten to the power of the number of digits behind it. -/
def placeValue : List Char → Nat
  | [] => 0
  | c :: cs => (c.toNat - '0'.toNat) * 10 ^ cs.length + placeValue cs

theorem foldl_digits (cs : List Char) (n : Nat) :
    cs.foldl (fun n c => 10 * n + (c.toNat - '0'.toNat)) n = n * 10 ^ cs.length + placeValue cs := by
  induction cs generalizing n with
  | nil => simp [placeValue]
  | cons c cs ih =>
    rw [List.foldl_cons, ih, placeValue, List.length_cons, Nat.pow_succ, Nat.add_mul, Nat.add_assoc,
      Nat.mul_comm 10 n, Nat.mul_assoc, Nat.mul_comm 10]

theorem digitsValue_eq (cs : List Char) : digitsValue cs = placeValue cs := by
  rw [digitsValue, foldl_digits, Nat.zero_mul, Nat.zero_add]

/-! ### Signs -/

inductive Sign where
  | none | plus | minus
deriving DecidableEq

namespace Sign

def text : Sign → List Char
  | none => []
  | plus => ['+']
  | minus => ['-']

def factor : Sign → Int
  | none | plus => 1
  | minus => -1

def negative : Sign → Bool
  | none | plus => false
  | minus => true

theorem text_eq (sign : Sign) : sign.text = [] ∨ sign.text = ['-'] ∨ sign.text = ['+'] := by
  cases sign <;> simp [text]

theorem exists_text {cs : List Char} (h : cs = [] ∨ cs = ['-'] ∨ cs = ['+']) :
    ∃ sign : Sign, cs = sign.text := by
  obtain rfl | rfl | rfl := h
  · exact ⟨.none, rfl⟩
  · exact ⟨.minus, rfl⟩
  · exact ⟨.plus, rfl⟩

end Sign

theorem exists_splitSign (cs : List Char) :
    ∃ sign : Sign, cs = sign.text ++ (splitSign cs).2 ∧ (splitSign cs).1 = sign.negative := by
  unfold splitSign
  split
  · exact ⟨.minus, rfl, rfl⟩
  · exact ⟨.plus, rfl, rfl⟩
  · exact ⟨.none, rfl, rfl⟩

theorem splitSign_text (sign : Sign) {cs : List Char} (h : ∀ c ∈ cs.head?, c ≠ '-' ∧ c ≠ '+') :
    splitSign (sign.text ++ cs) = (sign.negative, cs) := by
  cases sign with
  | none =>
    show splitSign cs = (false, cs)
    exact splitSign_of_unsigned h
  | plus | minus => rfl

theorem signed_negative (sign : Sign) (n : Nat) : signed sign.negative n = sign.factor * n := by
  cases sign <;> simp [signed, Sign.negative, Sign.factor]

/-- A numeral begins with no sign. -/
theorem IsNumeral.unsigned {digits : List Char} (h : IsNumeral digits) :
    ∀ c ∈ digits.head?, c ≠ '-' ∧ c ≠ '+' := fun c hc =>
  ne_sign_of_isDigit (isDigit_iff.mpr (h.isDigit c (List.mem_of_mem_head? hc)))

/-! ### Integers -/

/-- The texts that are integers, and which integers they are. -/
inductive IntegerText : List Char → Int → Prop
  | signed (sign : Sign) {digits : List Char} (hdigits : IsNumeral digits) :
      IntegerText (sign.text ++ digits) (sign.factor * placeValue digits)

theorem readInteger?_eq_some_iff {s : String} {n : Int} :
    readInteger? s = some n ↔ IntegerText s.toList n := by
  constructor
  · intro h
    obtain ⟨sign, htext, hsign⟩ := exists_splitSign s.toList
    unfold readInteger? at h
    generalize splitSign s.toList = found at *
    obtain ⟨negative, digits⟩ := found
    dsimp only at h htext hsign
    split at h
    · next hdigits =>
      cases h
      rw [htext, hsign, signed_negative, digitsValue_eq]
      exact .signed sign (isNumeral_iff.mp hdigits)
    · cases h
  · -- a numeral begins with no sign, so the split gives it back
    intro h
    generalize htext : s.toList = cs at h
    obtain ⟨sign, hdigits⟩ := h
    simp only [readInteger?, htext, splitSign_text sign hdigits.unsigned, isNumeral_iff.mpr hdigits,
      if_true, signed_negative, digitsValue_eq]

theorem IntegerText.ne_nil {cs : List Char} {n : Int} (h : IntegerText cs n) : cs ≠ [] := by
  obtain ⟨sign, hdigits⟩ := h
  exact List.append_ne_nil_of_right_ne_nil _ hdigits.ne_nil

/-- No text is two integers. -/
theorem IntegerText.unique {cs : List Char} {m n : Int} (hm : IntegerText cs m)
    (hn : IntegerText cs n) : m = n := by
  rw [← String.toList_ofList (l := cs), ← readInteger?_eq_some_iff] at hm hn
  exact Option.some.inj (hm.symm.trans hn)

theorem integerText_toString (n : Int) : IntegerText (toString n).toList n :=
  readInteger?_eq_some_iff.mp (readInteger?_toString n)

/-- A decoder of integers: what it makes of a text is the integer that the text is, and it refuses no integer
between its bounds. -/
structure Decodes {α : Type} (decode : String → Option α) (value : α → Int) (low high : Int) : Prop where
  eq_some_iff : ∀ s v, decode s = some v ↔ IntegerText s.toList (value v)
  bounds : ∀ v, low ≤ value v ∧ value v ≤ high
  exists_value : ∀ n, low ≤ n → n ≤ high → ∃ v, value v = n

/-- Exact integers that are refused beyond the bounds of a fixed width. -/
theorem decodes_of_width {α : Type} {value : α → Int} {ofInt : Int → α} {low high : Int}
    (hvalue : ∀ n, low ≤ n → n ≤ high → value (ofInt n) = n) (hofInt : ∀ v, ofInt (value v) = v)
    (hbounds : ∀ v, low ≤ value v ∧ value v ≤ high) :
    Decodes (fun s => (readInteger? s).bind fun n =>
      if low ≤ n ∧ n ≤ high then some (ofInt n) else none) value low high where
  eq_some_iff s v := by
    rw [← readInteger?_eq_some_iff, Option.bind_eq_some_iff]
    constructor
    · rintro ⟨n, hn, h⟩
      split at h
      · next hrange =>
        cases h
        rwa [hvalue n hrange.1 hrange.2]
      · cases h
    · intro h
      refine ⟨_, h, ?_⟩
      rw [if_pos (hbounds v), hofInt]
  bounds := hbounds
  exists_value n hlow hhigh := ⟨ofInt n, hvalue n hlow hhigh⟩

theorem decodes_readInt32? : Decodes readInt32? Int32.toInt (-2 ^ 31) (2 ^ 31 - 1) :=
  decodes_of_width (fun _ hlow hhigh => Int32.toInt_ofInt_of_le hlow (Int.lt_of_le_sub_one hhigh))
    Int32.ofInt_toInt fun v => ⟨v.minValue_le_toInt, v.toInt_le⟩

example : readInt32? "-0002147483648" = some Int32.minValue ∧ readInt32? "2147483648" = none := by
  decide

theorem decodes_readInt64? : Decodes readInt64? Int64.toInt (-2 ^ 63) (2 ^ 63 - 1) :=
  decodes_of_width (fun _ hlow hhigh => Int64.toInt_ofInt_of_le hlow (Int.lt_of_le_sub_one hhigh))
    Int64.ofInt_toInt fun v => ⟨v.minValue_le_toInt, v.toInt_le⟩

end TextCommand.Number

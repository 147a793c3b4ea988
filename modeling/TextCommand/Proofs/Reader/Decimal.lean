import TextCommand.Proofs.Number.Fraction
import TextCommand.Proofs.Reader.Integer

/-!
# Decimals as words

A word is read as a number of a format exactly if it is a decimal below the overflow, and then as the number that is
nearest to it, rounded once.  Integers of both widths are far below the overflow of both formats.
-/

namespace TextCommand

open Number

variable {α : Type} {f : Format} {scalar scalar' : Scalar} {value : α → Int} {low high : Int}
  {bound : ℚ} {read : Reader → Reading ReadError α} {read' : Reader → Reading ReadError (Binary f)}

/-- A read that accepts the decimals below a bound, and exactly them, and rounds each to the nearest number. -/
def Scalar.ReadsDecimals (scalar : Scalar) (bound : ℚ)
    (read : Reader → Reading ReadError (Binary f)) : Prop :=
  scalar.Reads (IsDecimalBelow bound) RoundedFrom read

theorem readsDecimals_readScalar (hf : f.Proper) :
    scalar.ReadsDecimals f.overflow (Reader.readScalar scalar (readBinary? f)) := by
  refine Scalar.reads_of_decode ?_ (fun word b => ?_) (fun word => exists_roundedFrom hf)
  · rintro ⟨x, hx, -⟩
    exact (isDecimalText_iff.mpr ⟨x, hx⟩).bare.1 rfl
  · rw [readBinary?_eq_some_iff hf, String.toList_ofList]

theorem readsDecimals_readFloat :
    Scalar.float.ReadsDecimals (2 ^ 128 - 2 ^ 103) Reader.readFloat :=
  Format.overflow_single ▸ readsDecimals_readScalar Format.proper_single

theorem readsDecimals_readDouble :
    Scalar.double.ReadsDecimals (2 ^ 1024 - 2 ^ 970) Reader.readDouble :=
  Format.overflow_double ▸ readsDecimals_readScalar Format.proper_double

/-- A word that is read as an integer is read as the number nearest to that integer. -/
theorem Scalar.ReadsIntegers.exists_nearest (h : scalar.ReadsIntegers value low high read)
    (h' : scalar'.ReadsDecimals bound read') (hbound : ∀ n : Int, low ≤ n → n ≤ high → |(n : ℚ)| < bound)
    {r next : Reader} {v : α} (hread : read r = ⟨.ok v, next⟩) :
    ∃ b, read' r = ⟨.ok b, next⟩ ∧ f.Nearest (value v) b.bits := by
  obtain ⟨hlow, hhigh⟩ := h.bounds hread
  obtain ⟨word, rest, hnext⟩ := r.exists_nextWord
  obtain ⟨-, hword, hbehind⟩ := (h.eq_ok_iff hnext v next).mp hread
  have hdecimal : DecimalText word (value v) := .integer hword
  obtain ⟨b, next', hread'⟩ := h'.exists_ok hnext ⟨_, hdecimal, hbound _ hlow hhigh⟩
  obtain ⟨-, hrounded, hbehind'⟩ := (h'.eq_ok_iff hnext b next').mp hread'
  obtain ⟨x, hx, hbits⟩ := hrounded.nearest
  obtain rfl := hx.unique hdecimal
  exact ⟨b, by rw [hread', hbehind', hbehind], hbits⟩

/-- The wider integers are below the overflow of the narrower format. -/
theorem abs_lt_overflow_single {n : Int} (hlow : -2 ^ 63 ≤ n) (hhigh : n ≤ 2 ^ 63 - 1) :
    |(n : ℚ)| < 2 ^ 128 - 2 ^ 103 := by
  have hlow' : (-2 ^ 63 : ℚ) ≤ n := by exact_mod_cast hlow
  have hhigh' : (n : ℚ) ≤ 2 ^ 63 - 1 := by exact_mod_cast hhigh
  have hbelow : (2 ^ 63 : ℚ) < 2 ^ 128 - 2 ^ 103 := by norm_num
  exact abs_lt.mpr ⟨by linarith, by linarith⟩

theorem overflow_single_le_double : (2 ^ 128 - 2 ^ 103 : ℚ) ≤ 2 ^ 1024 - 2 ^ 970 := by
  have hpow : ∀ {m n : Nat}, m ≤ n → (2 ^ m : ℚ) ≤ 2 ^ n := fun h => pow_le_pow_right₀ one_le_two h
  have hdouble : (2 ^ 971 : ℚ) = 2 * 2 ^ 970 := pow_succ' 2 970
  calc (2 ^ 128 - 2 ^ 103 : ℚ)
    _ ≤ 2 ^ 128 := sub_le_self _ (by positivity)
    _ ≤ 2 ^ 970 := hpow (by decide)
    _ = 2 ^ 971 - 2 ^ 970 := by rw [hdouble, two_mul, add_sub_cancel_right]
    _ ≤ 2 ^ 1024 - 2 ^ 970 := sub_le_sub_right (hpow (by decide)) _

/-- **Decimals are rounded once or refused.**  In front of every reader there is one longest run of word
characters.  `readDouble` and `readFloat` answer with a number exactly if that word is in the grammar of decimals and
its value is below the overflow of the format; the number is then the nearest of all finite ones, in a tie the even
one, and its sign bit is set exactly if the word begins with a minus.  An empty word and all others fail, the
latter with the whole word.  Whatever is read as an integer is read as a number of both formats, the nearest one. -/
theorem decimals_rounded_once :
    (∀ r : Reader, ∃ word rest, r.NextWord word rest) ∧
    (∀ word, IsDecimalText word ↔ ∃! x, DecimalText word x) ∧
    Scalar.double.Reads (IsDecimalBelow (2 ^ 1024 - 2 ^ 970)) RoundedFrom Reader.readDouble ∧
    Scalar.float.Reads (IsDecimalBelow (2 ^ 128 - 2 ^ 103)) RoundedFrom Reader.readFloat ∧
    ∀ r next : Reader,
      (∀ v : Int32, r.readInt = ⟨.ok v, next⟩ →
        (∃ b, r.readDouble = ⟨.ok b, next⟩ ∧ Format.double.Nearest v.toInt b.bits) ∧
        ∃ b, r.readFloat = ⟨.ok b, next⟩ ∧ Format.single.Nearest v.toInt b.bits) ∧
      ∀ v : Int64, r.readLong = ⟨.ok v, next⟩ →
        (∃ b, r.readDouble = ⟨.ok b, next⟩ ∧ Format.double.Nearest v.toInt b.bits) ∧
        ∃ b, r.readFloat = ⟨.ok b, next⟩ ∧ Format.single.Nearest v.toInt b.bits := by
  have hsingle : ∀ n : Int, -2 ^ 63 ≤ n → n ≤ 2 ^ 63 - 1 → |(n : ℚ)| < 2 ^ 128 - 2 ^ 103 :=
    fun n => abs_lt_overflow_single
  have hdouble : ∀ n : Int, -2 ^ 63 ≤ n → n ≤ 2 ^ 63 - 1 → |(n : ℚ)| < 2 ^ 1024 - 2 ^ 970 :=
    fun n hlow hhigh => (hsingle n hlow hhigh).trans_le overflow_single_le_double
  have hlong : ∀ {r next : Reader} (v : Int64), r.readLong = ⟨.ok v, next⟩ →
      (∃ b, r.readDouble = ⟨.ok b, next⟩ ∧ Format.double.Nearest v.toInt b.bits) ∧
      ∃ b, r.readFloat = ⟨.ok b, next⟩ ∧ Format.single.Nearest v.toInt b.bits :=
    fun v hread => ⟨readsIntegers_readLong.exists_nearest readsDecimals_readDouble hdouble hread,
      readsIntegers_readLong.exists_nearest readsDecimals_readFloat hsingle hread⟩
  refine ⟨Reader.exists_nextWord, fun word => ?_, readsDecimals_readDouble,
    readsDecimals_readFloat, fun r next => ⟨fun v hread => ?_, hlong⟩⟩
  · exact isDecimalText_iff.trans ⟨fun ⟨x, hx⟩ => ⟨x, hx, fun y hy => hy.unique hx⟩,
      fun ⟨x, hx, _⟩ => ⟨x, hx⟩⟩
  · -- what is read in the narrower width is read in the wider one
    obtain ⟨hlow, hhigh⟩ := readsIntegers_readInt.bounds hread
    obtain ⟨w, hw, hread'⟩ :=
      readsIntegers_readInt.exists_same readsIntegers_readLong hread (by omega) (by omega)
    rw [← hw]
    exact hlong w hread'

/-- Just above half way between 16777216 and 16777218.  Rounded by way of a `Double` this would be half way, and
go to the even one. -/
theorem readFloat_above_half :
    let r : Reader := .ofString "16777217.0000000000000000001"
    let above : Single := ⟨false, 1266679809, by decide⟩
    r.NextWord "16777217.0000000000000000001".toList [] ∧
      r.readFloat = ⟨.ok above, ⟨r.rest, []⟩⟩ ∧
      RoundedFrom "16777217.0000000000000000001".toList above := by
  intro r above
  have hnext : r.NextWord "16777217.0000000000000000001".toList [] :=
    ⟨rfl, fun c hc => isBare_iff.mp (List.all_eq_true.mp rfl c hc), by simp⟩
  have hdecode : readBinary? .single "16777217.0000000000000000001" = some above := by decide
  have hread : r.readFloat = ⟨.ok above, ⟨r.rest, []⟩⟩ :=
    Reader.readScalar_eq_ok_iff.mpr ⟨_, hnext.readWord_eq_ok (by decide), hdecode⟩
  obtain ⟨-, -, -, hfloat, -⟩ := decimals_rounded_once
  exact ⟨hnext, hread, ((hfloat.eq_ok_iff hnext _ _).mp hread).2.1⟩

end TextCommand

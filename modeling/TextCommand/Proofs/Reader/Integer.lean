import TextCommand.Proofs.Argument.Written
import TextCommand.Proofs.Number.Numeral
import TextCommand.Proofs.Reader.NextWord

/-!
# Integers as words

A word is read as an integer of some width exactly if it looks like an integer and that integer has the width;
all other words are refused.  Two widths therefore agree wherever both have the integer.
-/

namespace TextCommand

open Number

/-- The words that are integers from `low` to `high`. -/
def IsIntegerWithin (low high : Int) (word : List Char) : Prop :=
  ∃ n, IntegerText word n ∧ low ≤ n ∧ n ≤ high

/-- A read that accepts the integers from `low` to `high`, whatever they look like, and exactly them. -/
def Scalar.ReadsIntegers {α : Type} (scalar : Scalar) (value : α → Int) (low high : Int)
    (read : Reader → Reading ReadError α) : Prop :=
  scalar.Reads (IsIntegerWithin low high) (fun word v => IntegerText word (value v)) read

variable {α β : Type} {scalar scalar' : Scalar} {value : α → Int} {value' : β → Int}
  {low high low' high' : Int} {read : Reader → Reading ReadError α}
  {read' : Reader → Reading ReadError β}

theorem readsIntegers_of_decodes {decode : String → Option α}
    (h : Decodes decode value low high) :
    scalar.ReadsIntegers value low high (Reader.readScalar scalar decode) := by
  refine Scalar.reads_of_decode ?_ (fun word v => ?_) ?_
  · rintro ⟨n, hword, -⟩
    exact hword.ne_nil rfl
  · rw [h.eq_some_iff, String.toList_ofList]
    exact ⟨fun hword => ⟨⟨_, hword, h.bounds v⟩, hword⟩, And.right⟩
  · rintro word ⟨n, hword, hlow, hhigh⟩
    obtain ⟨v, rfl⟩ := h.exists_value n hlow hhigh
    exact ⟨v, hword⟩

theorem readsIntegers_readInt :
    Scalar.int.ReadsIntegers Int32.toInt (-2 ^ 31) (2 ^ 31 - 1) Reader.readInt :=
  readsIntegers_of_decodes decodes_readInt32?

theorem readsIntegers_readLong :
    Scalar.long.ReadsIntegers Int64.toInt (-2 ^ 63) (2 ^ 63 - 1) Reader.readLong :=
  readsIntegers_of_decodes decodes_readInt64?

namespace Scalar.ReadsIntegers

/-- An integer that is read is read alike by every other read whose bounds it keeps. -/
theorem exists_same (h : scalar.ReadsIntegers value low high read)
    (h' : scalar'.ReadsIntegers value' low' high' read') {r next : Reader} {v : α}
    (hread : read r = ⟨.ok v, next⟩) (hlow : low' ≤ value v) (hhigh : value v ≤ high') :
    ∃ v', value' v' = value v ∧ read' r = ⟨.ok v', next⟩ := by
  obtain ⟨word, rest, hnext⟩ := r.exists_nextWord
  obtain ⟨-, hword, hbehind⟩ := (h.eq_ok_iff hnext v next).mp hread
  obtain ⟨v', next', hread'⟩ := h'.exists_ok hnext ⟨_, hword, hlow, hhigh⟩
  obtain ⟨-, hword', hbehind'⟩ := (h'.eq_ok_iff hnext v' next').mp hread'
  refine ⟨v', hword'.unique hword, ?_⟩
  rw [hread', hbehind', hbehind]

/-- What is read lies within the bounds. -/
theorem bounds (h : scalar.ReadsIntegers value low high read) {r next : Reader} {v : α}
    (hread : read r = ⟨.ok v, next⟩) : low ≤ value v ∧ value v ≤ high := by
  obtain ⟨word, rest, hnext⟩ := r.exists_nextWord
  obtain ⟨⟨n, hword, hbounds⟩, hword', -⟩ := (h.eq_ok_iff hnext v next).mp hread
  rwa [hword'.unique hword]

/-- The decimal text of an integer is read back, at the end of the text or in front of a blank. -/
theorem read_toString (h : scalar.ReadsIntegers value low high read) {v : α}
    (hbounds : low ≤ value v ∧ value v ≤ high) (passed : List Char) {rest : List Char}
    (hrest : ∀ c ∈ rest.head?, Text.isBlank c = true) :
    read ⟨passed, (toString (value v)).toList ++ rest⟩ =
      ⟨.ok v, (Reader.mk (passed ++ (toString (value v)).toList) rest).skipBlank⟩ := by
  have hword := integerText_toString (value v)
  refine (h.eq_ok_iff ⟨rfl, fun c hc => ?_, fun c hc hbare => ?_⟩ v _).mpr
    ⟨⟨_, hword, hbounds⟩, hword, rfl⟩
  · exact isBare_iff.mp (toString_int_bare _ c hc)
  · have hnot := isBare_of_isBlank (hrest c hc)
    rw [isBare_iff.mpr hbare] at hnot
    cases hnot

end Scalar.ReadsIntegers

/-- **Integers are read exactly or refused.**  In front of every reader there is one longest run of word
characters.  `readInt` and `readLong` answer with a value exactly if that word is a sign or none in front of
digits whose value the width has, and the answer is that value; an empty word and all others fail, the latter
with the whole word.  So decimal texts are read back, what `readInt` reads `readLong` reads alike, and what
`readLong` reads `readInt` reads alike within its own bounds. -/
theorem integers_read_exactly :
    (∀ r : Reader, ∃ word rest, r.NextWord word rest) ∧
    Scalar.int.Reads (IsIntegerWithin (-2 ^ 31) (2 ^ 31 - 1))
      (fun word v => IntegerText word v.toInt) Reader.readInt ∧
    Scalar.long.Reads (IsIntegerWithin (-2 ^ 63) (2 ^ 63 - 1))
      (fun word v => IntegerText word v.toInt) Reader.readLong ∧
    (∀ (passed rest : List Char), (∀ c ∈ rest.head?, Text.isBlank c = true) →
      (∀ v : Int32, Reader.readInt ⟨passed, (toString v.toInt).toList ++ rest⟩ =
        ⟨.ok v, (Reader.mk (passed ++ (toString v.toInt).toList) rest).skipBlank⟩) ∧
      (∀ v : Int64, Reader.readLong ⟨passed, (toString v.toInt).toList ++ rest⟩ =
        ⟨.ok v, (Reader.mk (passed ++ (toString v.toInt).toList) rest).skipBlank⟩)) ∧
    ∀ r next : Reader,
      (∀ v, r.readInt = ⟨.ok v, next⟩ → ∃ w, w.toInt = v.toInt ∧ r.readLong = ⟨.ok w, next⟩) ∧
      (∀ w, r.readLong = ⟨.ok w, next⟩ → -2 ^ 31 ≤ w.toInt → w.toInt ≤ 2 ^ 31 - 1 →
        ∃ v, v.toInt = w.toInt ∧ r.readInt = ⟨.ok v, next⟩) := by
  have hint := readsIntegers_readInt
  have hlong := readsIntegers_readLong
  refine ⟨Reader.exists_nextWord, hint, hlong, fun passed rest hrest => ⟨fun v => ?_, fun v => ?_⟩,
    fun r next => ⟨fun v hread => ?_, fun w hread hlow hhigh => ?_⟩⟩
  · exact hint.read_toString (decodes_readInt32?.bounds v) passed hrest
  · exact hlong.read_toString (decodes_readInt64?.bounds v) passed hrest
  · -- what the narrower width has the wider one has, too
    have hbounds := hint.bounds hread
    exact hint.exists_same hlong hread (by omega) (by omega)
  · exact hlong.exists_same hint hread hlow hhigh

/-- The least integer of the narrower width, with a zero in front, and the one below it. -/
theorem readInt_at_least :
    let least : Reader := .ofString "-02147483648 x"
    let below : Reader := .ofString "-2147483649"
    (least.NextWord "-02147483648".toList " x".toList ∧ below.NextWord "-2147483649".toList []) ∧
      least.readInt = ⟨.ok Int32.minValue, ⟨"-02147483648 ".toList, ['x']⟩⟩ ∧
      below.readInt = below.fail (.invalidScalar .int "-2147483649") := by
  intro least below
  have hbare : ∀ {word : List Char}, word.all isBare = true → ∀ c ∈ word, IsWordChar c :=
    fun hword c hc => isBare_iff.mp (List.all_eq_true.mp hword c hc)
  have hleast : least.NextWord "-02147483648".toList " x".toList := by
    refine ⟨rfl, hbare rfl, fun c hc hword => ?_⟩
    cases hc
    exact absurd (isBare_iff.mpr hword) (by decide)
  have hbelow : below.NextWord "-2147483649".toList [] :=
    ⟨rfl, hbare rfl, by simp⟩
  obtain ⟨-, hint, -⟩ := integers_read_exactly
  refine ⟨⟨hleast, hbelow⟩, ?_, ?_⟩
  · have hword : IntegerText "-02147483648".toList Int32.minValue.toInt :=
      readInteger?_eq_some_iff.mp (by decide)
    exact (hint.eq_ok_iff hleast _ _).mpr ⟨⟨_, hword, by decide, by decide⟩, hword, rfl⟩
  · refine hint.eq_invalid hbelow (by decide) ?_
    rintro ⟨n, hn, hlow, -⟩
    have hword : IntegerText "-2147483649".toList (-2147483649) :=
      readInteger?_eq_some_iff.mp (by decide)
    obtain rfl := hn.unique hword
    exact absurd hlow (by decide)

end TextCommand

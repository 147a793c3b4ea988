import TextCommand.Proofs.Reader.Contract

/-!
# The next word and what it means

In front of every reader there is one word, which may be empty, and a rest that does not go on with it.
A scalar is that word decoded as a whole.  So what such a read does is said by the words that it accepts and by what
they mean: `Scalar.Reads`.
-/

namespace TextCommand

namespace Reader

/-- What comes next is `word`, which is the longest run of word characters, and then `rest`. -/
structure NextWord (r : Reader) (word rest : List Char) : Prop where
  rest_eq : r.rest = word ++ rest
  isWordChar : ∀ c ∈ word, IsWordChar c
  ended : ∀ c ∈ rest.head?, ¬ IsWordChar c

variable {r : Reader} {word rest : List Char}

theorem exists_nextWord (r : Reader) : ∃ word rest, r.NextWord word rest := by
  obtain ⟨word, rest, hrest, hword, hended, -⟩ := r.readWord_maximal
  exact ⟨word, rest, hrest, hword, hended⟩

theorem NextWord.takeWhile_eq (h : r.NextWord word rest) : r.rest.takeWhile isBare = word := by
  rw [h.rest_eq]
  exact takeWhile_isBare (fun c hc => isBare_iff.mpr (h.isWordChar c hc)) fun c hc =>
    Bool.eq_false_iff.mpr fun hbare => h.ended c hc (isBare_iff.mp hbare)

theorem NextWord.readWord_eq_fail (h : r.NextWord [] rest) : r.readWord = r.fail .expectedString := by
  rw [readWord_eq, if_pos h.takeWhile_eq]

theorem NextWord.readWord_eq_ok (h : r.NextWord word rest) (hne : word ≠ []) :
    r.readWord = ⟨.ok (String.ofList word), (Reader.mk (r.passed ++ word) rest).skipBlank⟩ := by
  obtain ⟨passed, text⟩ := r
  obtain rfl : text = word ++ rest := h.rest_eq
  rw [readWord_eq, h.takeWhile_eq, if_neg hne, advance_append]

end Reader

/-- A read of one word, accepted as a whole or refused as a whole.  It accepts some words, each of which means
a value, and answers with that value behind the word and the blanks that follow. -/
structure Scalar.Reads {α : Type} (scalar : Scalar) (Accepts : List Char → Prop)
    (Means : List Char → α → Prop) (read : Reader → Reading ReadError α) : Prop where
  eq_ok_iff : ∀ {r : Reader} {word rest : List Char}, r.NextWord word rest → ∀ a next,
    read r = ⟨.ok a, next⟩ ↔
      Accepts word ∧ Means word a ∧ next = (Reader.mk (r.passed ++ word) rest).skipBlank
  exists_ok : ∀ {r : Reader} {word rest : List Char}, r.NextWord word rest → Accepts word →
    ∃ a next, read r = ⟨.ok a, next⟩
  eq_expected : ∀ {r : Reader} {rest : List Char}, r.NextWord [] rest →
    read r = r.fail (.expectedScalar scalar)
  eq_invalid : ∀ {r : Reader} {word rest : List Char}, r.NextWord word rest → word ≠ [] →
    ¬ Accepts word → read r = r.fail (.invalidScalar scalar (String.ofList word))

/-- A decoder that gives a value exactly to the accepted words, none of which is empty. -/
theorem Scalar.reads_of_decode {α : Type} {scalar : Scalar} {decode : String → Option α}
    {Accepts : List Char → Prop} {Means : List Char → α → Prop} (hnil : ¬ Accepts [])
    (hdecode : ∀ word a, decode (String.ofList word) = some a ↔ Accepts word ∧ Means word a)
    (hexists : ∀ word, Accepts word → ∃ a, Means word a) :
    scalar.Reads Accepts Means (Reader.readScalar scalar decode) where
  eq_ok_iff {r word rest} hnext a next := by
    rw [Reader.readScalar_eq_ok_iff]
    constructor
    · rintro ⟨text, hread, htext⟩
      have hne : word ≠ [] := by
        rintro rfl
        rw [hnext.readWord_eq_fail] at hread
        cases hread
      rw [hnext.readWord_eq_ok hne] at hread
      cases hread
      obtain ⟨haccepts, hmeans⟩ := (hdecode word a).mp htext
      exact ⟨haccepts, hmeans, rfl⟩
    · rintro ⟨haccepts, hmeans, rfl⟩
      have hne : word ≠ [] := by
        rintro rfl
        exact hnil haccepts
      exact ⟨_, hnext.readWord_eq_ok hne, (hdecode word a).mpr ⟨haccepts, hmeans⟩⟩
  exists_ok {r word rest} hnext haccepts := by
    obtain ⟨a, hmeans⟩ := hexists word haccepts
    have hne : word ≠ [] := by
      rintro rfl
      exact hnil haccepts
    exact ⟨a, _, Reader.readScalar_eq_ok_iff.mpr
      ⟨_, hnext.readWord_eq_ok hne, (hdecode word a).mpr ⟨haccepts, hmeans⟩⟩⟩
  eq_expected hnext := by
    rw [Reader.readScalar, hnext.readWord_eq_fail]
    rfl
  eq_invalid {r word rest} hnext hne hrefused := by
    have hnone : decode (String.ofList word) = none := by
      cases hsome : decode (String.ofList word) with
      | none => rfl
      | some a => exact absurd ((hdecode word a).mp hsome).1 hrefused
    rw [Reader.readScalar, hnext.readWord_eq_ok hne]
    simp only [hnone]

end TextCommand

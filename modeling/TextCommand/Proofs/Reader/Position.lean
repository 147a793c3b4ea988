import TextCommand.Proofs.Reader.Settled

/-!
# Positions in a text

A reader is found again by its position in bytes, wherever in the same text one looks for it.  Every
read, whether it succeeds or not, stays in its text, so a position taken before it leads back.
-/

namespace TextCommand

/-- Behind a front that takes up the first bytes, splitting goes on with what is left of them. -/
theorem splitAtByte_byteLength_add (front : List Char) (n : Nat) (back : List Char) :
    splitAtByte (byteLength front + n) (front ++ back) =
      (front ++ (splitAtByte n back).1, (splitAtByte n back).2) := by
  induction front with
  | nil => simp
  | cons c cs ih =>
    have hle : c.utf8Size ≤ byteLength (c :: cs) + n := by
      rw [byteLength_cons]
      omega
    have hsub : byteLength (c :: cs) + n - c.utf8Size = byteLength cs + n := by
      rw [byteLength_cons]
      omega
    rw [List.cons_append, splitAtByte, if_pos hle, hsub, ih]
    rfl

theorem splitAtByte_zero (cs : List Char) : splitAtByte 0 cs = ([], cs) := by
  cases cs with
  | nil => rfl
  | cons c cs => exact if_neg (Nat.not_le.mpr c.utf8Size_pos)

namespace Reader

/-- The position of a reader leads back to it from anywhere in its text. -/
theorem moveTo_cursor {r left : Reader} (h : left.chars = r.chars) : left.moveTo r.cursor = r := by
  have hsplit := splitAtByte_byteLength_add r.passed 0 r.rest
  rw [Nat.add_zero, splitAtByte_zero, List.append_nil] at hsplit
  rw [moveTo, h, chars, cursor, hsplit]

/-! ### Reads that fail -/

section Failures

variable {r next : Reader} {e : ReadError}

theorem eq_of_readWord_error (h : r.readWord = ⟨.error e, next⟩) : next = r := by
  unfold readWord at h
  split at h
  · cases h
    rfl
  · cases h

theorem eq_of_readQuoted_error (h : r.readQuoted = ⟨.error e, next⟩) : next = r := by
  unfold readQuoted at h
  split at h
  · cases h
    rfl
  · split at h
    · split at h
      · cases h
      · -- the quote that was skipped is given back
        cases h
        rfl
    · cases h
      rfl

/-- A token that cannot be read leaves the reader where it was. -/
theorem eq_of_readString_error (h : r.readString = ⟨.error e, next⟩) : next = r := by
  unfold readString at h
  split at h
  · exact eq_of_readQuoted_error h
  · exact eq_of_readWord_error h

theorem eq_of_readScalar_error {α : Type} {scalar : Scalar} {decode : String → Option α}
    (h : r.readScalar scalar decode = ⟨.error e, next⟩) : next = r := by
  unfold readScalar at h
  split at h
  · cases h
    rfl
  · split at h
    · cases h
    · cases h
      rfl

end Failures

theorem chars_readString (r : Reader) : r.readString.reader.chars = r.chars := by
  rcases h : r.readString with ⟨e | word, next⟩
  · rw [eq_of_readString_error h]
  · exact (passes_of_readString h).chars

end Reader

/-! ### Arguments -/

namespace Kind

variable {r next : Reader}

theorem of_toValue_error {α : Type} {wrap : α → Value} {reading : Reading ReadError α}
    {error : CommandError} (h : reading.toValue wrap = ⟨.error error, next⟩) :
    ∃ e, reading = ⟨.error e, next⟩ := by
  unfold Reading.toValue at h
  split at h
  · cases h
  · cases h
    exact ⟨_, rfl⟩

theorem eq_of_readMode_error {error : CommandError} (h : readMode r = ⟨.error error, next⟩) :
    next = r := by
  unfold readMode at h
  split at h
  · next hword =>
    cases h
    exact Reader.eq_of_readWord_error hword
  · split at h
    · cases h
    · cases h
      rfl

/-- The one kind that does not go back behind a word that it refuses. -/
theorem chars_readMessy_error {error : CommandError} (h : readMessy r = ⟨.error error, next⟩) :
    next.chars = r.chars := by
  unfold readMessy at h
  split at h
  · next hword =>
    cases h
    rw [Reader.eq_of_readWord_error hword]
  · next hword =>
    split at h
    · cases h
      exact (Reader.passes_of_readWord hword).chars
    · cases h

theorem chars_read_error {kind : Kind} {error : CommandError}
    (h : kind.read r = ⟨.error error, next⟩) : next.chars = r.chars := by
  cases kind with
  | bool | int | long | float | double =>
    obtain ⟨e, he⟩ := of_toValue_error h
    rw [Reader.eq_of_readScalar_error he]
  | string =>
    obtain ⟨e, he⟩ := of_toValue_error h
    rw [Reader.eq_of_readString_error he]
  | greedy =>
    obtain ⟨e, he⟩ := of_toValue_error h
    unfold readGreedy at he
    split at he
    · cases he
    · cases he
      rfl
  | mode => rw [eq_of_readMode_error h]
  | messy => exact chars_readMessy_error h

theorem chars_read (kind : Kind) (r : Reader) : (kind.read r).reader.chars = r.chars := by
  rcases hread : kind.read r with ⟨error | value, next⟩
  · exact chars_read_error hread
  · exact (passes_of_read hread).chars

/-- However far a list of kinds gets, it stays in the text. -/
theorem chars_readAll (kinds : List Kind) (r : Reader) : (readAll kinds r).reader.chars = r.chars := by
  induction kinds generalizing r with
  | nil => rfl
  | cons kind kinds ih =>
    rcases hread : kind.read r with ⟨error | value, next⟩
    · -- the first kind fails
      simp only [readAll, hread]
      exact chars_read_error hread
    · -- the first kind is read, and the others go on from there
      have hrest := (ih next).trans (passes_of_read hread).chars
      rcases hall : readAll kinds next with ⟨error | values, last⟩ <;>
        simp only [readAll, hread, hall] <;> rwa [hall] at hrest

end Kind

end TextCommand

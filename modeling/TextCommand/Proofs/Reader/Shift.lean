import TextCommand.Proofs.Reader.Position

/-!
# Reading further on in a longer text

`r.after front` stands where `r` stands, in a text with `front` put before it.  It reads what `r`
reads: every position that comes out, of a reader or of an error, is the same one with the bytes of
`front` added.
-/

namespace TextCommand

/-- The same error at a position `n` bytes further on. -/
def ReadError.shift (n : Nat) (e : ReadError) : ReadError := { e with cursor := n + e.cursor }

/-- The same error; the position that it is about, if there is one, is `n` bytes further on. -/
def CommandError.shift (n : Nat) : CommandError → CommandError
  | .read e => .read (e.shift n)
  | .shape text cursor => .shape text (n + cursor)
  | .refused parser text cursor => .refused parser text (n + cursor)
  | .mismatch fault => .mismatch fault
  | .unknownCommand literal cursor => .unknownCommand literal (n + cursor)
  | .tooLong length limit => .tooLong length limit
  | .action text => .action text

namespace Reader

/-- The reader with `front` put before its text. -/
def after (front : List Char) (r : Reader) : Reader := ⟨front ++ r.passed, r.rest⟩

variable (front : List Char) (r : Reader)

@[simp] theorem rest_after : (r.after front).rest = r.rest := rfl

@[simp] theorem peek_after : (r.after front).peek = r.peek := rfl

@[simp] theorem canRead_after : (r.after front).canRead = r.canRead := rfl

@[simp] theorem cursor_after : (r.after front).cursor = byteLength front + r.cursor := by
  simp [after, cursor]

@[simp] theorem advance_after (n : Nat) : (r.after front).advance n = (r.advance n).after front := by
  simp [advance, after]

@[simp] theorem skip_after : (r.after front).skip = r.skip.after front := advance_after front r 1

@[simp] theorem skipBlank_after : (r.after front).skipBlank = r.skipBlank.after front :=
  advance_after front r _

@[simp] theorem toEnd_after : (r.after front).toEnd = r.toEnd.after front := by
  simp [toEnd, after, chars]

/-- A position in the longer text, counted from behind its front. -/
theorem atByte_append (front s : String) (n : Nat) :
    atByte (byteLength front.toList + n) (front ++ s) = (atByte n s).after front.toList := by
  simp only [atByte, moveTo, ofString, chars, List.nil_append, String.toList_append,
    splitAtByte_byteLength_add, after]

end Reader

/-- A reading with `front` put before the text; errors are shifted in their own way. -/
def Reading.after {ε α : Type} (shift : Nat → ε → ε) (front : List Char) (reading : Reading ε α) :
    Reading ε α :=
  ⟨reading.answer.mapError (shift (byteLength front)), reading.reader.after front⟩

section Reading

variable {ε α : Type} (shift : Nat → ε → ε) (front : List Char) (r : Reader)

@[simp] theorem Reading.after_ok (a : α) :
    Reading.after shift front ⟨.ok a, r⟩ = ⟨.ok a, r.after front⟩ := rfl

@[simp] theorem Reading.after_error (e : ε) :
    Reading.after (α := α) shift front ⟨.error e, r⟩ =
      ⟨.error (shift (byteLength front) e), r.after front⟩ := rfl

end Reading

/-! ### Tokens -/

namespace Reader

variable (front : List Char) (r : Reader)

theorem fail_after {α : Type} (fault : ReadFault) :
    (r.after front).fail (α := α) fault = (r.fail fault).after ReadError.shift front := by
  simp [fail, ReadError.shift]

theorem readWord_after : (r.after front).readWord = r.readWord.after ReadError.shift front := by
  unfold readWord
  rw [rest_after]
  split
  · exact fail_after front r _
  · simp

theorem readUntil_after (stop : Char) :
    (r.after front).readUntil stop = (r.readUntil stop).after ReadError.shift front := by
  unfold readUntil
  rw [rest_after]
  split
  · -- no stop in the text
    exact fail_after front r _
  · -- nothing in front of the stop
    exact fail_after front r _
  · simp

theorem readQuoted_after : (r.after front).readQuoted = r.readQuoted.after ReadError.shift front := by
  unfold readQuoted
  rw [peek_after]
  split
  · exact fail_after front r _
  · next quote _ =>
    split
    · rw [skip_after, readUntil_after]
      rcases r.skip.readUntil quote with ⟨e | text, next⟩
      · exact fail_after front r _
      · rfl
    · exact fail_after front r _

theorem readString_after : (r.after front).readString = r.readString.after ReadError.shift front := by
  unfold readString
  rw [peek_after]
  by_cases hquote : r.peek.any isQuote = true
  · rw [if_pos hquote, if_pos hquote]
    exact readQuoted_after front r
  · rw [if_neg hquote, if_neg hquote]
    exact readWord_after front r

theorem readScalar_after {α : Type} (scalar : Scalar) (decode : String → Option α) :
    (r.after front).readScalar scalar decode =
      (r.readScalar scalar decode).after ReadError.shift front := by
  unfold readScalar
  rw [readWord_after]
  rcases r.readWord with ⟨e | word, next⟩
  · exact fail_after front r _
  · simp only [Reading.after_ok]
    split
    · rfl
    · exact fail_after front r _

end Reader

/-! ### Arguments -/

namespace Kind

variable (front : List Char) (r : Reader)

theorem toValue_after {α : Type} (wrap : α → Value) (reading : Reading ReadError α) :
    (reading.after ReadError.shift front).toValue wrap =
      (reading.toValue wrap).after CommandError.shift front := by
  obtain ⟨e | a, next⟩ := reading <;> rfl

theorem readGreedy_after : readGreedy (r.after front) = (readGreedy r).after ReadError.shift front := by
  unfold readGreedy
  rw [Reader.canRead_after]
  by_cases hread : r.canRead = true
  · rw [if_pos hread, if_pos hread, Reader.rest_after, Reader.toEnd_after]
    rfl
  · rw [if_neg hread, if_neg hread]
    exact Reader.fail_after front r _

theorem readMode_after : readMode (r.after front) = (readMode r).after CommandError.shift front := by
  unfold readMode
  rw [Reader.readWord_after]
  rcases r.readWord with ⟨e | word, next⟩
  · rfl
  · simp only [Reading.after_ok]
    split
    · rfl
    · simp [CommandError.shift]

theorem readMessy_after : readMessy (r.after front) = (readMessy r).after CommandError.shift front := by
  unfold readMessy
  rw [Reader.readWord_after]
  rcases r.readWord with ⟨e | word, next⟩
  · rfl
  · simp only [Reading.after_ok]
    split
    · simp [CommandError.shift]
    · rfl

theorem read_after (kind : Kind) :
    kind.read (r.after front) = (kind.read r).after CommandError.shift front := by
  cases kind with
  | bool | int | long | float | double =>
    exact (congrArg _ (Reader.readScalar_after front r _ _)).trans (toValue_after front _ _)
  | string => exact (congrArg _ (Reader.readString_after front r)).trans (toValue_after front _ _)
  | greedy => exact (congrArg _ (readGreedy_after front r)).trans (toValue_after front _ _)
  | mode => exact readMode_after front r
  | messy => exact readMessy_after front r

theorem readAll_after (kinds : List Kind) :
    readAll kinds (r.after front) = (readAll kinds r).after CommandError.shift front := by
  induction kinds generalizing r with
  | nil => rfl
  | cons kind kinds ih =>
    simp only [readAll, read_after]
    rcases kind.read r with ⟨error | value, next⟩
    · -- the first kind fails
      rfl
    · -- the first kind is read
      simp only [Reading.after_ok, ih]
      rcases readAll kinds next with ⟨error | values, last⟩ <;> rfl

end Kind

end TextCommand

import TextCommand.Proofs.Reader.Offset

/-!
# Sequences of operations

Whatever operations follow each other, and whether they succeed or fail, the text stays the same and the
position a boundary of it: one operation keeps both, and so does any number of them.
-/

namespace TextCommand

/-- What moves a reader. -/
inductive Operation where
  | skip
  | skipBlank
  | moveTo (n : Nat)
  | readWord
  | readQuoted
  | readUntil (stop : Char)
  | readString
  | readBool
  | readInt
  | readLong
  | readFloat
  | readDouble
  | argument (kind : Kind)

namespace Operation

/-- The reader that an operation leaves behind, whether it succeeds or fails. -/
def perform : Operation → Reader → Reader
  | .skip, r => r.skip
  | .skipBlank, r => r.skipBlank
  | .moveTo n, r => r.moveTo n
  | .readWord, r => r.readWord.reader
  | .readQuoted, r => r.readQuoted.reader
  | .readUntil stop, r => (r.readUntil stop).reader
  | .readString, r => r.readString.reader
  | .readBool, r => r.readBool.reader
  | .readInt, r => r.readInt.reader
  | .readLong, r => r.readLong.reader
  | .readFloat, r => r.readFloat.reader
  | .readDouble, r => r.readDouble.reader
  | .argument kind, r => (kind.read r).reader

open OffsetReader in
def perform? : Operation → OffsetReader → Option OffsetReader
  | .skip, b => b.skip?
  | .skipBlank, b => b.skipWhile? Text.isBlank
  | .moveTo n, b => some (b.moveTo n)
  | .readWord, b => b.readWord?.map Prod.snd
  | .readQuoted, b => b.readQuoted?.map Prod.snd
  | .readUntil stop, b => (b.readUntil? stop).map Prod.snd
  | .readString, b => b.readString?.map Prod.snd
  | .readBool, b => (b.readScalar? .bool decodeBool?).map Prod.snd
  | .readInt, b => (b.readScalar? .int Number.readInt32?).map Prod.snd
  | .readLong, b => (b.readScalar? .long Number.readInt64?).map Prod.snd
  | .readFloat, b => (b.readScalar? .float (Number.readBinary? .single)).map Prod.snd
  | .readDouble, b => (b.readScalar? .double (Number.readBinary? .double)).map Prod.snd
  | .argument kind, b => (b.readValue? kind).map Prod.snd

def performAll (operations : List Operation) (r : Reader) : Reader :=
  operations.foldl (fun r operation => operation.perform r) r

def performAll? (operations : List Operation) (b : OffsetReader) : Option OffsetReader :=
  operations.foldlM (fun b operation => operation.perform? b) b

open OffsetReader in
theorem perform?_toOffset (operation : Operation) (r : Reader) :
    operation.perform? r.toOffset = some (operation.perform r).toOffset := by
  cases operation with
  | skip => exact skip?_toOffset r
  | skipBlank => exact skipWhile?_toOffset r Text.isBlank
  | moveTo n => exact congrArg some (moveTo_toOffset r n)
  | readWord => rw [perform?, readWord?_toOffset]; rfl
  | readQuoted => rw [perform?, readQuoted?_toOffset]; rfl
  | readUntil stop => rw [perform?, readUntil?_toOffset]; rfl
  | readString => rw [perform?, readString?_toOffset]; rfl
  | readBool | readInt | readLong | readFloat | readDouble =>
    rw [perform?, readScalar?_toOffset]
    rfl
  | argument kind => rw [perform?, readValue?_toOffset]; rfl

/-- No operation changes the text. -/
theorem chars_perform (operation : Operation) (r : Reader) :
    (operation.perform r).chars = r.chars := by
  cases operation with
  | skip => exact Reader.chars_advance 1 r
  | skipBlank => exact Reader.chars_skipBlank r
  | moveTo n => exact Reader.chars_moveTo n r
  | readWord => exact Reader.contract_readWord.chars r
  | readQuoted => exact Reader.contract_readQuoted.chars r
  | readUntil stop => exact (Reader.contract_readUntil stop).chars r
  | readString => exact Reader.contract_readString.chars r
  | readBool | readInt | readLong | readFloat | readDouble =>
    exact (Reader.contract_readScalar _ _).chars r
  | argument kind => exact Kind.chars_read kind r

theorem performAll?_toOffset (operations : List Operation) (r : Reader) :
    performAll? operations r.toOffset = some (performAll operations r).toOffset := by
  induction operations generalizing r with
  | nil => rfl
  | cons operation operations ih =>
    rw [performAll?, List.foldlM_cons, perform?_toOffset]
    exact ih (operation.perform r)

theorem chars_performAll (operations : List Operation) (r : Reader) :
    (performAll operations r).chars = r.chars := by
  induction operations generalizing r with
  | nil => rfl
  | cons operation operations ih => exact (ih (operation.perform r)).trans (chars_perform operation r)

end Operation

open Operation in
/-- **Every operation stays on a boundary.**  A byte offset put anywhere into a text and moved by any
operations, succeeding or failing, meets no slice that goes wrong and is left where the reader is: at a
boundary, with the whole text in front of it and behind it.  Moving to any number of bytes finds the
greatest boundary that is not above it and not behind the end. -/
theorem operations_keep_boundary (s : String) (start : Nat) (operations : List Operation) :
    let r := performAll operations (.atByte start s)
    let b : OffsetReader := ⟨s, r.cursor⟩
    performAll? operations (OffsetReader.moveTo start ⟨s, 0⟩) = some b ∧
      r.chars = s.toList ∧ r.totalLength = s.utf8ByteSize ∧
      r.cursor ≤ r.totalLength ∧ IsBoundary s r.cursor ∧
      r.remainingLength + r.cursor = r.totalLength ∧
      (∃ front back, b.consumed? = some front ∧ b.remaining? = some back ∧ front ++ back = s) ∧
      ∀ n, b.moveTo n = ⟨s, (r.moveTo n).cursor⟩ ∧
        IsFloor s (min n r.totalLength) (r.moveTo n).cursor := by
  intro r b
  have hstart : OffsetReader.moveTo start ⟨s, 0⟩ = (Reader.atByte start s).toOffset := by
    have h := OffsetReader.moveTo_toOffset (.ofString s) start
    rwa [Reader.toOffset, Reader.text, Reader.chars, Reader.ofString, List.nil_append,
      String.ofList_toList] at h
  have hchars : r.chars = s.toList :=
    (chars_performAll operations (.atByte start s)).trans (Reader.chars_moveTo start (.ofString s))
  have htext : r.text = s := by rw [Reader.text, hchars, String.ofList_toList]
  have hoffset : r.toOffset = b := by rw [Reader.toOffset, htext]
  refine ⟨?_, hchars, ?_, r.cursor_le_totalLength, ?_, ?_, ?_, fun n => ⟨?_, ?_⟩⟩
  · rw [hstart, performAll?_toOffset, hoffset]
  · rw [← r.utf8ByteSize_text, htext]
  · exact htext ▸ r.isBoundary_cursor
  · rw [Nat.add_comm, r.cursor_add_remainingLength]
  · refine ⟨_, _, ?_, ?_, r.passed_append_rest.trans htext⟩
    · rw [← hoffset, OffsetReader.consumed?_toOffset]
    · rw [← hoffset, OffsetReader.remaining?_toOffset]
  · rw [← hoffset, OffsetReader.moveTo_toOffset, Reader.toOffset, Reader.text, Reader.chars_moveTo,
      hchars, String.ofList_toList]
  · exact htext ▸ r.moveTo_isFloor n

end TextCommand

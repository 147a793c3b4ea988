import TextCommand.Proofs.Reader.Boundary
import TextCommand.Proofs.Reader.Contract

/-!
# Readers kept as byte offsets

An `OffsetReader` is a text and a number of bytes, moved by loops that slice the text at the offset
again and again; a slice anywhere but at a boundary ends the run without an answer.  Each operation of
`Reader` is written once more in this way, and always has an answer, which is that of `Reader`.
-/

namespace TextCommand

/-- A text and a byte offset, which nothing but the operations keeps on a boundary. -/
structure OffsetReader where
  text : String
  offset : Nat

namespace OffsetReader

/-- What an operation answers and leaves behind. -/
abbrev Answer (ε α : Type) := Except ε α × OffsetReader

/-! ### Moving -/

/-- The first boundary met on the way down from an offset. -/
def snap (text : String) : Nat → Nat
  | 0 => 0
  | n + 1 => if IsBoundary text (n + 1) then n + 1 else snap text n

def moveTo (n : Nat) (b : OffsetReader) : OffsetReader :=
  { b with offset := snap b.text (min n b.text.utf8ByteSize) }

def consumed? (b : OffsetReader) : Option String := slice? b.text 0 b.offset

def remaining? (b : OffsetReader) : Option String := slice? b.text b.offset b.text.utf8ByteSize

/-- The next character, if any, of what remains. -/
def peek? (b : OffsetReader) : Option (Option Char) := b.remaining?.map (·.toList.head?)

/-- The offset goes on by the bytes of a character. -/
def step (c : Char) (b : OffsetReader) : OffsetReader := { b with offset := b.offset + c.utf8Size }

def skip? (b : OffsetReader) : Option OffsetReader :=
  b.peek?.map fun
    | some c => b.step c
    | none => b

/-- Where a character comes next, the text goes on behind the offset. -/
theorem offset_lt_of_peek? {b : OffsetReader} {c : Char} (h : b.peek? = some (some c)) :
    b.offset < b.text.utf8ByteSize := by
  obtain ⟨s, hs, hc⟩ := Option.map_eq_some_iff.mp h
  unfold remaining? slice? at hs
  split at hs
  · next hslice =>
    refine Nat.lt_of_le_of_ne hslice.1 fun heq => ?_
    have hempty : s.toByteArray = ByteArray.empty := by
      rw [← Option.some.inj hs, String.toByteArray_extract, String.offset_pos, String.offset_pos,
        ← heq, ByteArray.extract_same]
    obtain rfl : s = "" := String.toByteArray_inj.mp hempty
    cases hc
  · cases hs

theorem step_lt {b : OffsetReader} {c : Char} (h : b.peek? = some (some c)) :
    (b.step c).text.utf8ByteSize - (b.step c).offset < b.text.utf8ByteSize - b.offset := by
  have hlt := offset_lt_of_peek? h
  have hpos := c.utf8Size_pos
  simp only [step]
  omega

def skipWhile? (p : Char → Bool) (b : OffsetReader) : Option OffsetReader :=
  match _h : b.peek? with
  | none => none
  | some none => some b
  | some (some c) => if p c then skipWhile? p (b.step c) else some b
termination_by b.text.utf8ByteSize - b.offset
decreasing_by exact step_lt _h

/-! ### Tokens -/

def readWord? (b : OffsetReader) : Option (Answer ReadError String) := do
  let next ← b.skipWhile? isBare
  if next.offset = b.offset then return (.error ⟨.expectedString, b.offset⟩, next)
  let word ← slice? b.text b.offset next.offset
  let next ← next.skipWhile? Text.isBlank
  return (.ok word, next)

/-- Reads on towards an unescaped `stop`, with the text read so far and whether the last character was an
escaping backslash; a failure goes back to `start`. -/
def scan? (stop : Char) (start : Nat) (text : List Char) (escaped : Bool) (b : OffsetReader) :
    Option (Answer ReadError String) :=
  match _h : b.peek? with
  | none => none
  | some none =>
    some (.error ⟨if escaped then .unfinishedEscape else .unclosedQuote stop, start⟩,
      { b with offset := start })
  | some (some c) =>
    if escaped then scan? stop start (text ++ [c]) false (b.step c)
    else if c = '\\' then scan? stop start text true (b.step c)
    else if c = stop then
      if text = [] then some (.error ⟨.expectedString, start⟩, { b with offset := start })
      else ((b.step c).skipWhile? Text.isBlank).map fun next => (.ok (String.ofList text), next)
    else scan? stop start (text ++ [c]) false (b.step c)
termination_by b.text.utf8ByteSize - b.offset
decreasing_by all_goals exact step_lt _h

def readUntil? (stop : Char) (b : OffsetReader) : Option (Answer ReadError String) :=
  b.scan? stop b.offset [] false

def readQuoted? (b : OffsetReader) : Option (Answer ReadError String) := do
  match ← b.peek? with
  | none => return (.error ⟨.expectedQuote, b.offset⟩, b)
  | some quote =>
    if isQuote quote then
      let inside ← b.skip?
      match ← inside.readUntil? quote with
      | (.ok text, next) => return (.ok text, next)
      | (.error e, next) => return (.error ⟨e.fault, b.offset⟩, { next with offset := b.offset })
    else return (.error ⟨.expectedQuote, b.offset⟩, b)

def readString? (b : OffsetReader) : Option (Answer ReadError String) := do
  match ← b.peek? with
  | none => b.readWord?
  | some c => if isQuote c then b.readQuoted? else b.readWord?

def readScalar? {α : Type} (scalar : Scalar) (decode : String → Option α) (b : OffsetReader) :
    Option (Answer ReadError α) := do
  match ← b.readWord? with
  | (.error _, next) => return (.error ⟨.expectedScalar scalar, b.offset⟩, next)
  | (.ok word, next) =>
    match decode word with
    | some value => return (.ok value, next)
    | none => return (.error ⟨.invalidScalar scalar word, b.offset⟩, { next with offset := b.offset })

/-! ### Arguments -/

/-- A read of plain text as a step in reading a command. -/
def toValue {α : Type} (wrap : α → Value) : Answer ReadError α → Answer CommandError Value
  | (.ok a, next) => (.ok (wrap a), next)
  | (.error e, next) => (.error (.read e), next)

def readGreedy? (b : OffsetReader) : Option (Answer ReadError String) := do
  if b.offset < b.text.utf8ByteSize then
    let rest ← b.remaining?
    return (.ok rest, b.moveTo b.text.utf8ByteSize)
  else return (.error ⟨.expectedString, b.offset⟩, b)

def readMode? (b : OffsetReader) : Option (Answer CommandError Value) := do
  match ← b.readWord? with
  | (.error e, next) => return (.error (.read e), next)
  | (.ok word, next) =>
    match Game.Mode.ofName? word with
    | some m => return (.ok (.mode m), next)
    | none =>
      return (.error (.refused Kind.mode.name s!"Unknown game mode '{word}'" b.offset),
        next.moveTo b.offset)

def readMessy? (b : OffsetReader) : Option (Answer CommandError Value) := do
  match ← b.readWord? with
  | (.error e, next) => return (.error (.read e), next)
  | (.ok word, next) =>
    if "bad".toList.isPrefixOf word.toList then
      return (.error (.refused Kind.messy.name s!"rejected '{word}'" next.offset), next)
    else return (.ok (.text word), next)

def readValue? : Kind → OffsetReader → Option (Answer CommandError Value)
  | .bool, b => (b.readScalar? .bool decodeBool?).map (toValue .bool)
  | .int, b => (b.readScalar? .int Number.readInt32?).map (toValue .int)
  | .long, b => (b.readScalar? .long Number.readInt64?).map (toValue .long)
  | .float, b => (b.readScalar? .float (Number.readBinary? .single)).map (toValue .float)
  | .double, b => (b.readScalar? .double (Number.readBinary? .double)).map (toValue .double)
  | .string, b => b.readString?.map (toValue .text)
  | .greedy, b => b.readGreedy?.map (toValue .text)
  | .mode, b => b.readMode?
  | .messy, b => b.readMessy?

end OffsetReader

/-! ### The same answers -/

/-- The reader as a text and an offset. -/
def Reader.toOffset (r : Reader) : OffsetReader := ⟨r.text, r.cursor⟩

/-- The answer, and the reader left behind as a text and an offset. -/
def Reading.toOffset {ε α : Type} (reading : Reading ε α) : OffsetReader.Answer ε α :=
  (reading.answer, reading.reader.toOffset)

namespace OffsetReader

open Reader

section Agreement

variable (r : Reader)

theorem snap_isFloor (text : String) (n : Nat) : IsFloor text n (snap text n) := by
  induction n with
  | zero => exact ⟨String.Pos.Raw.isValid_zero, Nat.le_refl 0, fun m _ hm => hm⟩
  | succ n ih =>
    rw [snap]
    split
    · next hboundary => exact ⟨hboundary, Nat.le_refl _, fun m _ hm => hm⟩
    · next hboundary =>
      -- `n + 1` is no boundary, so the one below is still the greatest
      refine ⟨ih.boundary, Nat.le_succ_of_le ih.le, fun m hm hle => ?_⟩
      rcases Nat.eq_or_lt_of_le hle with rfl | hlt
      · exact absurd hm hboundary
      · exact ih.greatest m hm (Nat.le_of_lt_succ hlt)

/-- Another position in the same text. -/
theorem toOffset_eq {left : Reader} (h : left.chars = r.chars) :
    { left.toOffset with offset := r.cursor } = r.toOffset := by
  simp only [toOffset, Reader.text, h]

theorem moveTo_toOffset (n : Nat) : r.toOffset.moveTo n = (r.moveTo n).toOffset := by
  have hfloor := snap_isFloor r.text (min n r.text.utf8ByteSize)
  rw [utf8ByteSize_text] at hfloor
  have htext : (r.moveTo n).text = r.text := by rw [Reader.text, chars_moveTo, ← Reader.text]
  simp only [moveTo, toOffset, utf8ByteSize_text, hfloor.eq (r.moveTo_isFloor n), htext]

theorem consumed?_toOffset : r.toOffset.consumed? = some (String.ofList r.passed) := r.slice?_passed

theorem remaining?_toOffset : r.toOffset.remaining? = some (String.ofList r.rest) := by
  rw [remaining?, toOffset, utf8ByteSize_text]
  exact r.slice?_rest

theorem peek?_toOffset : r.toOffset.peek? = some r.peek := by
  rw [peek?, remaining?_toOffset, Option.map_some, String.toList_ofList, peek]

/-- One character further on. -/
theorem step_toOffset (passed rest : List Char) (c : Char) :
    (Reader.mk passed (c :: rest)).toOffset.step c = (Reader.mk (passed ++ [c]) rest).toOffset := by
  simp [step, toOffset, Reader.text, chars, cursor]

theorem skip?_toOffset : r.toOffset.skip? = some r.skip.toOffset := by
  obtain ⟨passed, rest⟩ := r
  rw [skip?, peek?_toOffset, Option.map_some]
  cases rest with
  | nil => simp [peek, skip, advance]
  | cons c cs => exact congrArg some (step_toOffset passed cs c)

theorem skipWhile?_toOffset (p : Char → Bool) :
    r.toOffset.skipWhile? p = some (r.skipWhile p).toOffset := by
  obtain ⟨passed, rest⟩ := r
  induction rest generalizing passed with
  | nil =>
    rw [skipWhile?]
    -- of the two branches one is left, as nothing comes next
    split <;> rename_i hpeek <;> rw [peek?_toOffset] at hpeek <;> cases hpeek
    simp [skipWhile, advance]
  | cons c cs ih =>
    rw [skipWhile?]
    split <;> rename_i hpeek <;> rw [peek?_toOffset] at hpeek <;> cases hpeek
    rw [step_toOffset, ih]
    by_cases hc : p c <;> simp [hc, skipWhile, advance]

theorem readWord?_toOffset : r.toOffset.readWord? = some r.readWord.toOffset := by
  rw [readWord?, skipWhile?_toOffset, readWord_eq]
  simp only [Option.bind_eq_bind, Option.bind_some, Option.pure_def]
  by_cases hword : r.rest.takeWhile isBare = []
  · -- no word: the offset has not moved
    have hskip : r.skipWhile isBare = r := by simp [skipWhile, advance, hword]
    rw [if_pos hword, hskip, if_pos rfl]
    rfl
  · -- the word is the slice between the two offsets
    have hrest : r.rest ≠ [] := by
      intro hrest
      simp [hrest] at hword
    have hne : (r.skipWhile isBare).toOffset.offset ≠ r.toOffset.offset :=
      Nat.ne_of_gt (cursor_lt_advance (List.length_pos_iff.mpr hword) hrest)
    have hpassed : (r.skipWhile isBare).passed = r.passed ++ r.rest.takeWhile isBare :=
      congrArg (r.passed ++ ·) (take_length_takeWhile _ _)
    have hslice := slice?_ofList r.passed (r.rest.takeWhile isBare) (r.rest.dropWhile isBare)
    rw [List.takeWhile_append_dropWhile, ← hpassed] at hslice
    have hword' : slice? r.toOffset.text r.toOffset.offset (r.skipWhile isBare).toOffset.offset =
        some (String.ofList (r.rest.takeWhile isBare)) := hslice
    rw [if_neg hword, if_neg hne, hword', Option.bind_some, skipWhile?_toOffset]
    rfl

/-! The text behind an escaping backslash begins with a character that is taken as it is. -/

/-- What is found from here on, where an escaping backslash may just have been passed. -/
def unescaped (stop : Char) : Bool → List Char → Except ReadFault (List Char × Nat)
  | false, cs => unescapeUntil stop cs
  | true, [] => .error .unfinishedEscape
  | true, c :: cs => (unescapeUntil stop cs).map fun (text, n) => (c :: text, n + 1)

theorem unescaped_cons (stop : Char) (escaped : Bool) (c : Char) (cs : List Char) :
    unescaped stop escaped (c :: cs) =
      if escaped then (unescaped stop false cs).map fun (text, n) => ([c] ++ text, n + 1)
      else if c = '\\' then (unescaped stop true cs).map fun (text, n) => ([] ++ text, n + 1)
      else if c = stop then .ok ([], 1)
      else (unescaped stop false cs).map fun (text, n) => ([c] ++ text, n + 1) := by
  cases escaped with
  | true => rfl
  | false =>
    by_cases hslash : c = '\\'
    · subst hslash
      cases cs with
      | nil => rfl
      | cons d cs =>
        simp only [unescaped, unescapeUntil]
        cases unescapeUntil stop cs <;> rfl
    · simp only [unescaped, unescapeUntil_cons hslash, if_neg hslash]
      rfl

/-- The end of a scan that began at `start` and has read some text up to `r`. -/
def finish (start r : Reader) (text : List Char) :
    Except ReadFault (List Char × Nat) → Reading ReadError String
  | .error fault => start.fail fault
  | .ok (tail, n) =>
    if text ++ tail = [] then start.fail .expectedString
    else ⟨.ok (String.ofList (text ++ tail)), (r.advance n).skipBlank⟩

/-- What a character adds to the text may be told before or after the rest is found. -/
theorem finish_map (start : Reader) (passed cs text front : List Char) (c : Char)
    (found : Except ReadFault (List Char × Nat)) :
    finish start ⟨passed ++ [c], cs⟩ (text ++ front) found =
      finish start ⟨passed, c :: cs⟩ text (found.map fun (tail, n) => (front ++ tail, n + 1)) := by
  cases found with
  | error fault => rfl
  | ok found =>
    obtain ⟨tail, n⟩ := found
    simp [finish, Except.map, advance]

/-- At the stop itself the text is what was read before. -/
theorem finish_stop (start : Reader) (passed cs text : List Char) (c : Char) :
    finish start ⟨passed, c :: cs⟩ text (.ok ([], 1)) =
      if text = [] then start.fail .expectedString
      else ⟨.ok (String.ofList text), (Reader.mk (passed ++ [c]) cs).skipBlank⟩ := by
  rw [finish, List.append_nil]
  rfl

theorem finish_eq_readUntil (stop : Char) :
    finish r r [] (unescapeUntil stop r.rest) = r.readUntil stop := by
  unfold readUntil
  split
  · next hfound => rw [hfound]; rfl
  · next hfound => rw [hfound]; rfl
  · next text n hne hfound =>
    rw [hfound, finish, List.nil_append, if_neg hne]

theorem scan?_nil (stop : Char) (start : Nat) (text : List Char) (escaped : Bool)
    (passed : List Char) :
    (Reader.mk passed []).toOffset.scan? stop start text escaped =
      some (.error ⟨if escaped then .unfinishedEscape else .unclosedQuote stop, start⟩,
        { (Reader.mk passed []).toOffset with offset := start }) := by
  rw [scan?]
  split <;> rename_i hpeek <;> rw [peek?_toOffset] at hpeek <;> cases hpeek

theorem scan?_cons (stop : Char) (start : Nat) (text : List Char) (escaped : Bool)
    (passed cs : List Char) (c : Char) :
    (Reader.mk passed (c :: cs)).toOffset.scan? stop start text escaped =
      if escaped then (Reader.mk (passed ++ [c]) cs).toOffset.scan? stop start (text ++ [c]) false
      else if c = '\\' then (Reader.mk (passed ++ [c]) cs).toOffset.scan? stop start text true
      else if c = stop then
        if text = [] then
          some (.error ⟨.expectedString, start⟩,
            { (Reader.mk passed (c :: cs)).toOffset with offset := start })
        else some (.ok (String.ofList text), (Reader.mk (passed ++ [c]) cs).skipBlank.toOffset)
      else (Reader.mk (passed ++ [c]) cs).toOffset.scan? stop start (text ++ [c]) false := by
  rw [scan?]
  split <;> rename_i hpeek <;> rw [peek?_toOffset] at hpeek <;> cases hpeek
  rw [step_toOffset, skipWhile?_toOffset, Option.map_some]
  rfl

/-- A scan ends as the rest of the text tells. -/
theorem scan?_toOffset (stop : Char) (start : Reader) (text : List Char) (escaped : Bool)
    (hr : r.chars = start.chars) :
    r.toOffset.scan? stop start.cursor text escaped =
      some (finish start r text (unescaped stop escaped r.rest)).toOffset := by
  obtain ⟨passed, rest⟩ := r
  induction rest generalizing passed text escaped with
  | nil =>
    rw [scan?_nil, toOffset_eq start hr]
    cases escaped <;> rfl
  | cons c cs ih =>
    have hnext : (Reader.mk (passed ++ [c]) cs).chars = start.chars := by
      rw [← hr]
      exact List.append_assoc _ _ _
    -- the next state, behind an escaping backslash and behind any other character
    have hslash := ih text true _ hnext
    have hchar := ih (text ++ [c]) false _ hnext
    rw [← List.append_nil text, finish_map, List.append_nil] at hslash
    rw [finish_map] at hchar
    rw [scan?_cons, unescaped_cons, hslash, hchar, toOffset_eq start hr]
    split
    · -- `c` is escaped
      rfl
    · split
      · -- `c` is a backslash that escapes
        rfl
      · split
        · -- `c` is the stop
          rw [finish_stop]
          split <;> rfl
        · -- `c` is part of the text
          rfl

theorem readUntil?_toOffset (stop : Char) :
    r.toOffset.readUntil? stop = some (r.readUntil stop).toOffset := by
  rw [← finish_eq_readUntil]
  exact scan?_toOffset r stop r [] false rfl

theorem readQuoted?_toOffset : r.toOffset.readQuoted? = some r.readQuoted.toOffset := by
  rw [readQuoted?, peek?_toOffset, readQuoted]
  simp only [Option.bind_eq_bind, Option.bind_some, Option.pure_def]
  cases r.peek with
  | none => rfl
  | some quote =>
    by_cases hquote : isQuote quote
    · simp only [hquote, if_true, skip?_toOffset, Option.bind_some, readUntil?_toOffset]
      rcases hread : r.skip.readUntil quote with ⟨e | text, next⟩
      · -- the read behind the quote fails, and the offset goes back to the quote
        have hchars : next.chars = r.chars := by
          rw [((contract_readUntil quote).failed hread).1]
          exact chars_advance 1 r
        exact congrArg (fun left => some (_, left)) (toOffset_eq r hchars)
      · rfl
    · -- no quote
      simp only [hquote]
      rfl

theorem readString?_toOffset : r.toOffset.readString? = some r.readString.toOffset := by
  rw [readString?, peek?_toOffset, readString]
  simp only [Option.bind_eq_bind, Option.bind_some]
  cases r.peek with
  | none => exact readWord?_toOffset r
  | some c =>
    by_cases hquote : isQuote c
    · simpa [hquote] using readQuoted?_toOffset r
    · simpa [hquote] using readWord?_toOffset r

theorem readScalar?_toOffset {α : Type} (scalar : Scalar) (decode : String → Option α) :
    r.toOffset.readScalar? scalar decode = some (r.readScalar scalar decode).toOffset := by
  rw [readScalar?, readWord?_toOffset, readScalar]
  simp only [Option.bind_eq_bind, Option.bind_some, Option.pure_def]
  rcases hword : r.readWord with ⟨e | word, next⟩
  · rw [eq_of_readWord_error hword]
    rfl
  · simp only [Reading.toOffset]
    cases decode word with
    | some value => rfl
    | none =>
      -- the offset goes back in front of the word that is refused
      exact congrArg (fun left => some (_, left)) (toOffset_eq r (passes_of_readWord hword).chars)

theorem toValue_toOffset {α : Type} (wrap : α → Value) (reading : Reading ReadError α) :
    toValue wrap reading.toOffset = (reading.toValue wrap).toOffset := by
  obtain ⟨e | a, next⟩ := reading <;> rfl

/-- The offset is in front of the end as long as a character is left. -/
theorem offset_lt_toOffset_iff :
    r.toOffset.offset < r.toOffset.text.utf8ByteSize ↔ r.canRead = true := by
  have hend := r.cursor_eq_totalLength_iff
  have hle := r.cursor_le_totalLength
  simp only [toOffset, utf8ByteSize_text, canRead, Bool.not_eq_true', List.isEmpty_eq_false_iff,
    ne_eq, ← hend]
  omega

theorem readGreedy?_toOffset : r.toOffset.readGreedy? = some (Kind.readGreedy r).toOffset := by
  have hmore := offset_lt_toOffset_iff r
  rw [readGreedy?, Kind.readGreedy]
  by_cases hread : r.canRead
  · have hlast : r.toOffset.moveTo r.toOffset.text.utf8ByteSize = r.toEnd.toOffset := by
      have hend : r.moveTo r.totalLength = r.toEnd :=
        moveTo_cursor (r := r.toEnd) (List.append_nil _).symm
      have hsize : r.toOffset.text.utf8ByteSize = r.totalLength := r.utf8ByteSize_text
      rw [hsize, moveTo_toOffset, hend]
    rw [if_pos (hmore.mpr hread), if_pos hread, remaining?_toOffset, hlast]
    rfl
  · rw [if_neg (mt hmore.mp hread), if_neg hread]
    rfl

theorem readMode?_toOffset : r.toOffset.readMode? = some (Kind.readMode r).toOffset := by
  rw [readMode?, readWord?_toOffset, Kind.readMode]
  simp only [Option.bind_eq_bind, Option.bind_some, Option.pure_def]
  rcases hword : r.readWord with ⟨e | word, next⟩
  · rfl
  · simp only [Reading.toOffset]
    cases Game.Mode.ofName? word with
    | some m => rfl
    | none =>
      have hback : next.toOffset.moveTo r.toOffset.offset = r.toOffset := by
        rw [moveTo_toOffset]
        exact congrArg toOffset (moveTo_cursor (passes_of_readWord hword).chars)
      simp only [hback]
      rfl

theorem readMessy?_toOffset : r.toOffset.readMessy? = some (Kind.readMessy r).toOffset := by
  rw [readMessy?, readWord?_toOffset, Kind.readMessy]
  simp only [Option.bind_eq_bind, Option.bind_some, Option.pure_def]
  rcases r.readWord with ⟨e | word, next⟩
  · rfl
  · simp only [Reading.toOffset]
    split <;> rfl

theorem readValue?_toOffset (kind : Kind) :
    r.toOffset.readValue? kind = some (kind.read r).toOffset := by
  cases kind with
  | bool | int | long | float | double =>
    rw [readValue?, readScalar?_toOffset, Option.map_some, toValue_toOffset]
    rfl
  | string =>
    rw [readValue?, readString?_toOffset, Option.map_some, toValue_toOffset]
    rfl
  | greedy =>
    rw [readValue?, readGreedy?_toOffset, Option.map_some, toValue_toOffset]
    rfl
  | mode => exact readMode?_toOffset r
  | messy => exact readMessy?_toOffset r

end Agreement

end OffsetReader

end TextCommand

import TextCommand.Proofs.Reader.Position

/-!
# Character boundaries

A byte offset into a text is a boundary if the bytes in front of it are whole characters, which is what
the library's `IsValid` says; only between two boundaries can a text be sliced.  A reader stands at a
boundary, its two parts are the slices there, and moving it to an offset takes it to the greatest
boundary that is not above.
-/

namespace TextCommand

/-- The offset lies between two characters of the text, or at one of its ends. -/
abbrev IsBoundary (text : String) (offset : Nat) : Prop := (String.Pos.Raw.mk offset).IsValid text

/-- The part of a text between two byte offsets; there is none unless both are boundaries, in order. -/
def slice? (text : String) (start stop : Nat) : Option String :=
  if h : start ≤ stop ∧ IsBoundary text start ∧ IsBoundary text stop then
    some (text.extract (text.pos ⟨start⟩ h.2.1) (text.pos ⟨stop⟩ h.2.2))
  else none

theorem utf8ByteSize_ofList (cs : List Char) : (String.ofList cs).utf8ByteSize = byteLength cs := by
  induction cs with
  | nil => rfl
  | cons c cs ih =>
    rw [String.ofList_cons, String.utf8ByteSize_append, String.utf8ByteSize_singleton, ih,
      byteLength_cons]

theorem isBoundary_ofList_iff {cs : List Char} {n : Nat} :
    IsBoundary (String.ofList cs) n ↔ ∃ front back, cs = front ++ back ∧ byteLength front = n := by
  rw [IsBoundary, String.Pos.Raw.isValid_ofList]
  constructor
  · rintro ⟨i, hi⟩
    rw [utf8ByteSize_ofList] at hi
    exact ⟨cs.take i, cs.drop i, (List.take_append_drop i cs).symm, hi.symm⟩
  · rintro ⟨front, back, rfl, rfl⟩
    exact ⟨front.length, by rw [List.take_left, utf8ByteSize_ofList]⟩

/-- The slice between the ends of some characters is those characters. -/
theorem slice?_ofList (front middle back : List Char) :
    slice? (String.ofList (front ++ (middle ++ back))) (byteLength front)
      (byteLength (front ++ middle)) = some (String.ofList middle) := by
  have hsize : ∀ cs, byteLength cs = (String.ofList cs).toByteArray.size := fun cs => by
    rw [← utf8ByteSize_ofList, String.size_toByteArray]
  have hstart : IsBoundary (String.ofList (front ++ (middle ++ back))) (byteLength front) :=
    isBoundary_ofList_iff.mpr ⟨front, middle ++ back, rfl, rfl⟩
  have hstop : IsBoundary (String.ofList (front ++ (middle ++ back))) (byteLength (front ++ middle)) :=
    isBoundary_ofList_iff.mpr ⟨front ++ middle, back, (List.append_assoc _ _ _).symm, rfl⟩
  have hle : byteLength front ≤ byteLength (front ++ middle) := by
    rw [byteLength_append]
    exact Nat.le_add_right _ _
  rw [slice?, dif_pos ⟨hle, hstart, hstop⟩]
  refine congrArg some (String.toByteArray_inj.mp ?_)
  -- the bytes of the middle are those between the sizes of the front and of both
  have hbytes := ByteArray.extract_append_size_add (a := (String.ofList front).toByteArray)
    (b := (String.ofList middle).toByteArray ++ (String.ofList back).toByteArray) (i := 0)
    (j := (String.ofList middle).toByteArray.size)
  rw [Nat.add_zero, ByteArray.extract_append_eq_left rfl] at hbytes
  simpa only [String.toByteArray_extract, String.offset_pos, String.ofList_append,
    String.toByteArray_append, ByteArray.size_append, hsize] using hbytes

/-! ### The greatest boundary below -/

theorem byteLength_splitAtByte_le (n : Nat) (cs : List Char) :
    byteLength (splitAtByte n cs).1 ≤ n := by
  induction cs generalizing n with
  | nil => exact Nat.zero_le n
  | cons c cs ih =>
    rw [splitAtByte]
    split
    · next hle =>
      have hrest := ih (n - c.utf8Size)
      rw [byteLength_cons]
      omega
    · exact Nat.zero_le n

/-- Whatever characters fit into the first bytes, splitting there takes at least as many. -/
theorem le_byteLength_splitAtByte {n : Nat} {front : List Char} (hfront : byteLength front ≤ n)
    (back : List Char) : byteLength front ≤ byteLength (splitAtByte n (front ++ back)).1 := by
  obtain ⟨m, rfl⟩ := Nat.exists_eq_add_of_le hfront
  rw [splitAtByte_byteLength_add, byteLength_append]
  exact Nat.le_add_right _ _

/-- `offset` is the greatest boundary of the text that is not above `n`. -/
structure IsFloor (text : String) (n offset : Nat) : Prop where
  boundary : IsBoundary text offset
  le : offset ≤ n
  greatest : ∀ m, IsBoundary text m → m ≤ n → m ≤ offset

theorem IsFloor.eq {text : String} {n a b : Nat} (ha : IsFloor text n a) (hb : IsFloor text n b) :
    a = b :=
  Nat.le_antisymm (hb.greatest a ha.boundary ha.le) (ha.greatest b hb.boundary hb.le)

namespace Reader

/-- The text of a reader, in which its position is a byte offset. -/
def text (r : Reader) : String := String.ofList r.chars

variable (r : Reader)

theorem utf8ByteSize_text : r.text.utf8ByteSize = r.totalLength := utf8ByteSize_ofList r.chars

theorem isBoundary_cursor : IsBoundary r.text r.cursor :=
  isBoundary_ofList_iff.mpr ⟨r.passed, r.rest, rfl, rfl⟩

theorem cursor_le_totalLength : r.cursor ≤ r.totalLength := by
  rw [← cursor_add_remainingLength]
  exact Nat.le_add_right _ _

theorem slice?_passed : slice? r.text 0 r.cursor = some (String.ofList r.passed) :=
  slice?_ofList [] r.passed r.rest

theorem slice?_rest : slice? r.text r.cursor r.totalLength = some (String.ofList r.rest) := by
  have h := slice?_ofList r.passed r.rest []
  rwa [List.append_nil] at h

/-- The two slices at the position of a reader are what has been passed and what is left. -/
theorem passed_append_rest : String.ofList r.passed ++ String.ofList r.rest = r.text :=
  String.ofList_append.symm

theorem moveTo_isFloor (n : Nat) : IsFloor r.text (min n r.totalLength) (r.moveTo n).cursor := by
  have hchars : (r.moveTo n).chars = r.chars := chars_moveTo n r
  refine ⟨?_, Nat.le_min.mpr ⟨byteLength_splitAtByte_le n r.chars, ?_⟩, ?_⟩
  · have h := (r.moveTo n).isBoundary_cursor
    rwa [text, hchars] at h
  · have h := (r.moveTo n).cursor_le_totalLength
    rwa [totalLength, hchars] at h
  · -- a boundary is the end of some front, and all of that front fits in
    intro m hm hle
    obtain ⟨front, back, hcut, rfl⟩ := isBoundary_ofList_iff.mp hm
    rw [cursor, moveTo, hcut]
    exact le_byteLength_splitAtByte (Nat.le_trans hle (Nat.min_le_left _ _)) back

example : (Reader.atByte 2 "aé").cursor = 1 := by decide

end Reader

end TextCommand

import TextCommand.Proofs.Number.Integer
import TextCommand.Proofs.Reader.Spelling

/-!
# Values as they are written

Truth values, integers and modes are bare words, a text is spelled like any word, and what a greedy
argument takes stands there as it is.  Each kind reads its written values back, and a list of kinds
reads a list of them, as long as blanks stand where a word would run on.
-/

namespace TextCommand

/-- How a value of a kind is written. -/
inductive Written : Kind → Value → List Char → Prop
  | bool (b : Bool) : Written .bool (.bool b) (toString b).toList
  | int (n : Int32) : Written .int (.int n) (toString n.toInt).toList
  | long (n : Int64) : Written .long (.long n) (toString n.toInt).toList
  | string {word : String} {written : List Char} (hne : word ≠ "")
      (hword : Spelling word written) : Written .string (.text word) written
  | mode (m : Game.Mode) : Written .mode (.mode m) m.name.toList
  | greedy {text : String} (hne : text ≠ "")
      (hstart : ∀ c ∈ text.toList.head?, Text.isBlank c = false) :
      Written .greedy (.text text) text.toList

/-! ### Bare words -/

theorem isBare_of_isDigit {c : Char} (h : c.isDigit = true) : isBare c = true := by
  simp [isBare, Char.isAlphanum, h]

theorem toString_int_bare (n : Int) : ∀ c ∈ (toString n).toList, isBare c = true := by
  intro c hc
  have hdigit : c ∈ Nat.toDigits 10 n.natAbs → isBare c = true := fun h =>
    isBare_of_isDigit (Nat.isDigit_of_mem_toDigits (by decide) (by decide) h)
  rw [Number.toList_toString] at hc
  split at hc
  · -- a minus in front of the digits
    rcases List.mem_cons.mp hc with rfl | h
    · decide
    · exact hdigit h
  · exact hdigit hc

theorem toString_int_ne_empty (n : Int) : toString n ≠ "" := by
  intro h
  have hlist := congrArg String.toList h
  rw [Number.toList_toString] at hlist
  split at hlist
  · cases hlist
  · exact Nat.toDigits_ne_nil hlist

theorem toString_bool_bare (b : Bool) : ∀ c ∈ (toString b).toList, isBare c = true := by
  cases b <;> exact List.all_eq_true.mp rfl

theorem toString_bool_ne_empty (b : Bool) : toString b ≠ "" := by
  cases b <;> decide

theorem decodeBool?_toString (b : Bool) : decodeBool? (toString b) = some b := by
  cases b <;> rfl

theorem mode_name_bare (m : Game.Mode) : ∀ c ∈ m.name.toList, isBare c = true := by
  cases m <;> exact List.all_eq_true.mp rfl

theorem mode_name_ne_empty (m : Game.Mode) : m.name ≠ "" := by
  cases m <;> decide

/-! ### Reading one value -/

section Read

variable {gap rest : List Char} (hblank : ∀ c ∈ gap, Text.isBlank c = true)
  (hrest : ∀ c ∈ rest.head?, Text.isBlank c = false)
include hblank hrest

theorem Reader.readScalar_of_stop (hstop : ∀ c ∈ (gap ++ rest).head?, isBare c = false)
    (passed : List Char) {α : Type} {scalar : Scalar} {decode : String → Option α} {word : String}
    {a : α} (hne : word ≠ "") (hbare : ∀ c ∈ word.toList, isBare c = true)
    (hdecode : decode word = some a) :
    (Reader.mk passed (word.toList ++ (gap ++ rest))).readScalar scalar decode =
      ⟨.ok a, ⟨passed ++ (word.toList ++ gap), rest⟩⟩ := by
  simp only [readScalar, readWord_of_stop hblank hrest hstop passed hne hbare, hdecode]

/-- A greedy value must be the last thing in the text; any other is quoted, or nothing behind it goes on
with it. -/
theorem Kind.read_written {kind : Kind} {value : Value} {written : List Char}
    (hstop : written.head?.any isQuote = true ∨ ∀ c ∈ (gap ++ rest).head?, isBare c = false)
    (passed : List Char) (hvalue : Written kind value written)
    (hgreedy : kind = .greedy → gap = [] ∧ rest = []) :
    kind.read ⟨passed, written ++ (gap ++ rest)⟩ =
      ⟨.ok value, ⟨passed ++ (written ++ gap), rest⟩⟩ := by
  cases hvalue with
  | bool b =>
    have hstop := stop_of_bare (toString_bool_bare b) hstop
    simp only [Kind.read, Reader.readBool, Reader.readScalar_of_stop hblank hrest hstop passed
      (toString_bool_ne_empty b) (toString_bool_bare b) (decodeBool?_toString b), Reading.toValue]
  | int n =>
    have hstop := stop_of_bare (toString_int_bare n.toInt) hstop
    simp only [Kind.read, Reader.readInt, Reader.readScalar_of_stop hblank hrest hstop passed
      (toString_int_ne_empty n.toInt) (toString_int_bare n.toInt) (Number.readInt32?_toString n),
      Reading.toValue]
  | long n =>
    have hstop := stop_of_bare (toString_int_bare n.toInt) hstop
    simp only [Kind.read, Reader.readLong, Reader.readScalar_of_stop hblank hrest hstop passed
      (toString_int_ne_empty n.toInt) (toString_int_bare n.toInt) (Number.readInt64?_toString n),
      Reading.toValue]
  | string hne hword =>
    simp only [Kind.read, Reader.readString_of_stop hblank hrest hstop passed hne hword,
      Reading.toValue]
  | mode m =>
    have hstop := stop_of_bare (mode_name_bare m) hstop
    simp only [Kind.read, Kind.readMode, Reader.readWord_of_stop hblank hrest hstop passed
      (mode_name_ne_empty m) (mode_name_bare m), Game.Mode.ofName?_name]
  | @greedy text hne hstart =>
    -- nothing stands behind a greedy value
    obtain ⟨rfl, rfl⟩ := hgreedy rfl
    have hread : (Reader.mk passed text.toList).canRead = true := by
      cases hcs : text.toList with
      | nil => exact absurd (String.toList_eq_nil_iff.mp hcs) hne
      | cons c cs => rfl
    simp only [Kind.read, Kind.readGreedy, hread, if_true, Reading.toValue, Reader.toEnd,
      Reader.chars, List.append_nil, String.ofList_toList]

end Read

theorem Reader.readScalar_bare {gap rest : List Char} (h : Separates gap rest) (passed : List Char)
    {α : Type} {scalar : Scalar} {decode : String → Option α} {word : String} {a : α}
    (hne : word ≠ "") (hbare : ∀ c ∈ word.toList, isBare c = true) (hdecode : decode word = some a) :
    (Reader.mk passed (word.toList ++ (gap ++ rest))).readScalar scalar decode =
      ⟨.ok a, ⟨passed ++ (word.toList ++ gap), rest⟩⟩ :=
  readScalar_of_stop h.blank h.settled h.head?_not_bare passed hne hbare hdecode

/-! ### Reading several values -/

/-- Something written in a line, and the blanks behind it. -/
structure Item where
  written : List Char
  gap : List Char

/-- The items as they stand in a line. -/
def Item.line (items : List Item) : List Char := items.flatMap fun item => item.written ++ item.gap

/-- All gaps are blanks, and there is no gap without any but at the very end. -/
def Item.Spaced : List Item → Prop
  | [] => True
  | item :: items =>
    (∀ c ∈ item.gap, Text.isBlank c = true) ∧ (item.gap = [] → items = []) ∧ Spaced items

/-- The item is a quoted string. -/
def Item.isQuoted (item : Item) : Bool := item.written.head?.any isQuote

/-- All gaps are blanks.  One without any blank is at the very end, behind a quoted string, or in front of
something that begins with no character of a word. -/
def Item.Parted : List Item → Prop
  | [] => True
  | item :: items =>
    (∀ c ∈ item.gap, Text.isBlank c = true) ∧
      (item.gap = [] → item.isQuoted = true ∨ ∀ c ∈ (line items).head?, isBare c = false) ∧
      Parted items

/-- The item starts, and with no blank. -/
def Item.Starts (item : Item) : Prop := ∃ c cs, item.written = c :: cs ∧ Text.isBlank c = false

/-- How a list of values is written; only the last may be greedy, and then no blanks follow. -/
inductive WrittenAll : List Kind → List Value → List Item → Prop
  | nil : WrittenAll [] [] []
  | cons {kind : Kind} {kinds : List Kind} {value : Value} {values : List Value} {item : Item}
      {items : List Item} (hvalue : Written kind value item.written)
      (hgreedy : kind = .greedy → kinds = [] ∧ item.gap = [])
      (hall : WrittenAll kinds values items) :
      WrittenAll (kind :: kinds) (value :: values) (item :: items)

namespace Item

theorem line_cons (item : Item) (items : List Item) :
    line (item :: items) = item.written ++ (item.gap ++ line items) := by
  simp [line]

theorem line_append (items items' : List Item) : line (items ++ items') = line items ++ line items' :=
  List.flatMap_append

theorem line_not_blank {items : List Item} (h : ∀ item ∈ items, item.Starts) :
    ∀ c ∈ (line items).head?, Text.isBlank c = false := by
  cases items with
  | nil => simp [line]
  | cons item items =>
    obtain ⟨c, cs, hwritten, hc⟩ := h item (by simp)
    rw [line_cons, hwritten]
    intro d hd
    cases hd
    exact hc

theorem Spaced.parted {items : List Item} (h : Spaced items) : Parted items := by
  induction items with
  | nil => trivial
  | cons item items ih =>
    obtain ⟨hblank, hgap, hspaced⟩ := h
    refine ⟨hblank, fun hnil => .inr ?_, ih hspaced⟩
    rw [hgap hnil]
    simp [line]

/-- No word goes on behind an item that is not quoted. -/
theorem Parted.stop {item : Item} {items : List Item} (h : Parted (item :: items)) :
    item.isQuoted = true ∨ ∀ c ∈ (item.gap ++ line items).head?, isBare c = false := by
  obtain ⟨hblank, hgap, -⟩ := h
  cases hitem : item.gap with
  | nil => exact hgap hitem
  | cons c cs =>
    refine .inr fun d hd => ?_
    cases hd
    exact isBare_of_isBlank (hblank c (by rw [hitem]; exact List.mem_cons_self))

/-- The gap behind an item keeps it apart from the items that follow. -/
theorem separates_of_spaced {item : Item} {items : List Item} (h : Spaced (item :: items))
    (hstarts : ∀ item ∈ items, item.Starts) : Separates item.gap (line items) := by
  obtain ⟨hblank, hgap, -⟩ := h
  refine ⟨hblank, line_not_blank hstarts, fun hnil => ?_⟩
  rw [hgap hnil]
  rfl

end Item

/-- What writes a value starts with no blank. -/
theorem Written.starts {kind : Kind} {value : Value} {item : Item}
    (h : Written kind value item.written) : item.Starts := by
  have hbare : ∀ {word : String}, word ≠ "" → (∀ c ∈ word.toList, isBare c = true) →
      ∃ c cs, word.toList = c :: cs ∧ Text.isBlank c = false :=
    fun hne hbare => (Spelling.bare hbare).head?_not_blank hne
  unfold Item.Starts
  generalize item.written = written at h
  cases h with
  | bool b => exact hbare (toString_bool_ne_empty b) (toString_bool_bare b)
  | int n | long n => exact hbare (toString_int_ne_empty _) (toString_int_bare _)
  | string hne hword => exact hword.head?_not_blank hne
  | mode m => exact hbare (mode_name_ne_empty m) (mode_name_bare m)
  | @greedy text hne hstart =>
    cases hcs : text.toList with
    | nil => exact absurd (String.toList_eq_nil_iff.mp hcs) hne
    | cons c cs => exact ⟨c, cs, rfl, hstart c (by rw [hcs]; rfl)⟩

theorem WrittenAll.starts {kinds : List Kind} {values : List Value} {items : List Item}
    (h : WrittenAll kinds values items) : ∀ item ∈ items, item.Starts := by
  induction h with
  | nil => simp
  | cons hvalue hgreedy hall ih =>
    intro item hitem
    rcases List.mem_cons.mp hitem with rfl | hitem
    · exact hvalue.starts
    · exact ih item hitem

/-- A list of kinds reads the values that are written, to the end of the text. -/
theorem Kind.readAll_written {kinds : List Kind} {values : List Value} {items : List Item}
    (h : WrittenAll kinds values items) (hparted : Item.Parted items) (passed : List Char) :
    readAll kinds ⟨passed, Item.line items⟩ = ⟨.ok values, ⟨passed ++ Item.line items, []⟩⟩ := by
  induction h generalizing passed with
  | nil => simp [readAll, Item.line]
  | @cons kind kinds value values item items hvalue hgreedy hall ih =>
    -- a greedy value ends the list, and with it the line
    have hend : kind = .greedy → item.gap = [] ∧ Item.line items = [] := by
      intro hkind
      obtain ⟨hkinds, hgap⟩ := hgreedy hkind
      subst hkinds
      cases hall
      exact ⟨hgap, rfl⟩
    have hread := Kind.read_written hparted.1 (Item.line_not_blank hall.starts) hparted.stop passed
      hvalue hend
    rw [Item.line_cons]
    simp only [readAll, hread, ih hparted.2.2, List.append_assoc]

end TextCommand

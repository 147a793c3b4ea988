import TextCommand.Proofs.Argument.Written
import TextCommand.Proofs.Reader.Contract

/-!
# What a read takes out of the text

Every token is an `Item` of the line that it is read from: the characters that it takes up, quotes and
backslashes included, and the blanks that are passed behind them.  Where no blank is passed, the token
is a quoted string, or what comes next could not go on with it.
-/

namespace TextCommand

/-! ### Items that begin like words -/

/-- The item begins like a word. -/
def Item.startsBare (item : Item) : Bool := item.written.head?.any isBare

theorem Item.exists_of_startsBare {item : Item} (h : item.startsBare = true) :
    ∃ c cs, item.written = c :: cs ∧ isBare c = true := by
  obtain ⟨written, gap⟩ := item
  cases written with
  | nil => cases h
  | cons c cs => exact ⟨c, cs, rfl, h⟩

/-- Between items that all begin like words there are blanks. -/
theorem Item.Parted.spaced {items : List Item} (h : Parted items)
    (hbare : ∀ item ∈ items, item.startsBare = true) : Spaced items := by
  induction items with
  | nil => trivial
  | cons item items ih =>
    obtain ⟨hblank, hgap, hparted⟩ := h
    obtain ⟨hitem, hitems⟩ := List.forall_mem_cons.mp hbare
    refine ⟨hblank, fun hnil => ?_, ih hparted hitems⟩
    rcases hgap hnil with hquoted | hnext
    · -- what begins like a word is not quoted
      obtain ⟨c, cs, hwritten, hc⟩ := exists_of_startsBare hitem
      have hquote : isQuote c = true := by simpa [isQuoted, hwritten] using hquoted
      rw [isQuote_of_isBare hc] at hquote
      cases hquote
    · -- the next item begins like a word, so only a blank could keep it apart
      cases items with
      | nil => rfl
      | cons next items =>
        obtain ⟨c, cs, hwritten, hc⟩ := exists_of_startsBare (hitems next List.mem_cons_self)
        rw [hnext c (by rw [line_cons, hwritten]; rfl)] at hc
        cases hc

namespace Reader

/-- What is left of the text is made of these items. -/
structure MadeOf (r : Reader) (items : List Item) : Prop where
  line : Item.line items = r.rest
  starts : ∀ item ∈ items, item.Starts
  parted : Item.Parted items

/-- The item comes next and is read as a whole, up to `next`. -/
structure Takes (r : Reader) (item : Item) (next : Reader) : Prop where
  rest : r.rest = item.written ++ (item.gap ++ next.rest)
  nonempty : item.written ≠ []
  blank : ∀ c ∈ item.gap, Text.isBlank c = true
  ends : item.gap = [] → item.isQuoted = true ∨ ∀ c ∈ next.rest.head?, isBare c = false

variable {r next : Reader}

theorem madeOf_nil (h : r.rest = []) : r.MadeOf [] :=
  ⟨h.symm, List.forall_mem_nil _, trivial⟩

theorem Takes.madeOf {item : Item} {items : List Item} (h : r.Takes item next) (hr : r.Settled)
    (hitems : next.MadeOf items) : r.MadeOf (item :: items) := by
  obtain ⟨c, cs, hwritten⟩ := List.exists_cons_of_ne_nil h.nonempty
  have hc : Text.isBlank c = false := hr c (by rw [h.rest, hwritten]; rfl)
  refine ⟨?_, List.forall_mem_cons.mpr ⟨⟨c, cs, hwritten, hc⟩, hitems.starts⟩, ?_⟩
  · rw [Item.line_cons, hitems.line, h.rest]
  · exact ⟨h.blank, fun hgap => by rw [hitems.line]; exact h.ends hgap, hitems.parted⟩

/-! ### Tokens -/

/-- How many characters the next token takes up: a quoted string with its quotes, or a word. -/
def tokenLength (r : Reader) : Nat :=
  match r.rest with
  | [] => 0
  | c :: cs =>
    if isQuote c then
      match unescapeUntil c cs with
      | .ok (_, n) => n + 1
      | .error _ => 0
    else (r.rest.takeWhile isBare).length

/-- The next token as it stands in the text. -/
def tokenItem (r : Reader) : Item :=
  ⟨r.rest.take r.tokenLength, (r.rest.drop r.tokenLength).takeWhile Text.isBlank⟩

theorem takes_of_length {n : Nat} (hn : 0 < n) (hr : r.rest ≠ [])
    (hends : (r.rest.take n).head?.any isQuote = true ∨
      ∀ c ∈ (r.rest.drop n).head?, isBare c = false) :
    r.Takes ⟨r.rest.take n, (r.rest.drop n).takeWhile Text.isBlank⟩ (r.advance n).skipBlank := by
  have hrest : (r.advance n).skipBlank.rest = (r.rest.drop n).dropWhile Text.isBlank :=
    rest_skipBlank _
  refine ⟨?_, ?_, List.all_eq_true.mp List.all_takeWhile, fun hgap => ?_⟩
  · rw [hrest, List.takeWhile_append_dropWhile, List.take_append_drop]
  · obtain ⟨m, rfl⟩ := Nat.exists_eq_add_one.mpr hn
    obtain ⟨c, cs, hcs⟩ := List.exists_cons_of_ne_nil hr
    rw [hcs, List.take_succ_cons]
    exact List.cons_ne_nil _ _
  · have hall : (r.rest.drop n).dropWhile Text.isBlank = r.rest.drop n := by
      have happend := List.takeWhile_append_dropWhile (p := Text.isBlank) (l := r.rest.drop n)
      have hnil : (r.rest.drop n).takeWhile Text.isBlank = [] := hgap
      rwa [hnil, List.nil_append] at happend
    rw [hrest, hall]
    exact hends

theorem takes_of_readString {word : String} (h : r.readString = ⟨.ok word, next⟩) :
    r.Takes r.tokenItem next := by
  have hr := rest_ne_nil_of_readString h
  obtain ⟨c, cs, hrest⟩ := List.exists_cons_of_ne_nil hr
  have hpeek : r.peek = some c := by rw [peek, hrest]; rfl
  cases hquote : isQuote c with
  | true =>
    -- a quoted string takes up its quotes and what is between them
    have hread : r.readQuoted = ⟨.ok word, next⟩ := by simpa [readString, hpeek, hquote] using h
    simp only [readQuoted, hpeek, hquote, if_true] at hread
    split at hread
    · next text left huntil =>
      cases hread
      unfold readUntil at huntil
      have hskip : r.skip.rest = cs := by simp [skip, advance, hrest]
      rw [hskip] at huntil
      split at huntil
      · -- no stop in the text
        cases huntil
      · -- nothing in front of the stop
        cases huntil
      · next text n _ hscan =>
        cases huntil
        have hlength : r.tokenLength = n + 1 := by simp [tokenLength, hrest, hquote, hscan]
        rw [skip_advance, tokenItem, hlength]
        exact takes_of_length (Nat.succ_pos n) hr (.inl (by simpa [hrest] using hquote))
    · cases hread
  | false =>
    -- a word takes up all the characters that can be part of it
    have hread : r.readWord = ⟨.ok word, next⟩ := by simpa [readString, hpeek, hquote] using h
    rw [readWord_eq] at hread
    split at hread
    · cases hread
    · next hword =>
      cases hread
      have hlength : r.tokenLength = (r.rest.takeWhile isBare).length := by
        simp [tokenLength, hrest, hquote]
      rw [tokenItem, hlength]
      refine takes_of_length (List.length_pos_iff.mpr hword) hr (.inr ?_)
      -- and so the next character is none of them
      intro d hd
      rw [drop_length_takeWhile] at hd
      have hnot := List.head?_dropWhile_not isBare r.rest
      rw [Option.mem_def.mp hd] at hnot
      exact hnot

end Reader

/-! ### Arguments -/

namespace Kind

/-- What an argument takes up in the text. -/
def item : Kind → Reader → Item
  | .greedy, r => ⟨r.rest, []⟩
  | _, r => r.tokenItem

/-- What the arguments take up, one after the other. -/
def items : List Kind → Reader → List Item
  | [], _ => []
  | kind :: kinds, r => kind.item r :: items kinds (kind.read r).reader

variable {r next : Reader}

theorem item_of_ne_greedy {kind : Kind} (hkind : kind ≠ .greedy) (r : Reader) :
    kind.item r = r.tokenItem := by
  cases kind with
  | greedy => exact absurd rfl hkind
  | bool | int | long | float | double | string | mode | messy => rfl

theorem takes_of_read {kind : Kind} {value : Value} (h : kind.read r = ⟨.ok value, next⟩) :
    r.Takes (kind.item r) next := by
  by_cases hkind : kind = .greedy
  · -- the greedy kind takes all that is left
    subst hkind
    have hnext : next.rest = [] := rest_of_read_greedy h
    exact ⟨by simp [item, hnext], rest_ne_nil_of_read h, List.forall_mem_nil _,
      fun _ => .inr (by simp [hnext])⟩
  · -- any other takes the next token
    obtain ⟨word, hword, -⟩ := (read_eq_ok_iff hkind).mp h
    rw [item_of_ne_greedy hkind]
    exact Reader.takes_of_readString (readString_of_token hword)

/-- Arguments that are read up to the end of the text are all that was left of it. -/
theorem madeOf_items {kinds : List Kind} {values : List Value}
    (h : readAll kinds r = ⟨.ok values, next⟩) (hr : r.Settled) (hend : next.rest = []) :
    r.MadeOf (items kinds r) := by
  induction kinds generalizing r values with
  | nil =>
    cases h
    exact Reader.madeOf_nil hend
  | cons kind kinds ih =>
    obtain ⟨value, rest, mid, hread, hall, -⟩ := readAll_cons_eq_ok_iff.mp h
    have hmid := ih hall (passes_of_read hread).settled
    rw [items, hread]
    exact (takes_of_read hread).madeOf hr hmid

end Kind

end TextCommand

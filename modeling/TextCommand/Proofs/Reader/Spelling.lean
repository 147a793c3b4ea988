import TextCommand.Proofs.Reader.Settled

/-!
# Words as they are written

A word is spelled bare, if its characters allow that, or between quotes with backslashes in front of
what would end it.  Whatever spelling is chosen, and however many blanks follow, the reader gets the
word back and stands behind the blanks.
-/

namespace TextCommand

/-- The text with a backslash in front of every backslash and of every `quote`. -/
def escape (quote : Char) : List Char → List Char
  | [] => []
  | c :: cs =>
    if c = '\\' ∨ c = quote then '\\' :: c :: escape quote cs else c :: escape quote cs

/-- The ways to write a word. -/
inductive Spelling (word : String) : List Char → Prop
  | bare (hbare : ∀ c ∈ word.toList, isBare c = true) : Spelling word word.toList
  | quoted (quote : Char) (hquote : isQuote quote = true) :
      Spelling word (quote :: (escape quote word.toList ++ [quote]))

/-- Blanks that keep what was written before them apart from what is written behind them. -/
structure Separates (gap rest : List Char) : Prop where
  blank : ∀ c ∈ gap, Text.isBlank c = true
  settled : ∀ c ∈ rest.head?, Text.isBlank c = false
  kept : gap = [] → rest = []

/-! ### Characters -/

/-- The ranges of the ASCII letters and digits. -/
theorem isAlphanum_eq (c : Char) :
    c.isAlphanum = ((decide (c.val ≥ 65 ∧ c.val ≤ 90) || (c.val ≥ 97 && c.val ≤ 122)) ||
      (c.val ≥ 48 && c.val ≤ 57)) := rfl

theorem isBare_of_isBlank {c : Char} (h : Text.isBlank c = true) : isBare c = false := by
  have hne : ∀ d : Char, Text.isBlank d = false → (c == d) = false := by
    intro d hd
    refine beq_eq_false_iff_ne.mpr fun hcd => ?_
    rw [hcd, hd] at h
    cases h
  have halphanum : c.isAlphanum = false := by
    -- the code points of letters and digits lie in none of the ranges of the blanks
    rw [isAlphanum_eq]
    simp [Text.isBlank, Text.blankRanges] at h
    simp [UInt32.le_iff_toNat_le]
    omega
  simp only [isBare, halphanum, hne '_' (by decide), hne '-' (by decide), hne '.' (by decide),
    hne '+' (by decide), Bool.or_self]

theorem isBlank_of_isBare {c : Char} (h : isBare c = true) : Text.isBlank c = false := by
  cases hblank : Text.isBlank c with
  | false => rfl
  | true =>
    rw [isBare_of_isBlank hblank] at h
    cases h

theorem isQuote_iff {c : Char} : isQuote c = true ↔ c = '\x22' ∨ c = '\x27' := by
  simp [isQuote]

theorem isBlank_of_isQuote {c : Char} (h : isQuote c = true) : Text.isBlank c = false := by
  rcases isQuote_iff.mp h with rfl | rfl <;> decide

theorem isQuote_of_isBare {c : Char} (h : isBare c = true) : isQuote c = false := by
  cases hquote : isQuote c with
  | false => rfl
  | true => rcases isQuote_iff.mp hquote with rfl | rfl <;> exact absurd h (by decide)

/-- A word that is written bare begins with no quote. -/
theorem head?_not_quote {word : String} (hbare : ∀ c ∈ word.toList, isBare c = true) :
    word.toList.head?.any isQuote = false := by
  cases hcs : word.toList with
  | nil => rfl
  | cons c cs => exact isQuote_of_isBare (hbare c (by simp [hcs]))

theorem stop_of_bare {word : String} {p : Prop} (hbare : ∀ c ∈ word.toList, isBare c = true)
    (h : word.toList.head?.any isQuote = true ∨ p) : p :=
  h.resolve_left (by simp [head?_not_quote hbare])

/-! ### Reading back what was escaped -/

theorem unescapeUntil_cons {stop c : Char} (hc : c ≠ '\\') (cs : List Char) :
    unescapeUntil stop (c :: cs) =
      if c = stop then .ok ([], 1)
      else (unescapeUntil stop cs).map fun (text, n) => (c :: text, n + 1) := by
  rw [unescapeUntil]
  · exact fun h _ => hc h
  · exact fun _ _ h _ => hc h

/-- A text is nothing, a backslash with nothing behind it, a backslash with the character that it escapes, or
begins with another character. -/
@[elab_as_elim]
theorem escaped_induction {motive : List Char → Prop} (nil : motive []) (dangling : motive ['\\'])
    (escape : ∀ c cs, motive cs → motive ('\\' :: c :: cs))
    (plain : ∀ c cs, c ≠ '\\' → motive cs → motive (c :: cs)) (cs : List Char) : motive cs := by
  fun_induction unescapeUntil '\\' cs with
  | case1 => exact nil
  | case2 => exact dangling
  | case3 c cs ih => exact escape c cs ih
  | case4 cs hlast hmore =>
    cases cs with
    | nil => exact (hlast rfl rfl).elim
    | cons c cs => exact (hmore c cs rfl rfl).elim
  | case5 c cs hlast hmore hne ih => exact plain c cs hne ih

/-- Up to an unescaped stop that follows, the escaped text reads as the text itself. -/
theorem unescapeUntil_escape {stop : Char} (hstop : stop ≠ '\\') (text rest : List Char) :
    unescapeUntil stop (escape stop text ++ stop :: rest) =
      .ok (text, (escape stop text).length + 1) := by
  induction text with
  | nil => rw [escape, List.nil_append, unescapeUntil_cons hstop, if_pos rfl]; rfl
  | cons c cs ih =>
    by_cases hc : c = '\\' ∨ c = stop
    · -- an escaped character takes two
      rw [escape, if_pos hc, List.cons_append, List.cons_append, unescapeUntil, ih]
      rfl
    · -- any other character stands for itself
      obtain ⟨hslash, hne⟩ := not_or.mp hc
      rw [escape, if_neg hc, List.cons_append, unescapeUntil_cons hslash, if_neg hne, ih]
      rfl

/-! ### Reading with something behind -/

/-- A run of word characters ends where something else comes next. -/
theorem takeWhile_isBare {word back : List Char} (hword : ∀ c ∈ word, isBare c = true)
    (hback : ∀ c ∈ back.head?, isBare c = false) : (word ++ back).takeWhile isBare = word := by
  rw [List.takeWhile_append_of_pos hword]
  cases back with
  | nil => simp
  | cons c cs =>
    have hc : isBare c = false := hback c rfl
    rw [List.takeWhile_cons_of_neg (by simp [hc]), List.append_nil]

/-- No word goes on into the blanks. -/
theorem Separates.head?_not_bare {gap rest : List Char} (h : Separates gap rest) :
    ∀ c ∈ (gap ++ rest).head?, isBare c = false := by
  cases gap with
  | nil => simp [h.kept rfl]
  | cons c cs =>
    intro d hd
    cases hd
    exact isBare_of_isBlank (h.blank c List.mem_cons_self)

namespace Reader

theorem advance_append (passed front back : List Char) :
    (Reader.mk passed (front ++ back)).advance front.length = ⟨passed ++ front, back⟩ := by
  simp [advance]

variable {gap rest : List Char}

theorem skipBlank_append (hblank : ∀ c ∈ gap, Text.isBlank c = true)
    (hrest : ∀ c ∈ rest.head?, Text.isBlank c = false) (passed : List Char) :
    (Reader.mk passed (gap ++ rest)).skipBlank = ⟨passed ++ gap, rest⟩ :=
  (skipBlank_blanks hblank passed rest).trans (Settled.skipBlank_eq hrest)

section Blanks

variable (hblank : ∀ c ∈ gap, Text.isBlank c = true)
  (hrest : ∀ c ∈ rest.head?, Text.isBlank c = false)
include hblank hrest

/-- A bare word is read as a whole if nothing that is behind it goes on with it. -/
theorem readWord_of_stop (hstop : ∀ c ∈ (gap ++ rest).head?, isBare c = false) (passed : List Char)
    {word : String} (hne : word ≠ "") (hbare : ∀ c ∈ word.toList, isBare c = true) :
    (Reader.mk passed (word.toList ++ (gap ++ rest))).readWord =
      ⟨.ok word, ⟨passed ++ (word.toList ++ gap), rest⟩⟩ := by
  have htake := takeWhile_isBare hbare hstop
  unfold readWord
  split
  · next hnil =>
    rw [htake] at hnil
    exact absurd (String.toList_eq_nil_iff.mp hnil) hne
  · rw [htake, advance_append, skipBlank_append hblank hrest, String.ofList_toList, List.append_assoc]

theorem readUntil_escape (passed : List Char) {stop : Char}
    (hstop : stop ≠ '\\') {word : String} (hne : word ≠ "") :
    (Reader.mk passed (escape stop word.toList ++ stop :: (gap ++ rest))).readUntil stop =
      ⟨.ok word, ⟨passed ++ (escape stop word.toList ++ stop :: gap), rest⟩⟩ := by
  have hread := unescapeUntil_escape hstop word.toList (gap ++ rest)
  have hadvance : (Reader.mk passed (escape stop word.toList ++ stop :: (gap ++ rest))).advance
      ((escape stop word.toList).length + 1) =
        ⟨passed ++ (escape stop word.toList ++ [stop]), gap ++ rest⟩ := by
    have := advance_append passed (escape stop word.toList ++ [stop]) (gap ++ rest)
    rwa [List.append_assoc, List.length_append] at this
  unfold readUntil
  split
  · next herror =>
    -- the stop is there, so the read does not fail
    rw [hread] at herror
    cases herror
  · next hempty =>
    -- nothing in front of the stop: the word would be empty
    rw [hread] at hempty
    injection hempty with hempty
    exact absurd (String.toList_eq_nil_iff.mp (congrArg Prod.fst hempty)) hne
  · next text n _ hok =>
    rw [hread] at hok
    injection hok with hok
    obtain ⟨rfl, rfl⟩ := Prod.mk.inj hok
    rw [hadvance, skipBlank_append hblank hrest, String.ofList_toList]
    simp only [List.append_assoc, List.cons_append, List.nil_append]

theorem readQuoted_escape (passed : List Char) {quote : Char}
    (hquote : isQuote quote = true) {word : String} (hne : word ≠ "") :
    (Reader.mk passed (quote :: (escape quote word.toList ++ quote :: (gap ++ rest)))).readQuoted =
      ⟨.ok word, ⟨passed ++ quote :: (escape quote word.toList ++ quote :: gap), rest⟩⟩ := by
  have hstop : quote ≠ '\\' := by
    rintro rfl
    exact absurd hquote (by decide)
  have hread := readUntil_escape hblank hrest (passed ++ [quote]) hstop hne
  simp only [readQuoted, peek, List.head?_cons, hquote, if_true, skip, advance, List.take_succ_cons,
    List.take_zero, List.drop_succ_cons, List.drop_zero, hread]
  simp only [List.append_assoc, List.cons_append, List.nil_append]

/-- Whatever its spelling, a word is read back, if it is quoted or nothing that is behind it goes on with
it. -/
theorem readString_of_stop {written : List Char}
    (hstop : written.head?.any isQuote = true ∨ ∀ c ∈ (gap ++ rest).head?, isBare c = false)
    (passed : List Char) {word : String} (hne : word ≠ "") (hword : Spelling word written) :
    (Reader.mk passed (written ++ (gap ++ rest))).readString =
      ⟨.ok word, ⟨passed ++ (written ++ gap), rest⟩⟩ := by
  cases hword with
  | bare hbare =>
    -- a bare word begins with no quote, so nothing behind it may go on with it
    have hquote := head?_not_quote hbare
    obtain ⟨c, cs, hcs⟩ := List.exists_cons_of_ne_nil (mt String.toList_eq_nil_iff.mp hne)
    have hpeek : (Reader.mk passed (word.toList ++ (gap ++ rest))).peek.any isQuote = false := by
      simpa [peek, hcs] using hquote
    rw [readString, hpeek]
    exact readWord_of_stop hblank hrest (stop_of_bare hbare hstop) passed hne hbare
  | quoted quote hquote =>
    have hread := readQuoted_escape hblank hrest passed hquote hne
    have hpeek : (Reader.mk passed (quote :: (escape quote word.toList ++ [quote]) ++
        (gap ++ rest))).peek.any isQuote = true := hquote
    rw [readString, hpeek, if_pos rfl]
    simpa only [List.append_assoc, List.cons_append, List.nil_append] using hread

end Blanks

end Reader

/-- What spells a word that is not empty starts with no blank. -/
theorem Spelling.head?_not_blank {word : String} {written : List Char} (hne : word ≠ "")
    (h : Spelling word written) : ∃ c cs, written = c :: cs ∧ Text.isBlank c = false := by
  cases h with
  | bare hbare =>
    cases hcs : word.toList with
    | nil => exact absurd (String.toList_eq_nil_iff.mp hcs) hne
    | cons c cs => exact ⟨c, cs, rfl, isBlank_of_isBare (hbare c (by simp [hcs]))⟩
  | quoted quote hquote => exact ⟨quote, _, rfl, isBlank_of_isQuote hquote⟩

end TextCommand

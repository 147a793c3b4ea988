import TextCommand.Argument.Read

/-!
# Readers that stand behind a finished read

A read that succeeds passes the blanks behind what it took, and nothing of the text is lost: the
reader it leaves is `Settled`, and holds the same characters.  This is shown once for every way to
take a token and for every kind of argument, and carried through whole argument lists.
-/

namespace TextCommand

namespace Reader

/-- No blank comes next. -/
def Settled (r : Reader) : Prop := ∀ c ∈ r.rest.head?, Text.isBlank c = false

/-- `next` is a later position in the text of `r`, with no blank in front of it. -/
structure Passes (r next : Reader) : Prop where
  chars : next.chars = r.chars
  settled : next.Settled

section Blanks

variable (r : Reader)

theorem drop_length_takeWhile (p : Char → Bool) (cs : List Char) :
    cs.drop (cs.takeWhile p).length = cs.dropWhile p := by
  have h := congrArg (List.drop (cs.takeWhile p).length) (List.takeWhile_append_dropWhile (p := p) (l := cs))
  rwa [List.drop_left, eq_comm] at h

theorem take_length_takeWhile (p : Char → Bool) (cs : List Char) :
    cs.take (cs.takeWhile p).length = cs.takeWhile p := by
  have h := congrArg (List.take (cs.takeWhile p).length) (List.takeWhile_append_dropWhile (p := p) (l := cs))
  rwa [List.take_left, eq_comm] at h

theorem passed_skipBlank : r.skipBlank.passed = r.passed ++ r.rest.takeWhile Text.isBlank :=
  congrArg (r.passed ++ ·) (take_length_takeWhile _ _)

theorem rest_skipBlank : r.skipBlank.rest = r.rest.dropWhile Text.isBlank :=
  drop_length_takeWhile _ _

@[simp] theorem chars_skipBlank : r.skipBlank.chars = r.chars := chars_advance _ r

/-- Blanks that come next are passed in any case. -/
theorem skipBlank_blanks {blanks : List Char} (h : ∀ c ∈ blanks, Text.isBlank c = true)
    (passed rest : List Char) :
    (mk passed (blanks ++ rest)).skipBlank = (mk (passed ++ blanks) rest).skipBlank := by
  simp only [skipBlank, skipWhile, advance, List.takeWhile_append_of_pos h, List.length_append,
    List.take_length_add_append, List.drop_length_add_append, List.append_assoc]

theorem settled_skipBlank : r.skipBlank.Settled := by
  intro c hc
  rw [rest_skipBlank] at hc
  have h := List.head?_dropWhile_not Text.isBlank r.rest
  rw [Option.mem_def.mp hc] at h
  exact h

theorem passes_skipBlank : r.Passes r.skipBlank := ⟨chars_skipBlank r, settled_skipBlank r⟩

variable {r}

/-- Where no blank comes next there is nothing to pass. -/
theorem Settled.skipBlank_eq (h : r.Settled) : r.skipBlank = r := by
  obtain ⟨passed, rest⟩ := r
  have hnone : rest.takeWhile Text.isBlank = [] := by
    cases rest with
    | nil => rfl
    | cons c cs => exact List.takeWhile_cons_of_neg (by simpa using h c rfl)
  simp [skipBlank, skipWhile, advance, hnone]

theorem Passes.trans {s t : Reader} (h : r.Passes s) (h' : s.Passes t) : r.Passes t :=
  ⟨h'.chars.trans h.chars, h'.settled⟩

/-- At the end of the text every character has been passed, and only there. -/
theorem cursor_eq_totalLength_iff : r.cursor = r.totalLength ↔ r.rest = [] := by
  have hsum := cursor_add_remainingLength r
  constructor
  · intro h
    cases hr : r.rest with
    | nil => rfl
    | cons c cs =>
      have hpos := c.utf8Size_pos
      simp only [remainingLength, hr, byteLength_cons] at hsum
      omega
  · intro h
    simpa [remainingLength, h] using hsum

end Blanks

/-! ### Tokens -/

section Tokens

variable {r next : Reader} {word : String}

theorem passes_of_readWord (h : r.readWord = ⟨.ok word, next⟩) : r.Passes next := by
  unfold readWord at h
  split at h
  · cases h
  · cases h
    have h := passes_skipBlank (r.advance (r.rest.takeWhile isBare).length)
    exact ⟨h.chars.trans (chars_advance _ r), h.settled⟩

theorem passes_of_readUntil {stop : Char} (h : r.readUntil stop = ⟨.ok word, next⟩) :
    r.Passes next := by
  unfold readUntil at h
  split at h
  · -- no stop in the text
    cases h
  · -- nothing in front of the stop
    cases h
  · cases h
    rename_i n _ _
    have h := passes_skipBlank (r.advance n)
    exact ⟨h.chars.trans (chars_advance n r), h.settled⟩

theorem passes_of_readQuoted (h : r.readQuoted = ⟨.ok word, next⟩) : r.Passes next := by
  unfold readQuoted at h
  split at h
  · cases h
  · split at h
    · split at h
      · next htext =>
        cases h
        have hp := passes_of_readUntil htext
        exact ⟨hp.chars.trans (chars_advance 1 r), hp.settled⟩
      · -- the read behind the quote fails
        cases h
    · -- no quote comes next
      cases h

theorem passes_of_readString (h : r.readString = ⟨.ok word, next⟩) : r.Passes next := by
  unfold readString at h
  split at h
  · exact passes_of_readQuoted h
  · exact passes_of_readWord h

theorem passes_of_readScalar {α : Type} {scalar : Scalar} {decode : String → Option α} {a : α}
    (h : r.readScalar scalar decode = ⟨.ok a, next⟩) : r.Passes next := by
  unfold readScalar at h
  split at h
  · cases h
  · next hword =>
    split at h
    · cases h
      exact passes_of_readWord hword
    · cases h

end Tokens

end Reader

namespace Kind

open Reader

variable {r next : Reader}

theorem of_toValue {α : Type} {wrap : α → Value} {reading : Reading ReadError α} {value : Value}
    (h : reading.toValue wrap = ⟨.ok value, next⟩) :
    ∃ a, reading = ⟨.ok a, next⟩ ∧ value = wrap a := by
  unfold Reading.toValue at h
  split at h
  · cases h
    exact ⟨_, rfl, rfl⟩
  · cases h

theorem passes_of_readGreedy {text : String} (h : readGreedy r = ⟨.ok text, next⟩) :
    r.Passes next := by
  unfold readGreedy at h
  split at h
  · cases h
    exact ⟨by simp [toEnd, Reader.chars], by simp [Settled, toEnd]⟩
  · cases h

theorem passes_of_readMode {value : Value} (h : readMode r = ⟨.ok value, next⟩) :
    r.Passes next := by
  unfold readMode at h
  split at h
  · cases h
  · next hword =>
    split at h
    · cases h
      exact passes_of_readWord hword
    · cases h

theorem passes_of_readMessy {value : Value} (h : readMessy r = ⟨.ok value, next⟩) :
    r.Passes next := by
  unfold readMessy at h
  split at h
  · cases h
  · next hword =>
    split at h
    · cases h
    · cases h
      exact passes_of_readWord hword

/-- Every kind of argument leaves a settled reader in the same text. -/
theorem passes_of_read {kind : Kind} {value : Value} (h : kind.read r = ⟨.ok value, next⟩) :
    r.Passes next := by
  cases kind with
  | bool | int | long | float | double =>
    obtain ⟨a, ha, -⟩ := of_toValue h
    exact passes_of_readScalar ha
  | string =>
    obtain ⟨a, ha, -⟩ := of_toValue h
    exact passes_of_readString ha
  | greedy =>
    obtain ⟨a, ha, -⟩ := of_toValue h
    exact passes_of_readGreedy ha
  | mode => exact passes_of_readMode h
  | messy => exact passes_of_readMessy h

/-- A list of kinds keeps the text, and a settled reader settled; an empty list moves nothing. -/
theorem passes_of_readAll {kinds : List Kind} {values : List Value}
    (h : readAll kinds r = ⟨.ok values, next⟩) (hr : r.Settled) : r.Passes next := by
  induction kinds generalizing r values with
  | nil =>
    cases h
    exact ⟨rfl, hr⟩
  | cons kind kinds ih =>
    unfold readAll at h
    split at h
    · cases h
    · next hread =>
      split at h
      · cases h
      · next hrest =>
        cases h
        -- the first kind settles the reader for those behind it
        have hp := passes_of_read hread
        exact hp.trans (ih hrest hp.settled)

end Kind

end TextCommand

import TextCommand.Proofs.Argument.Token

/-!
# A text that goes on behind what was read

What was read is read again if the text goes on with a blank: no token goes on into the blank, and
none looks behind its own end.  The reader is then left where it was left before, or, if that was
the end of the text, behind the blanks with which the text goes on.
-/

namespace TextCommand

/-- A blank comes first. -/
def StartsBlank (cs : List Char) : Prop := ∃ c ∈ cs.head?, Text.isBlank c = true

theorem StartsBlank.takeWhile_isBare {back : List Char} (h : StartsBlank back) (cs : List Char) :
    (cs ++ back).takeWhile isBare = cs.takeWhile isBare := by
  obtain ⟨c, hc, hblank⟩ := h
  have hback : back.takeWhile isBare = [] := by
    cases back with
    | nil => cases hc
    | cons d ds =>
      cases hc
      exact List.takeWhile_cons_of_neg (by simp [isBare_of_isBlank hblank])
  induction cs with
  | nil => exact hback
  | cons d ds ih =>
    rw [List.cons_append, List.takeWhile_cons, List.takeWhile_cons, ih]

/-- What stands behind the stop has no part in what stands in front of it. -/
theorem unescapeUntil_append {stop : Char} {cs text : List Char} {n : Nat}
    (h : unescapeUntil stop cs = .ok (text, n)) (back : List Char) :
    unescapeUntil stop (cs ++ back) = .ok (text, n) ∧ n ≤ cs.length := by
  induction cs using escaped_induction generalizing text n with
  | nil => cases h
  | dangling => cases h
  | escape c cs ih =>
    -- a backslash and the character that it escapes
    rw [unescapeUntil] at h
    cases hrest : unescapeUntil stop cs with
    | error fault =>
      rw [hrest] at h
      cases h
    | ok result =>
      obtain ⟨hback, hle⟩ := ih hrest
      rw [hrest] at h
      cases h
      rw [List.cons_append, List.cons_append, unescapeUntil, hback]
      exact ⟨rfl, Nat.add_le_add_right hle 2⟩
  | plain c cs hc ih =>
    rw [List.cons_append, unescapeUntil_cons hc]
    rw [unescapeUntil_cons hc] at h
    split at h
    · next hstop =>
      -- the stop itself
      cases h
      rw [if_pos hstop]
      exact ⟨rfl, Nat.le_add_left 1 cs.length⟩
    · next hstop =>
      -- any other character
      cases hrest : unescapeUntil stop cs with
      | error fault =>
        rw [hrest] at h
        cases h
      | ok result =>
        obtain ⟨hback, hle⟩ := ih hrest
        rw [hrest] at h
        cases h
        rw [if_neg hstop, hback]
        exact ⟨rfl, Nat.add_le_add_right hle 1⟩

namespace Reader

/-- The reader with `back` put behind its text. -/
def followedBy (back : List Char) (r : Reader) : Reader := ⟨r.passed, r.rest ++ back⟩

/-- Where a reader with no blank in front of it comes to stand if its text goes on with `back`. -/
def continued (back : List Char) (r : Reader) : Reader := (r.followedBy back).skipBlank

variable {back : List Char} {r next : Reader} {word : String}

theorem advance_followedBy {n : Nat} (h : n ≤ r.rest.length) :
    (r.followedBy back).advance n = (r.advance n).followedBy back := by
  simp only [advance, followedBy, List.take_append_of_le_length h, List.drop_append_of_le_length h]

/-- Blanks may be passed before the text goes on or after. -/
theorem continued_skipBlank (back : List Char) (r : Reader) :
    r.skipBlank.continued back = r.continued back := by
  have hblank : ∀ c ∈ r.rest.takeWhile Text.isBlank, Text.isBlank c = true :=
    List.all_eq_true.mp List.all_takeWhile
  have hrest : r.rest ++ back =
      r.rest.takeWhile Text.isBlank ++ (r.rest.dropWhile Text.isBlank ++ back) := by
    rw [← List.append_assoc, List.takeWhile_append_dropWhile]
  rw [continued, continued, followedBy, followedBy, hrest, skipBlank_blanks hblank, rest_skipBlank,
    passed_skipBlank]

/-- A reader that stands in front of something else than a blank stays there. -/
theorem Settled.continued_eq (h : r.Settled) (hrest : r.rest ≠ []) :
    r.continued back = r.followedBy back := by
  refine Settled.skipBlank_eq ?_
  intro c hc
  cases hcs : r.rest with
  | nil => exact absurd hcs hrest
  | cons d ds =>
    rw [followedBy, hcs] at hc
    exact h c (by rwa [hcs])

theorem settled_continued (back : List Char) (r : Reader) : (r.continued back).Settled :=
  settled_skipBlank _

/-! ### Tokens -/

theorem readWord_followedBy (hback : StartsBlank back) (h : r.readWord = ⟨.ok word, next⟩) :
    (r.followedBy back).readWord = ⟨.ok word, next.continued back⟩ := by
  -- the blank in front of `back` ends the word
  have htake : (r.followedBy back).rest.takeWhile isBare = r.rest.takeWhile isBare :=
    hback.takeWhile_isBare r.rest
  unfold readWord at h ⊢
  rw [htake]
  split at h
  · cases h
  · have hle := (List.takeWhile_prefix isBare (l := r.rest)).length_le
    cases h
    rw [advance_followedBy hle, continued_skipBlank]
    rfl

theorem readUntil_followedBy {stop : Char} (h : r.readUntil stop = ⟨.ok word, next⟩) :
    (r.followedBy back).readUntil stop = ⟨.ok word, next.continued back⟩ := by
  unfold readUntil at h ⊢
  split at h
  · cases h
  · cases h
  · next text n hne hread =>
    cases h
    obtain ⟨hback, hle⟩ := unescapeUntil_append hread back
    have hrest : (r.followedBy back).rest = r.rest ++ back := rfl
    rw [hrest, hback, continued_skipBlank]
    cases text with
    | nil => exact absurd rfl hne
    | cons c cs =>
      dsimp only
      rw [advance_followedBy hle]
      rfl

theorem peek_followedBy (hrest : r.rest ≠ []) : (r.followedBy back).peek = r.peek := by
  cases hcs : r.rest with
  | nil => exact absurd hcs hrest
  | cons c cs => simp [peek, followedBy, hcs]

theorem readQuoted_followedBy (hrest : r.rest ≠ []) (h : r.readQuoted = ⟨.ok word, next⟩) :
    (r.followedBy back).readQuoted = ⟨.ok word, next.continued back⟩ := by
  have hskip : (r.followedBy back).skip = r.skip.followedBy back :=
    advance_followedBy (List.length_pos_iff.mpr hrest)
  unfold readQuoted at h ⊢
  rw [peek_followedBy hrest]
  split at h
  · cases h
  · next quote _ =>
    split at h
    · next hquote =>
      split at h
      · next hread =>
        cases h
        rw [if_pos hquote, hskip, readUntil_followedBy hread]
      · cases h
    · cases h

/-- A token is read again in front of what follows it. -/
theorem readString_followedBy (hback : StartsBlank back) (h : r.readString = ⟨.ok word, next⟩) :
    (r.followedBy back).readString = ⟨.ok word, next.continued back⟩ := by
  have hrest := rest_ne_nil_of_readString h
  unfold readString at h ⊢
  rw [peek_followedBy hrest]
  split at h
  · next hquote => rw [if_pos hquote, readQuoted_followedBy hrest h]
  · next hquote => rw [if_neg hquote, readWord_followedBy hback h]

/-- The same, from where the reader comes to stand once the text goes on. -/
theorem readString_continued (hback : StartsBlank back) (hr : r.Settled)
    (h : r.readString = ⟨.ok word, next⟩) :
    (r.continued back).readString = ⟨.ok word, next.continued back⟩ := by
  rw [hr.continued_eq (rest_ne_nil_of_readString h)]
  exact readString_followedBy hback h

end Reader

/-! ### Arguments -/

namespace Kind

open Reader

variable {back : List Char} {r next : Reader}

theorem read_continued (hback : StartsBlank back) {kind : Kind} (hkind : kind ≠ .greedy)
    {value : Value} (hr : r.Settled) (h : kind.read r = ⟨.ok value, next⟩) :
    kind.read (r.continued back) = ⟨.ok value, next.continued back⟩ := by
  rw [hr.continued_eq (rest_ne_nil_of_read h)]
  obtain ⟨word, hword, hdecode⟩ := (read_eq_ok_iff hkind).mp h
  refine (read_eq_ok_iff hkind).mpr ⟨word, ?_, hdecode⟩
  cases kind with
  | string => exact readString_followedBy hback hword
  | bool | int | long | float | double | greedy | mode | messy =>
    exact readWord_followedBy hback hword

/-- Arguments of which none takes everything are read again in front of what follows them. -/
theorem readAll_continued (hback : StartsBlank back) {kinds : List Kind} {values : List Value}
    (hgreedy : .greedy ∉ kinds) (hr : r.Settled) (h : readAll kinds r = ⟨.ok values, next⟩) :
    readAll kinds (r.continued back) = ⟨.ok values, next.continued back⟩ := by
  induction kinds generalizing r values with
  | nil =>
    cases h
    rfl
  | cons kind kinds ih =>
    rw [List.mem_cons, not_or] at hgreedy
    obtain ⟨hkind, hkinds⟩ := hgreedy
    obtain ⟨value, rest, mid, hread, hrest, rfl⟩ := readAll_cons_eq_ok_iff.mp h
    have hhead := read_continued hback (Ne.symm hkind) hr hread
    have htail := ih hkinds (passes_of_read hread).settled hrest
    exact readAll_cons_eq_ok_iff.mpr ⟨value, rest, mid.continued back, hhead, htail, rfl⟩

end Kind

end TextCommand

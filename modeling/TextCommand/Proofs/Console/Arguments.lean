import TextCommand.Console.Arguments

/-!
# One more option on the command line

Whatever is read from a command line that does not ask for quietness is read again, with quietness added, if
the option is put in front of it.
-/

namespace TextCommand.Console

namespace Options

/-- The same options on a quiet console. -/
def silenced (o : Options) : Options := { o with quiet := true }

/-- Setting something else than quietness does the same on a quiet console. -/
def LeavesQuiet (set : Options → Except Refusal Options) : Prop :=
  ∀ {o next : Options}, set o = .ok next → next.quiet = false →
    o.quiet = false ∧ set o.silenced = .ok next.silenced

theorem leavesQuiet_setFlag (inFront : Bool) (name : String) :
    LeavesQuiet (setFlag inFront name) := by
  intro o next h hquiet
  unfold setFlag at h ⊢
  split at h
  · -- `--debug`
    split at h
    · cases h
    · next hdebug =>
      cases h
      exact ⟨hquiet, if_neg hdebug⟩
  · -- `--quiet`
    split at h
    · cases h
    · cases h
      cases hquiet
  · -- `-q`
    split at h
    · cases h
    · cases h
      cases hquiet
  · -- `--op`
    split at h
    · cases h
    · next hoperator =>
      cases h
      exact ⟨hquiet, if_neg hoperator⟩
  -- help, version and unknown names end the reading
  all_goals cases h

theorem leavesQuiet_setFlags (inFront : Bool) (letters : List Char) :
    LeavesQuiet (setFlags inFront letters) := by
  induction letters with
  | nil =>
    intro o next h hquiet
    cases h
    exact ⟨hquiet, rfl⟩
  | cons letter letters ih =>
    intro o next h hquiet
    rw [setFlags, List.foldlM_cons] at h ⊢
    cases hfirst : o.setFlag inFront (String.ofList ['-', letter]) with
    | error refusal =>
      rw [hfirst] at h
      cases h
    | ok mid =>
      rw [hfirst] at h
      obtain ⟨hmid, hrest⟩ := ih h hquiet
      obtain ⟨ho, hset⟩ := leavesQuiet_setFlag inFront _ hfirst hmid
      rw [hset]
      exact ⟨ho, hrest⟩

theorem leavesQuiet_setValue (option : ValueOption) (value : String) :
    LeavesQuiet (setValue option value) := by
  intro o next h hquiet
  cases option with
  | config =>
    simp only [setValue] at h ⊢
    split at h
    · -- the option is given twice
      cases h
    · next hconfig =>
      split at h
      · -- its value is empty
        cases h
      · next hvalue =>
        cases h
        exact ⟨hquiet, by rw [if_neg hvalue]; exact if_neg hconfig⟩
  | player =>
    simp only [setValue] at h ⊢
    split at h
    · cases h
    · next hplayer =>
      cases h
      exact ⟨hquiet, if_neg hplayer⟩

end Options

/-- The same side of a command line, with quietness among its options. -/
def Side.silenced (side : Side) : Side := { side with options := side.options.silenced }

theorem readSide_silenced {inFront : Bool} {o : Options} {arguments : List String} {side : Side}
    (h : readSide inFront o arguments = .ok side) (hquiet : side.options.quiet = false) :
    o.quiet = false ∧ readSide inFront o.silenced arguments = .ok side.silenced := by
  fun_induction readSide inFront o arguments generalizing side with
  | case2 | case6 | case8 | case10 | case12 | case13 | case15 =>
    -- an argument that makes no sense, or an option that is refused or lacks its value
    cases h
  | case1 =>
    -- nothing is left
    cases h
    exact ⟨hquiet, rfl⟩
  | case3 o argument hform | case4 o argument hform | case5 o argument rest text hform =>
    -- `--` at the end, `--` in front of a text, and a plain argument
    cases h
    refine ⟨hquiet, ?_⟩
    rw [readSide.eq_def]
    simp only [hform]
    rfl
  | case7 o argument rest name hform mid hset ih =>
    -- a long flag
    obtain ⟨hmid, hrest⟩ := ih h hquiet
    obtain ⟨ho, hset⟩ := Options.leavesQuiet_setFlag inFront name hset hmid
    refine ⟨ho, ?_⟩
    rw [readSide.eq_def]
    simp only [hform, hset, hrest]
  | case9 o argument rest letters hform mid hset ih =>
    -- several short flags
    obtain ⟨hmid, hrest⟩ := ih h hquiet
    obtain ⟨ho, hset⟩ := Options.leavesQuiet_setFlags inFront letters hset hmid
    refine ⟨ho, ?_⟩
    rw [readSide.eq_def]
    simp only [hform, hset, hrest]
  | case11 o argument rest option value hform mid hset ih =>
    -- an option with its value attached
    obtain ⟨hmid, hrest⟩ := ih h hquiet
    obtain ⟨ho, hset⟩ := Options.leavesQuiet_setValue option value hset hmid
    refine ⟨ho, ?_⟩
    rw [readSide.eq_def]
    simp only [hform, hset, hrest]
  | case14 o argument option hform text after word hword mid hset ih =>
    -- an option with its value in the next argument
    obtain ⟨hmid, hrest⟩ := ih h hquiet
    obtain ⟨ho, hset⟩ := Options.leavesQuiet_setValue option word hset hmid
    refine ⟨ho, ?_⟩
    rw [readSide.eq_def]
    simp only [hform, hword, hset, hrest]

/-- The options that ask for quietness. -/
def quietOptions : List String := ["--quiet", "-q"]

theorem readSide_quietOption {option : String} (h : option ∈ quietOptions) (arguments : List String) :
    readSide true .none (option :: arguments) = readSide true Options.none.silenced arguments := by
  rw [readSide.eq_def]
  rcases List.mem_cons.mp h with rfl | h
  · have hform : Form.of "--quiet" = .ok (.flag "--quiet") := by rfl
    simp only [hform]
    rfl
  · obtain rfl := List.mem_singleton.mp h
    have hform : Form.of "-q" = .ok (.cluster ['q']) := by rfl
    simp only [hform]
    rfl

/-- What a command line that makes sense is made of. -/
theorem Invocation.read_eq_ok_iff {arguments : List String} {invocation : Invocation} :
    Invocation.read arguments = .ok invocation ↔
      ∃ front word after takesInput task back input,
        readSide true .none arguments = .ok ⟨front, some word, after, false⟩ ∧
        taskNamed? word = some (takesInput, task) ∧
        readBack takesInput after = .ok (back, input) ∧
        invocation =
          { config := (front.merge back).config, debug := (front.merge back).debug,
            quiet := (front.merge back).quiet, operator := (front.merge back).operator,
            player := (front.merge back).player.getD "console", task := task (input.getD "") } := by
  constructor
  · intro h
    unfold Invocation.read at h
    split at h
    · -- the front is refused
      cases h
    · -- no task is named
      cases h
    · next front word after escaped hfront =>
      -- a task in front of `--`, one that is known, and arguments behind it that make sense
      split at h
      · cases h
      · next hescaped =>
        split at h
        · cases h
        · next takesInput task htask =>
          split at h
          · cases h
          · next back input hback =>
            cases h
            obtain rfl := Bool.eq_false_iff.mpr hescaped
            exact ⟨front, word, after, takesInput, task, back, input, hfront, htask, hback, rfl⟩
  · rintro ⟨front, word, after, takesInput, task, back, input, hfront, htask, hback, rfl⟩
    simp only [Invocation.read, hfront, htask, hback, Bool.false_eq_true, if_false]

/-- The option in front of a command line that does not ask for quietness changes nothing else of it. -/
theorem Invocation.read_quietOption {option : String} (hoption : option ∈ quietOptions)
    {arguments : List String} {invocation : Invocation}
    (h : Invocation.read arguments = .ok invocation) (hloud : invocation.quiet = false) :
    Invocation.read (option :: arguments) = .ok { invocation with quiet := true } := by
  obtain ⟨front, word, after, takesInput, task, back, input, hfront, htask, hback, rfl⟩ :=
    Invocation.read_eq_ok_iff.mp h
  have hquiet : front.quiet = false := (Bool.or_eq_false_iff.mp hloud).1
  have hside := (readSide_silenced hfront hquiet).2
  rw [← readSide_quietOption hoption] at hside
  exact Invocation.read_eq_ok_iff.mpr
    ⟨front.silenced, word, after, takesInput, task, back, input, hside, htask, hback, rfl⟩

end TextCommand.Console

import TextCommand.Console.Output
import TextCommand.Proofs.Node.FailingStep
import TextCommand.Proofs.Reader.Boundary

/-!
# The caret stands under the failing step

A console shows an error above the input and puts a caret under its position, one space for each character
in front.  The error of a run that enters no action has the position at which the failing step stood; and
whatever position an error carries, the caret never stands farther out than one place behind the input.
-/

namespace TextCommand

namespace Console

/-- A message, the input, and a caret behind some spaces. -/
def withCaret (message input : String) (indent : Nat) : String :=
  message ++ "\n" ++ input ++ "\n" ++ String.ofList (List.replicate indent ' ') ++ "^"

theorem column_le (cursor : Nat) (cs : List Char) : column cursor cs ≤ cs.length := by
  have hlength := congrArg List.length (splitAtByte_append cursor cs)
  rw [List.length_append] at hlength
  unfold column
  dsimp only
  split
  · omega
  · exact Nat.le_refl _

/-- At the position of a reader that is as many characters as it has passed. -/
theorem column_cursor (r : Reader) : column r.cursor r.chars = r.passed.length := by
  have hsplit : splitAtByte r.cursor r.chars = (r.passed, r.rest) := by
    have h := splitAtByte_byteLength_add r.passed 0 r.rest
    rwa [Nat.add_zero, splitAtByte_zero, List.append_nil] at h
  rw [column, hsplit]
  exact if_pos rfl

theorem formatError_of_cursor {error : CommandError} {cursor : Nat} (h : error.cursor? = some cursor)
    (input : String) :
    formatError error input = withCaret error.message input (column cursor input.toList) := by
  simp only [formatError, h, withCaret]
  rfl

theorem formatError_of_no_cursor {error : CommandError} (h : error.cursor? = none) (input : String) :
    formatError error input = error.message := by
  simp only [formatError, h]

/-- Whatever position an error carries, the caret stands below the input or right behind it. -/
theorem exists_formatError (error : CommandError) (input : String) :
    ∃ indent ≤ input.length,
      formatError error input =
        if error.cursor?.isSome then withCaret error.message input indent else error.message := by
  cases hcursor : error.cursor? with
  | none => exact ⟨0, Nat.zero_le _, formatError_of_no_cursor hcursor input⟩
  | some cursor =>
    have hle := column_le cursor input.toList
    rw [String.length_toList] at hle
    exact ⟨_, hle, formatError_of_cursor hcursor input⟩

/-- **Errors are about where the failing step stood, and the caret is under that place.**  A run that enters
no action, and is not too long, fails with an error just in case that is the error of a failing step.  That
error's position is a boundary of the text, not before the start of the run: behind the blanks where a
registry finds no node, behind the literals where the command there has no action, and behind the
arguments before it where an argument cannot be read.  The console shows the error, the text, and a caret
behind as many spaces as the text has characters up to there.  No error at all, also none that an action
made up, gets more spaces than the input has characters. -/
theorem error_points_at_failing_step {σ : Type} (node : Node σ) (source : σ) (r : Reader) :
    (∀ error, (∃ stood, node.FailsAt r error stood) ↔
      (node.run source r).call = none ∧ (node.run source r).result = .error error ∧
        ∀ length limit, error ≠ .tooLong length limit) ∧
    (∀ error stood, node.FailsAt r error stood →
      error.cursor? = some stood.cursor ∧ IsBoundary r.text stood.cursor ∧
      r.cursor ≤ stood.cursor ∧ stood.cursor ≤ r.totalLength ∧
      ∃ front, slice? r.text 0 stood.cursor = some front ∧
        formatError error r.text = withCaret error.message r.text front.length) ∧
    ∀ error input, ∃ indent ≤ input.length,
      formatError error input =
        if error.cursor?.isSome then withCaret error.message input indent else error.message := by
  refine ⟨fun error => ⟨?_, ?_⟩, fun error stood h => ?_, exists_formatError⟩
  · rintro ⟨stood, h⟩
    rw [h.run_eq source]
    refine ⟨rfl, rfl, fun length limit heq => ?_⟩
    -- a failing step has a position, a text that is too long has none
    have hcursor := h.cursor?_eq
    rw [heq] at hcursor
    cases hcursor
  · rintro ⟨hcall, hresult, hshort⟩
    exact Node.exists_failsAt hcall hresult hshort
  · have hcursor := h.cursor?_eq
    have htext : stood.text = r.text := congrArg String.ofList h.goesOn.chars
    have hcolumn : column stood.cursor r.text.toList = (String.ofList stood.passed).length := by
      rw [← htext, Reader.text, String.toList_ofList, column_cursor, String.length_ofList]
    refine ⟨hcursor, ?_, h.goesOn.le, ?_, String.ofList stood.passed, ?_, ?_⟩
    · rw [← htext]
      exact stood.isBoundary_cursor
    · have hle := stood.cursor_le_totalLength
      rwa [Reader.totalLength, h.goesOn.chars] at hle
    · rw [← htext]
      exact stood.slice?_passed
    · rw [formatError_of_cursor hcursor, hcolumn]

/-- Positions count bytes, the caret characters; for a position inside a character it counts them all. -/
example :
    formatError (.shape "Invalid command" 3) "é x" = "Invalid command at position 3\né x\n  ^" ∧
    formatError (.shape "Refused" 1) "é x" = "Refused at position 1\né x\n   ^" := by
  decide

end Console

end TextCommand

import TextCommand.Proofs.Game.Ledger

/-!
# A line does all that it says, or nothing

Whatever a line holds and whatever the session, a run of it either fails and leaves every part of the
session as it was, or says exactly one line and changes at most one part; and which part that can be
is told by the names of the commands on the path of the line.
-/

namespace TextCommand.Game

theorem Part.of_eq_scoreboard {names : List String} (h : Part.of names = .scoreboard) :
    names = ["scoreboard", "objectives", "add"] ∨ names = ["scoreboard", "players", "set"] ∨
      names = ["scoreboard", "players", "add"] := by
  unfold Part.of at h
  split at h
  · exact .inl rfl
  · exact .inr (.inl rfl)
  · exact .inr (.inr rfl)
  all_goals cases h

theorem Part.of_eq_position {names : List String} (h : Part.of names = .position) :
    names = ["tp"] := by
  unfold Part.of at h
  split at h
  case h_4 => rfl
  all_goals cases h

theorem Part.of_eq_mode {names : List String} (h : Part.of names = .mode) :
    names = ["gamemode"] := by
  unfold Part.of at h
  split at h
  case h_5 => rfl
  all_goals cases h

/-- No two parts change at once. -/
theorem Part.Frame.at_most_one {part : Part} {before after : Session}
    (h : part.Frame before after) :
    (after.position = before.position ∧ after.mode = before.mode) ∨
      (after.scoreboard = before.scoreboard ∧ after.mode = before.mode) ∨
      (after.scoreboard = before.scoreboard ∧ after.position = before.position) := by
  cases part with
  | nothing | scoreboard => exact .inl ⟨h.position nofun, h.mode nofun⟩
  | position => exact .inr (.inl ⟨h.scoreboard nofun, h.mode nofun⟩)
  | mode => exact .inr (.inr ⟨h.scoreboard nofun, h.position nofun⟩)

/-- A line that succeeds has entered the command at the end of its path. -/
theorem exists_call_of_isOk {limit : Option Nat} {session : Session} {line : String}
    (h : (runLine limit session line).result.isOk = true) :
    ∃ call, (runLine limit session line).call = some call ∧
      (((registry limit).path line).map Node.name).getLast? = some call.command.name := by
  rcases runLine_cases limit session line with ⟨-, hok, -⟩ | ⟨call, step, hcall, -⟩
  · rw [h] at hok
    cases hok
  · obtain ⟨children, hlast⟩ := Registry.getLast?_path_of_call _ _ _ hcall
    exact ⟨call, hcall, by rw [List.getLast?_map, hlast]; rfl⟩

/-- **A line is all or nothing.**  A line that fails leaves the session exactly as it was.  A line that
succeeds has entered the command at the end of its path and said exactly one line; it changes neither
the name nor the permission, and at most one of scoreboard, position and mode: the scoreboard only
if it creates an objective or sets or adds to a score, the position only if it teleports, and the
mode only if it is the command for that. -/
theorem line_is_all_or_nothing (limit : Option Nat) (session : Session) (line : String) :
    let run := runLine limit session line
    let after := afterLine limit session line
    let names := ((registry limit).path line).map Node.name
    run.source = .holding (.session after) ∧
    (run.result.isOk = false → after = session) ∧
    (run.result.isOk = true →
      (∃ call, run.call = some call ∧ names.getLast? = some call.command.name) ∧
      (∃ said, after.output = session.output ++ [said]) ∧
      after.name = session.name ∧ after.operator = session.operator ∧
      ((after.position = session.position ∧ after.mode = session.mode) ∨
        (after.scoreboard = session.scoreboard ∧ after.mode = session.mode) ∨
        (after.scoreboard = session.scoreboard ∧ after.position = session.position)) ∧
      (after.scoreboard ≠ session.scoreboard →
        names = ["scoreboard", "objectives", "add"] ∨ names = ["scoreboard", "players", "set"] ∨
          names = ["scoreboard", "players", "add"]) ∧
      (after.position ≠ session.position → names = ["tp"]) ∧
      (after.mode ≠ session.mode → names = ["gamemode"])) := by
  intro run after names
  refine ⟨runLine_source limit session line, afterLine_eq_of_failed, ?_⟩
  intro hok
  have hchanged : (Part.of names).Changed session after := by
    rcases afterLine_allowed limit session line with ⟨hfailed, -⟩ | ⟨-, hchanged⟩
    · exact absurd (hok.symm.trans hfailed) nofun
    · exact hchanged
  have hframe := hchanged.frame
  refine ⟨exists_call_of_isOk hok, hchanged.exists_output, hframe.name, hframe.operator,
    hframe.at_most_one, ?_, ?_, ?_⟩
  · exact fun hne => Part.of_eq_scoreboard (Decidable.not_imp_comm.mp hframe.scoreboard hne)
  · exact fun hne => Part.of_eq_position (Decidable.not_imp_comm.mp hframe.position hne)
  · exact fun hne => Part.of_eq_mode (Decidable.not_imp_comm.mp hframe.mode hne)

end TextCommand.Game

import TextCommand.Proofs.Game.Ledger
import TextCommand.Proofs.Node.Rendering
import TextCommand.Proofs.Number.Shortest

/-!
# The suggested position

What is suggested for a teleport is the position of the session as text.  Numbers are read back from their
text, so the suggestion, sent as a teleport, leads to where the session already stands.
-/

namespace TextCommand

attribute [local instance (high)] instPowNat

/-! ### Lists of numbers -/

/-- A number as it stands in a line, with the blanks behind it. -/
def Item.ofDouble (number : Number.Double × List Char) : Item := ⟨number.1.toText.toList, number.2⟩

theorem Item.ofDouble_starts (number : Number.Double × List Char) : (ofDouble number).Starts := by
  obtain ⟨hne, hbare⟩ := (Number.isDecimalText_toText (f := .double) (by decide) number.1).bare
  obtain ⟨c, cs, hcs⟩ := List.exists_cons_of_ne_nil hne
  exact ⟨c, cs, hcs, isBlank_of_isBare (hbare c (by rw [hcs]; exact List.mem_cons_self))⟩

/-- As many numbers as are asked for are read back from their texts. -/
theorem Kind.readAll_doubles (numbers : List (Number.Double × List Char))
    (hspaced : Item.Spaced (numbers.map Item.ofDouble)) (passed : List Char) :
    readAll (numbers.map fun _ => .double) ⟨passed, Item.line (numbers.map Item.ofDouble)⟩ =
      ⟨.ok (numbers.map fun number => .double number.1),
        ⟨passed ++ Item.line (numbers.map Item.ofDouble), []⟩⟩ := by
  induction numbers generalizing passed with
  | nil => simp [readAll, Item.line]
  | cons number numbers ih =>
    have hseparates := Item.separates_of_spaced hspaced
      (List.forall_mem_map.mpr fun number _ => Item.ofDouble_starts number)
    have hread : Kind.double.read ⟨passed, Item.line ((number :: numbers).map Item.ofDouble)⟩ =
        ⟨.ok (.double number.1), ⟨passed ++ (number.1.toText.toList ++ number.2),
          Item.line (numbers.map Item.ofDouble)⟩⟩ := by
      rw [List.map_cons, Item.line_cons, Kind.read]
      exact congrArg (Reading.toValue .double)
        (Reader.readDouble_toText hseparates passed number.1)
    rw [List.map_cons, readAll, hread]
    simp only [ih hspaced.2.2, List.map_cons, Item.line_cons, List.append_assoc]
    rfl

namespace Game

/-! ### The suggestion and the line -/

/-- The position as the arguments of a teleport. -/
def Position.text (p : Position) : String := s!"{p.x.toText} {p.y.toText} {p.z.toText}"

/-- The numbers of that text, with the blanks behind them. -/
def Position.numbers (p : Position) : List (Number.Double × List Char) :=
  [(p.x, [' ']), (p.y, [' ']), (p.z, [])]

theorem Position.line_numbers (p : Position) :
    Item.line (p.numbers.map Item.ofDouble) = p.text.toList := by
  simp [Position.text, Position.numbers, Item.line, Item.ofDouble, toString]

theorem Position.spaced_numbers (p : Position) : Item.Spaced (p.numbers.map Item.ofDouble) := by
  simp [Item.Spaced, Position.numbers, Item.ofDouble, Text.isBlank, Text.blankRanges]

/-- The line that teleports to a position reaches the step with exactly its numbers. -/
theorem reaches_teleport (p : Position) :
    ∃ head, head.name = "tp" ∧
      (registry none).toNode.Reaches (.ofString ("tp " ++ p.text)) head (onSession teleport)
        [.double p.x, .double p.y, .double p.z] ⟨("tp " ++ p.text).toList, []⟩ := by
  obtain ⟨arguments, harguments⟩ : ∃ arguments, arguments = p.numbers.map Item.ofDouble := ⟨_, rfl⟩
  have hline : Item.line arguments = p.text.toList := harguments ▸ p.line_numbers
  have hstarts : ∀ item ∈ arguments, item.Starts :=
    harguments ▸ List.forall_mem_map.mpr fun number _ => Item.ofDouble_starts number
  have hspaced : Item.Spaced ([⟨"tp".toList, [' ']⟩] ++ arguments) := by
    refine ⟨?_, by simp, harguments ▸ p.spaced_numbers⟩
    exact List.all_eq_true.mp rfl
  have hliteral : SpelledAll ["tp"] [⟨"tp".toList, [' ']⟩] :=
    .cons (by decide) (.bare (List.all_eq_true.mp rfl)) .nil
  have hadmits : (registry none).toNode.Admits ("tp " ++ p.text).toList.length := by
    intro n hn
    cases hn
  have hleads : (registry none).toNode.Leads ("tp " ++ p.text).toList.length ["tp"] tpNode :=
    .down hadmits rfl .here
  have hfront : Item.line [⟨"tp".toList, [' ']⟩] = "tp ".toList := by decide
  have hwhole : ("tp " ++ p.text).toList =
      Item.line ([⟨"tp".toList, [' ']⟩] ++ arguments) := by
    rw [String.toList_append, Item.line_append, hfront, hline]
  have hlength : ([] ++ Item.line (⟨"tp".toList, [' ']⟩ :: arguments)).length =
      ("tp " ++ p.text).toList.length := (congrArg List.length hwhole).symm
  have hdescend := Node.descend_of_leads hleads hliteral hstarts hspaced.parted hlength
    fun _ _ _ => rfl
  rw [← hwhole, List.nil_append, hfront] at hdescend
  have hread := Kind.readAll_doubles p.numbers p.spaced_numbers "tp ".toList
  rw [← harguments, hline, ← String.toList_append] at hread
  rw [hline] at hdescend
  exact ⟨_, rfl, _, hdescend, rfl, hread⟩

/-- What a command named `tp` suggests is the position. -/
def SuggestsPosition (command : Command Source) : Prop :=
  command.name = "tp" → command.suggestions = some suggestPosition

theorem registry_suggestsPosition (limit : Option Nat) :
    (registry limit).toNode.Everywhere SuggestsPosition := by
  have hobjectives : objectivesNode.Everywhere SuggestsPosition := by
    refine .command nofun (List.forall_mem_cons.mpr ⟨?_, List.forall_mem_cons.mpr ⟨?_,
      List.forall_mem_nil _⟩⟩) <;> exact .command nofun (List.forall_mem_nil _)
  have hplayers : playersNode.Everywhere SuggestsPosition := by
    refine .command nofun (List.forall_mem_cons.mpr ⟨?_, List.forall_mem_cons.mpr ⟨?_,
      List.forall_mem_cons.mpr ⟨?_, List.forall_mem_nil _⟩⟩⟩) <;>
      exact .command nofun (List.forall_mem_nil _)
  refine .registry (List.forall_mem_cons.mpr ⟨?_, List.forall_mem_cons.mpr ⟨?_,
    List.forall_mem_cons.mpr ⟨?_, List.forall_mem_cons.mpr ⟨?_, List.forall_mem_cons.mpr ⟨?_,
      List.forall_mem_nil _⟩⟩⟩⟩⟩)
  · exact .command nofun (List.forall_mem_cons.mpr
      ⟨hobjectives, List.forall_mem_cons.mpr ⟨hplayers, List.forall_mem_nil _⟩⟩)
  · -- `tp` itself
    exact .command (fun _ => rfl) (List.forall_mem_nil _)
  -- no other command has that name
  all_goals exact .command nofun (List.forall_mem_nil _)

/-- Whatever line gets as far as the teleport, the position is suggested for it. -/
theorem suggestText_of_reaches {limit : Option Nat} {session : Session} {line : String}
    {head : Command Source} {action : Action Source} {values : List Value} {next : Reader}
    (hname : head.name = "tp")
    (h : (registry limit).toNode.Reaches (.ofString line) head action values next) :
    (registry limit).suggestText (.holding (.session session)) line = [session.position.text] := by
  obtain ⟨entry, hstop, -, hread⟩ := h
  have hsuggests : head.suggestions = some suggestPosition :=
    (registry_suggestsPosition limit).of_descend hstop hname
  have hsuggest := (registry limit).toNode.suggest_eq (.holding (.session session)) (.ofString line)
  simp only [hstop, hread, hsuggests] at hsuggest
  exact hsuggest

/-- Teleporting to a position changes nothing but the position, and says so. -/
theorem runLine_teleport (session : Session) (p : Position) :
    (runLine none session ("tp " ++ p.text)).result = .ok () ∧
      afterLine none session ("tp " ++ p.text) = { session with position := p }.say
        s!"Teleported {session.name} to {p.x.toText}, {p.y.toText}, {p.z.toText}" := by
  obtain ⟨head, -, hreach⟩ := reaches_teleport p
  have hrun : runLine none session ("tp " ++ p.text) = _ :=
    hreach.run_eq (.holding (.session session))
  refine ⟨?_, afterLine_eq_of_source ?_⟩
  · rw [hrun, Node.result_restoring, onSession_holding]
    rfl
  · rw [hrun, Node.source_restoring, onSession_holding]
    rfl

/-- **Numbers survive as text, and so does a position.**  Every finite pattern of 64 bits is that of a
number.  The text of a number is in the grammar of decimals, reading it gives that very number with nothing
left to read, and no decimal of the same sign that reads so has fewer digits, zeros at its end not counted.
After any lines, what is suggested for a teleport is the position of the session, and sent as a teleport it
succeeds and leaves the position as it is. -/
theorem position_survives_as_text :
    ((∀ bits, bits < 2 ^ 64 → bits / 2 ^ 52 % 2 ^ 11 < 2 ^ 11 - 1 →
        ∃ x : Number.Double, x.bits = bits) ∧
      ∀ x : Number.Double, Number.IsDecimalText x.toText.toList ∧
        (Reader.ofString x.toText).readDouble = ⟨.ok x, ⟨x.toText.toList, []⟩⟩ ∧
        ∃ m zeros places,
          Number.readDecimal? x.toText = some ⟨x.negative, m * 10 ^ zeros, places⟩ ∧
          ∀ m' zeros' places',
            Number.Decimal.nearest .double ⟨x.negative, m' * 10 ^ zeros', places'⟩ = some x →
              (Nat.toDigits 10 m).length ≤ (Nat.toDigits 10 m').length) ∧
    ∀ (start : Session) (lines : List String),
      let session := (play none start lines).session
      let suggested := fun line => (registry none).suggestText (.holding (.session session)) line
      (∀ line call, (runLine none session line).call = some call → call.command.name = "tp" →
        suggested line = [session.position.text]) ∧
      (∀ p : Position, suggested ("tp " ++ p.text) = [session.position.text]) ∧
      (runLine none session ("tp " ++ session.position.text)).result = .ok () ∧
      (afterLine none session ("tp " ++ session.position.text)).position = session.position := by
  refine ⟨⟨fun _ => Number.exists_bits, fun x => ⟨?_, ?_, ?_⟩⟩, fun start lines => ?_⟩
  · exact Number.isDecimalText_toText (by decide) x
  · have hend : Separates [] [] := ⟨by simp, by simp, fun _ => rfl⟩
    have hread := Reader.readDouble_toText hend [] x
    rwa [List.append_nil, List.append_nil] at hread
  · obtain ⟨m, zeros, places, hread, -, hshortest⟩ := Number.readDecimal?_toText (by decide) x
    exact ⟨m, zeros, places, hread, hshortest⟩
  · intro session suggested
    refine ⟨?_, ?_, ?_, ?_⟩
    · intro line call hcall hname
      obtain ⟨action, hreach⟩ := Node.call_eq_some_iff.mp hcall
      exact suggestText_of_reaches hname hreach
    · intro p
      obtain ⟨head, hname, hreach⟩ := reaches_teleport p
      exact suggestText_of_reaches hname hreach
    · exact (runLine_teleport session session.position).1
    · rw [(runLine_teleport session session.position).2]
      rfl

end Game

end TextCommand

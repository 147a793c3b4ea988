import TextCommand.Game.Commands
import TextCommand.Proofs.Node.Rewind
import TextCommand.Proofs.Node.WholeInput
import TextCommand.Proofs.Reader.Shift

/-!
# Only the text from the position on counts

In a tree that bounds no length, what a traversal does depends on the characters that are left and
on nothing before them: with a text put in front, the same action is entered with the same values,
the answers are the same, and positions are shifted by the bytes of that text.  A registry does not
even see blanks in front.
-/

namespace TextCommand

variable {σ : Type}

/-- No registry of the tree bounds the length of the text. -/
inductive Node.Unlimited : Node σ → Prop
  | command {head : Command σ} {children : List (Node σ)}
      (hchildren : ∀ node ∈ children, Unlimited node) : Unlimited (.command head children)
  | registry {nodes : List (Node σ)} (hnodes : ∀ node ∈ nodes, Unlimited node) :
      Unlimited (.registry none nodes)

@[simp] theorem Node.unlimited_command_iff {head : Command σ} {children : List (Node σ)} :
    (Node.command head children).Unlimited ↔ ∀ node ∈ children, node.Unlimited :=
  ⟨fun | .command hchildren => hchildren, .command⟩

@[simp] theorem Node.unlimited_registry_iff {limit : Option Nat} {nodes : List (Node σ)} :
    (Node.registry limit nodes).Unlimited ↔ limit = none ∧ ∀ node ∈ nodes, node.Unlimited :=
  ⟨fun | .registry hnodes => ⟨rfl, hnodes⟩, fun ⟨hlimit, hnodes⟩ => hlimit ▸ .registry hnodes⟩

/-! ### Shifted results -/

def Call.after (front : List Char) (call : Call σ) : Call σ :=
  { call with reader := call.reader.after front }

/-- The run in a text with `front` put before it.  An error that was raised by an action knows
nothing of the text and stays as it is. -/
def Run.after (front : List Char) (run : Run σ) : Run σ where
  result :=
    match run.call with
    | some _ => run.result
    | none => run.result.mapError (CommandError.shift (byteLength front))
  reader := run.reader.after front
  source := run.source
  call := run.call.map (Call.after front)

theorem Run.after_failed (front : List Char) (error : CommandError) (source : σ) (r : Reader) :
    (Run.failed error source r).after front =
      .failed (error.shift (byteLength front)) source (r.after front) := rfl

theorem Run.after_restoring (front : List Char) (run : Run σ) (r : Reader) :
    (run.restoring r).after front = (run.after front).restoring (r.after front) := by
  obtain ⟨result, reader, source, call⟩ := run
  cases result <;> cases call <;> rfl

section Command

variable (front : List Char) (command : Command σ) (source : σ) (r : Reader)

theorem Command.run_after : command.run source (r.after front) = (command.run source r).after front := by
  unfold Command.run
  split
  · rw [Run.after_failed, Reader.cursor_after]
    rfl
  · rw [Kind.readAll_after]
    rcases Kind.readAll command.kinds r with ⟨error | values, next⟩ <;> rfl

theorem Command.accepts_after : command.accepts (r.after front) = command.accepts r := by
  unfold Command.accepts
  rw [Kind.readAll_after]
  rcases Kind.readAll command.kinds r with ⟨error | values, next⟩ <;> rfl

theorem Command.suggest_after : command.suggest source (r.after front) = command.suggest source r := by
  unfold Command.suggest
  rw [Kind.readAll_after]
  rcases Kind.readAll command.kinds r with ⟨error | values, next⟩ <;> rfl

end Command

namespace Node

/-! ### The descent -/

theorem route_after (front : List Char) (nodes : List (Node σ)) (r : Reader) :
    route nodes (r.after front) =
      match route nodes r with
      | .ok (node, next) => .ok (node, next.after front)
      | .error error => .error (error.shift (byteLength front)) := by
  unfold route
  rw [Reader.readString_after, Reader.cursor_after]
  rcases r.readString with ⟨error | word, next⟩
  · rfl
  · simp only [Reading.after_ok]
    cases first? word nodes <;> rfl

theorem descend_after (front : List Char) {node : Node σ} (h : node.Unlimited) (r : Reader) :
    node.descend (r.after front) =
      match node.descend r with
      | .ok stop => .ok ⟨stop.command, stop.entry.after front⟩
      | .error error => .error (error.shift (byteLength front)) := by
  fun_induction descend node r with
  | case1 head children r node next hroute ih =>
    cases h with
    | command hchildren =>
      rw [descend_command, route_after, hroute]
      exact ih (hchildren node (mem_of_route hroute))
  | case2 head children r error hroute => rw [descend_command, route_after, hroute]
  | case3 limit nodes r error hlimit =>
    cases h
    cases hlimit
  | case4 limit nodes r hlimit node next hroute ih =>
    cases h with
    | registry hnodes =>
      rw [descend_registry, Reader.skipBlank_after, route_after, hroute]
      exact ih (hnodes node (mem_of_route hroute))
  | case5 limit nodes r hlimit error hroute =>
    cases h
    rw [descend_registry, Reader.skipBlank_after, route_after, hroute]
    rfl

/-! ### The traversals -/

section Traversals

variable (front : List Char) {node : Node σ} (h : node.Unlimited) (source : σ) (r : Reader)
include h

theorem run_after : node.run source (r.after front) = (node.run source r).after front := by
  rw [run_eq_descend, run_eq_descend, descend_after front h]
  cases node.descend r with
  | error error => rfl
  | ok stop =>
    dsimp only
    rw [Command.run_after, Run.after_restoring]

theorem accepts_after : node.accepts (r.after front) = ((node.accepts r).1, r.after front) := by
  rw [accepts_eq_descend, accepts_eq_descend, descend_after front h]
  cases node.descend r with
  | error error => rfl
  | ok stop => exact congrArg (·, r.after front) (Command.accepts_after front _ _)

theorem suggest_after :
    node.suggest source (r.after front) = ((node.suggest source r).1, r.after front) := by
  rw [suggest_eq_descend, suggest_eq_descend, descend_after front h]
  cases node.descend r with
  | error error => rfl
  | ok stop => exact congrArg (·, r.after front) (Command.suggest_after front _ _ _)

end Traversals

/-! ### Blanks in front of a registry -/

section Blanks

variable (limit : Option Nat) (nodes : List (Node σ)) (source : σ) {r r' : Reader}

/-- Two readers that come to stand at the same place behind blanks differ, to a registry, only in
where it goes back to. -/
theorem run_registry_of_skipBlank (h : r'.skipBlank = r.skipBlank) :
    (Node.registry limit nodes).run source r' =
      ((Node.registry limit nodes).run source r).restoring r' := by
  rw [run_eq_descend, run_eq_descend, ← descend_skipBlank, h, descend_skipBlank]
  cases (Node.registry limit nodes).descend r with
  | error error => rfl
  | ok stop => exact (restoring_restoring _ r' r).symm

theorem accepts_registry_of_skipBlank (h : r'.skipBlank = r.skipBlank) :
    (Node.registry limit nodes).accepts r' = (((Node.registry limit nodes).accepts r).1, r') := by
  rw [accepts_eq_descend, accepts_eq_descend, ← descend_skipBlank, h, descend_skipBlank]
  cases (Node.registry limit nodes).descend r <;> rfl

theorem suggest_registry_of_skipBlank (h : r'.skipBlank = r.skipBlank) :
    (Node.registry limit nodes).suggest source r' =
      (((Node.registry limit nodes).suggest source r).1, r') := by
  rw [suggest_eq_descend, suggest_eq_descend, ← descend_skipBlank, h, descend_skipBlank]
  cases (Node.registry limit nodes).descend r <;> rfl

end Blanks

end Node

/-! ### In strings -/

/-- In front of blanks or behind them, a reader comes to stand at the same place. -/
theorem Reader.skipBlank_atByte {blanks : String} (h : ∀ c ∈ blanks.toList, Text.isBlank c = true)
    (front s : String) :
    (Reader.atByte (byteLength front.toList) (front ++ (blanks ++ s))).skipBlank =
      ((Reader.ofString s).after (front ++ blanks).toList).skipBlank := by
  have hfront := atByte_append front (blanks ++ s) 0
  rw [Nat.add_zero] at hfront
  have hstart : atByte 0 (blanks ++ s) = ⟨[], blanks.toList ++ s.toList⟩ := by
    simp only [atByte, moveTo, ofString, chars, splitAtByte_zero, String.toList_append,
      List.nil_append]
  rw [hfront, hstart]
  simp only [after, ofString, List.append_nil, skipBlank_blanks h, String.toList_append]

/-- **Parsing depends only on the text from the position on.**  In a tree that bounds no length, a
traversal that starts behind `front` does what it does at the same place of the text alone, shifted by
the bytes of `front`; if it starts at a registry, blanks in front of the text only add to the shift,
and a run that fails goes back in front of them. -/
theorem Node.traversals_depend_on_rest {node : Node σ} (hnode : node.Unlimited) (source : σ)
    (front s : String) (n : Nat) :
    let r := Reader.atByte n s
    let r' := Reader.atByte (byteLength front.toList + n) (front ++ s)
    r'.cursor = byteLength front.toList + r.cursor ∧
    node.run source r' = (node.run source r).after front.toList ∧
    node.accepts r' = ((node.accepts r).1, r') ∧
    node.suggest source r' = ((node.suggest source r).1, r') ∧
    ∀ (limit : Option Nat) (nodes : List (Node σ)) (blanks : String),
      node = .registry limit nodes → (∀ c ∈ blanks.toList, Text.isBlank c = true) →
        let q := Reader.ofString s
        let q' := Reader.atByte (byteLength front.toList) (front ++ (blanks ++ s))
        node.run source q' = ((node.run source q).after (front ++ blanks).toList).restoring q' ∧
        node.accepts q' = ((node.accepts q).1, q') ∧
        node.suggest source q' = ((node.suggest source q).1, q') := by
  intro r r'
  have hr : r' = r.after front.toList := Reader.atByte_append front s n
  rw [hr]
  refine ⟨Reader.cursor_after _ r, run_after _ hnode source r, accepts_after _ hnode r,
    suggest_after _ hnode source r, ?_⟩
  rintro limit nodes blanks rfl hblanks q q'
  have hskip : q'.skipBlank = (q.after (front ++ blanks).toList).skipBlank :=
    Reader.skipBlank_atByte hblanks front s
  refine ⟨?_, ?_, ?_⟩
  · rw [run_registry_of_skipBlank limit nodes source hskip, run_after _ hnode]
  · rw [accepts_registry_of_skipBlank limit nodes hskip, accepts_after _ hnode]
  · rw [suggest_registry_of_skipBlank limit nodes source hskip, suggest_after _ hnode]

theorem Game.registry_unlimited : (Game.registry none).toNode.Unlimited := by
  simp [registry, Registry.toNode, Registry.add, Registry.empty, scoreboardNode, objectivesNode,
    playersNode, tpNode, sayNode, gamemodeNode, helpNode, Draft.new, Draft.description, Draft.child,
    Draft.argument, Draft.describedArgument, Draft.alsoNamed, Draft.requires, Draft.suggests,
    Draft.execute, Draft.build]

/-- Two bytes further on in one text, six in the other with blanks of four bytes. -/
theorem Game.mode_refused_further_on :
    ((Game.registry none).toNode.run .empty
      (.atByte (byteLength "é".toList + 1) ("é" ++ " gamemode x"))).result =
        .error (.refused "game mode" "Unknown game mode \x27x\x27" 12) ∧
    ((Game.registry none).toNode.run .empty
      (.atByte (byteLength "é".toList) ("é" ++ ("\t\u2003" ++ " gamemode x")))).result =
        .error (.refused "game mode" "Unknown game mode \x27x\x27" 16) := by
  have hblanks : ∀ c ∈ "\t\u2003".toList, Text.isBlank c = true := List.all_eq_true.mp rfl
  obtain ⟨-, hrun, -, -, hregistry⟩ :=
    Node.traversals_depend_on_rest Game.registry_unlimited .empty "é" " gamemode x" 1
  obtain ⟨hblank, -⟩ := hregistry none _ "\t\u2003" rfl hblanks
  rw [hrun, hblank]
  exact ⟨rfl, rfl⟩

end TextCommand

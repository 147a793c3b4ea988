import TextCommand.Node.Draft
import TextCommand.Proofs.Node.Descent
import TextCommand.Proofs.Reader.Position

/-!
# A traversal leaves its reader where it began

A run that fails hands back the reader that it was given; asking whether an input is accepted, or
what is suggested for it, always does.  All three are shown to be walks of one reader that is moved
about: each level of the tree remembers its position in bytes and moves the reader back to it,
wherever the levels below and the arguments have left it.
-/

namespace TextCommand

variable {σ β : Type}

/-- What a traversal does at the command where its descent stops, what it answers if there is none,
and behind which answers it goes back.  It stays in the text, and goes back if it is refused. -/
structure Traversal (σ β : Type) where
  act : Command σ → Reader → β × Reader
  refuse : CommandError → β
  goesBack : β → Bool
  chars_act : ∀ command r, (act command r).2.chars = r.chars
  goesBack_refuse : ∀ error, goesBack (refuse error) = true

/-- To put the reader back if the run failed is to go back unless it went well. -/
theorem Run.settled (run : Run σ) (r : Reader) :
    ((run.result, run.source, run.call), if !run.result.isOk then r else run.reader) =
      (((run.restoring r).result, (run.restoring r).source, (run.restoring r).call),
        (run.restoring r).reader) := by
  obtain ⟨result, reader, after, call⟩ := run
  cases result <;> rfl

namespace Traversal

/-- Moves the reader back to a position, if the answer asks for it. -/
def settle (t : Traversal σ β) (position : Nat) (answer : β × Reader) : β × Reader :=
  (answer.1, if t.goesBack answer.1 then answer.2.moveTo position else answer.2)

mutual

/-- The traversal on one reader, which every level moves on and, by its position, back again. -/
def walk (t : Traversal σ β) : Node σ → Reader → β × Reader
  | .command head children, r =>
    t.settle r.cursor <|
      match r.readString with
      | ⟨.ok word, next⟩ =>
        match walkFirst t word children next with
        | some answer => answer
        | none => t.act head (next.moveTo r.cursor)
      | ⟨.error _, next⟩ => t.act head (next.moveTo r.cursor)
  | .registry limit nodes, r =>
    match overLimit? limit r with
    | some error => (t.refuse error, r)
    | none =>
      t.settle r.cursor <|
        match r.skipBlank.readString with
        | ⟨.ok word, next⟩ =>
          match walkFirst t word nodes next with
          | some answer => answer
          | none => (t.refuse (.unknownCommand word r.skipBlank.cursor), next)
        | ⟨.error error, next⟩ => (t.refuse (.read error), next)

/-- The walk through the first node that the word names. -/
def walkFirst (t : Traversal σ β) (word : String) : List (Node σ) → Reader → Option (β × Reader)
  | [], _ => none
  | node :: nodes, r =>
    if node.matchesWord word then some (walk t node r) else walkFirst t word nodes r

end

/-! ### The three traversals -/

/-- A run goes back if it fails. -/
def running (source : σ) : Traversal σ (Except CommandError Unit × σ × Option (Call σ)) where
  act command r :=
    let run := command.run source r
    ((run.result, run.source, run.call), run.reader)
  refuse error := (.error error, source, none)
  goesBack answer := !answer.1.isOk
  chars_act command r := by
    have hread := Kind.chars_readAll command.kinds r
    simp only [Command.run]
    split
    · rfl
    · split <;> simp_all [Run.failed]
  goesBack_refuse _ := rfl

/-- A question whether an input is accepted always goes back. -/
def accepting : Traversal σ Bool where
  act command r :=
    (command.accepts r, if command.isExecutable then (Kind.readAll command.kinds r).reader else r)
  refuse _ := false
  goesBack _ := true
  chars_act command r := by
    split
    · exact Kind.chars_readAll command.kinds r
    · rfl
  goesBack_refuse _ := rfl

/-- So does a question what is suggested. -/
def suggesting (source : σ) : Traversal σ (List String) where
  act command r := (command.suggest source r, (Kind.readAll command.kinds r).reader)
  refuse _ := []
  goesBack _ := true
  chars_act command r := Kind.chars_readAll command.kinds r
  goesBack_refuse _ := rfl

/-! ### Walks and descents -/

section Walk

variable (t : Traversal σ β)

/-- Whatever was done in the text of `r`, to go back to its position is to go back to `r`. -/
theorem settle_cursor {r : Reader} {answer : β × Reader} (h : answer.2.chars = r.chars) :
    t.settle r.cursor answer = (answer.1, if t.goesBack answer.1 then r else answer.2) := by
  rw [settle, Reader.moveTo_cursor h]

theorem chars_settle (position : Nat) (answer : β × Reader) :
    (t.settle position answer).2.chars = answer.2.chars := by
  simp only [settle]
  split
  · exact Reader.chars_moveTo position answer.2
  · rfl

/-- Of two positions to go back to, the earlier level's is the one that counts. -/
theorem settle_settle {r : Reader} (position : Nat) {answer : β × Reader}
    (h : answer.2.chars = r.chars) :
    t.settle r.cursor (t.settle position answer) = t.settle r.cursor answer := by
  rw [t.settle_cursor h, t.settle_cursor ((t.chars_settle position answer).trans h)]
  simp only [settle]
  split <;> rfl

theorem settle_refuse {r left : Reader} (error : CommandError) (h : left.chars = r.chars) :
    t.settle r.cursor (t.refuse error, left) = (t.refuse error, r) := by
  rw [t.settle_cursor h, t.goesBack_refuse, if_pos rfl]

theorem walkFirst_eq (word : String) (nodes : List (Node σ)) (r : Reader) :
    t.walkFirst word nodes r = (Node.first? word nodes).bind fun node => some (t.walk node r) :=
  Node.eq_bind_first? word _ (t.walkFirst word · r) rfl (fun _ _ => rfl) nodes

theorem walk_command (head : Command σ) (children : List (Node σ)) (r : Reader) :
    t.walk (.command head children) r =
      t.settle r.cursor (match Node.route children r with
      | .ok (node, next) => t.walk node next
      | .error _ => t.act head r) := by
  have hback : r.readString.reader.moveTo r.cursor = r :=
    Reader.moveTo_cursor (Reader.chars_readString r)
  rcases hread : r.readString with ⟨error | word, next⟩
  · -- no token
    rw [hread] at hback
    simp only [walk, Node.route, hread, hback]
  · -- a token that names no child is put back
    rw [hread] at hback
    simp only [walk, Node.route, hread, walkFirst_eq]
    cases Node.first? word children with
    | none => simp only [Option.bind_none, hback]
    | some node => rfl

theorem walk_registry (limit : Option Nat) (nodes : List (Node σ)) (r : Reader) :
    t.walk (.registry limit nodes) r =
      match overLimit? limit r with
      | some error => (t.refuse error, r)
      | none =>
        match Node.route nodes r.skipBlank with
        | .ok (node, next) => t.settle r.cursor (t.walk node next)
        | .error error => (t.refuse error, r) := by
  cases hlimit : overLimit? limit r with
  | some error => simp only [walk, hlimit]
  | none =>
    have hchars : r.skipBlank.readString.reader.chars = r.chars :=
      (Reader.chars_readString r.skipBlank).trans r.chars_skipBlank
    rcases hread : r.skipBlank.readString with ⟨error | word, next⟩
    · rw [hread] at hchars
      simp only [walk, Node.route, hlimit, hread]
      exact t.settle_refuse (.read error) hchars
    · rw [hread] at hchars
      simp only [walk, Node.route, hlimit, hread, walkFirst_eq]
      cases Node.first? word nodes with
      | none => exact t.settle_refuse (.unknownCommand word r.skipBlank.cursor) hchars
      | some node => rfl

end Walk

end Traversal

namespace Node

theorem chars_of_route {nodes : List (Node σ)} {node : Node σ} {r next : Reader}
    (h : route nodes r = .ok (node, next)) : next.chars = r.chars := by
  obtain ⟨word, hread, -⟩ := route_eq_ok_iff.mp h
  exact (Reader.passes_of_readString hread).chars

theorem chars_of_descend {node : Node σ} {r : Reader} {stop : Endpoint σ}
    (h : node.descend r = .ok stop) : stop.entry.chars = r.chars := by
  fun_induction descend node r with
  | case1 head children r node next hroute ih => exact (ih h).trans (chars_of_route hroute)
  | case2 head children r error hroute =>
    cases h
    rfl
  | case3 => cases h
  | case4 limit nodes r hlimit node next hroute ih =>
    exact (ih h).trans ((chars_of_route hroute).trans r.chars_skipBlank)
  | case5 => cases h

/-- A walk acts where the descent stops; then it goes back to the position where it began, as often
as it may have gone back to other positions before. -/
theorem walk_eq_descend (t : Traversal σ β) (node : Node σ) (r : Reader) :
    t.walk node r =
      match node.descend r with
      | .ok stop => t.settle r.cursor (t.act stop.command stop.entry)
      | .error error => (t.refuse error, r) := by
  -- one level further down, the reader has gone back to `next`, which is in the text of `r`
  have hlevel : ∀ {r next : Reader} (node : Node σ), next.chars = r.chars →
      t.walk node next =
        (match node.descend next with
        | .ok stop => t.settle next.cursor (t.act stop.command stop.entry)
        | .error error => (t.refuse error, next)) →
      t.settle r.cursor (t.walk node next) =
        match node.descend next with
        | .ok stop => t.settle r.cursor (t.act stop.command stop.entry)
        | .error error => (t.refuse error, r) := by
    intro r next node hnext hwalk
    rw [hwalk]
    cases hstop : node.descend next with
    | ok stop =>
      -- the level above goes back to its own position, from wherever this one went back to
      exact t.settle_settle next.cursor
        ((t.chars_act stop.command stop.entry).trans ((chars_of_descend hstop).trans hnext))
    | error error => exact t.settle_refuse error hnext
  fun_induction descend node r with
  | case1 head children r node next hroute ih =>
    rw [t.walk_command, hroute]
    exact hlevel node (chars_of_route hroute) ih
  | case2 head children r error hroute => rw [t.walk_command, hroute]
  | case3 limit nodes r error hlimit => rw [t.walk_registry, hlimit]
  | case4 limit nodes r hlimit node next hroute ih =>
    rw [t.walk_registry, hlimit, hroute]
    exact hlevel node ((chars_of_route hroute).trans r.chars_skipBlank) ih
  | case5 limit nodes r hlimit error hroute => rw [t.walk_registry, hlimit, hroute]

variable (node : Node σ) (source : σ) (r : Reader)

theorem walk_running :
    (Traversal.running source).walk node r =
      (((node.run source r).result, (node.run source r).source, (node.run source r).call),
        (node.run source r).reader) := by
  rw [walk_eq_descend, run_eq_descend]
  cases hstop : node.descend r with
  | error error => rfl
  | ok stop =>
    have hchars := (Traversal.running source).chars_act stop.command stop.entry
    rw [← Run.settled]
    exact Traversal.settle_cursor _ (hchars.trans (chars_of_descend hstop))

theorem walk_accepting : Traversal.accepting.walk node r = node.accepts r := by
  rw [walk_eq_descend, accepts_eq_descend]
  cases hstop : node.descend r with
  | error error => rfl
  | ok stop =>
    have hchars := Traversal.accepting.chars_act stop.command stop.entry
    exact Traversal.settle_cursor _ (hchars.trans (chars_of_descend hstop))

theorem walk_suggesting : (Traversal.suggesting source).walk node r = node.suggest source r := by
  rw [walk_eq_descend, suggest_eq_descend]
  cases hstop : node.descend r with
  | error error => rfl
  | ok stop =>
    have hchars := (Traversal.suggesting source).chars_act stop.command stop.entry
    exact Traversal.settle_cursor _ (hchars.trans (chars_of_descend hstop))

/-! ### What is left of the reader -/

theorem reader_run_of_error {error : CommandError} (h : (node.run source r).result = .error error) :
    (node.run source r).reader = r := by
  rw [run_eq_descend] at h ⊢
  cases hstop : node.descend r with
  | error error => rfl
  | ok stop =>
    rw [hstop] at h
    simp only [result_restoring] at h
    simp only [Run.restoring, h]

theorem chars_run : (node.run source r).reader.chars = r.chars := by
  rw [run_eq_descend]
  cases hstop : node.descend r with
  | error error => rfl
  | ok stop =>
    have hchars := (Traversal.running source).chars_act stop.command stop.entry
    simp only [Run.restoring]
    split
    · exact hchars.trans (chars_of_descend hstop)
    · rfl

theorem reader_accepts : (node.accepts r).2 = r := by
  rw [accepts_eq_descend]
  cases node.descend r <;> rfl

theorem reader_suggest : (node.suggest source r).2 = r := by
  rw [suggest_eq_descend]
  cases node.descend r <;> rfl

/-- **Traversals are atomic on the position.**  A run that fails, for whatever reason and however deep
in the tree, leaves the reader that it was given, and so does every question; no text is ever changed.
That is what comes of moving one reader through the whole tree, where each level goes back by nothing
but its position in bytes. -/
theorem traversals_keep_reader :
    (∀ error, (node.run source r).result = .error error → (node.run source r).reader = r) ∧
    (node.accepts r).2 = r ∧
    (node.suggest source r).2 = r ∧
    (node.run source r).reader.chars = r.chars ∧
    (Traversal.running source).walk node r =
      (((node.run source r).result, (node.run source r).source, (node.run source r).call),
        (node.run source r).reader) ∧
    Traversal.accepting.walk node r = node.accepts r ∧
    (Traversal.suggesting source).walk node r = node.suggest source r :=
  ⟨fun _ => reader_run_of_error node source r, reader_accepts node r, reader_suggest node source r,
    chars_run node source r, walk_running node source r, walk_accepting node r,
    walk_suggesting node source r⟩

/-- A registry in a registry, with a command whose last argument does not go back when it refuses. -/
def choosyTree : Node Unit :=
  .registry (some 40) [.registry none
    [(Draft.new "say" |>.argument .string "mood" "" |>.argument .messy "word" ""
      |>.execute (fun source _ => (.ok (), source)) |>.build)]]

/-- The refused word ends at byte 28, three levels down; the reader is back in front of the blanks. -/
theorem choosyTree_keeps_reader :
    let r := Reader.ofString "  \"<root>\" say 'so so' badly"
    (choosyTree.run () r).result = .error (.refused "messy" "rejected 'badly'" 28) ∧
    (choosyTree.run () r).reader = r ∧ (choosyTree.accepts r).2 = r := by
  have hresult : (choosyTree.run () (Reader.ofString "  \"<root>\" say 'so so' badly")).result =
    .error (.refused "messy" "rejected 'badly'" 28) := by rfl
  have h := traversals_keep_reader choosyTree () (.ofString "  \"<root>\" say 'so so' badly")
  exact ⟨hresult, h.1 _ hresult, h.2.1⟩

end Node

end TextCommand

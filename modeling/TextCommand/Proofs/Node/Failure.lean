import TextCommand.Node.Draft
import TextCommand.Proofs.Node.Visit

/-!
# The failure of an action reaches the caller

An action fails with a cause under any number of contexts, each attached around those before.  What is at
the root decides what its caller sees, however many contexts stand around it; and each level of the tree
hands that on as it is, and puts its own reader back.
-/

namespace TextCommand

/-! ### Contexts -/

namespace Raised

/-- Attaches contexts one after the other, so that the last is the outermost. -/
def inContexts (contexts : List String) (raised : Raised) : Raised :=
  contexts.foldl (fun raised context => raised.inContext context) raised

theorem inContexts_eq (contexts : List String) (raised : Raised) :
    raised.inContexts contexts = ⟨raised.cause, raised.contexts ++ contexts⟩ := by
  induction contexts generalizing raised with
  | nil => rw [List.append_nil]; rfl
  | cons context contexts ih =>
    have hstep : raised.inContexts (context :: contexts) =
        (raised.inContext context).inContexts contexts := rfl
    rw [hstep, ih, List.append_cons]
    rfl

/-- The text of a failure is that of its outermost context, or of its cause if there is none. -/
theorem text_inContexts (cause : Cause) (contexts : List String) :
    ((of cause).inContexts contexts).text = contexts.getLast?.getD cause.text := by
  rw [inContexts_eq]
  rfl

end Raised

/-- What the caller sees of a cause under contexts. -/
def Cause.SeenAs (cause : Cause) (contexts : List String) (error : CommandError) : Prop :=
  match cause with
  | .command raised => error = raised
  | .mismatch fault => error = .mismatch fault
  | .read fault => error = .action (contexts.getLast?.getD fault.message)
  | .message text => error = .action (contexts.getLast?.getD text)

theorem Raised.seenAs_surface (cause : Cause) (contexts : List String) :
    cause.SeenAs contexts ((Raised.of cause).inContexts contexts).surface := by
  have htext := Raised.text_inContexts cause contexts
  rw [Raised.inContexts_eq] at htext ⊢
  cases cause with
  | command error => rfl
  | mismatch fault => rfl
  | read error => exact congrArg CommandError.action htext
  | message text => exact congrArg CommandError.action htext

namespace Node

variable {σ : Type}

/-- A run whose action fails ends with what is seen of that failure. -/
theorem Reaches.run_of_raised {node : Node σ} {r next : Reader} {head : Command σ} {action : Action σ}
    {values : List Value} (h : node.Reaches r head action values next) {source after : σ}
    {raised : Raised} (hraised : action source values = (.error raised, after)) :
    node.run source r = ⟨.error raised.surface, r, after, some ⟨head, values, next⟩⟩ := by
  rw [h.run_eq, hraised]
  rfl

/-- **The failure of an action reaches the caller unchanged.**  Whatever tree an action is reached in and
however deep, if it fails then so does the run: with the error of the cause itself if that is one of a
traversal or a mismatch of types, whatever contexts are around it, and otherwise with the outermost
context, or the cause's own text.  Every node that the descent comes by ends its own run with that same
error, with its reader put back; the source is as that one action has left it. -/
theorem failure_reaches_caller {node : Node σ} {r next : Reader} {head : Command σ} {action : Action σ}
    {values : List Value} (hreach : node.Reaches r head action values next) {source after : σ}
    {cause : Cause} {contexts : List String}
    (hraised : action source values = (.error ((Raised.of cause).inContexts contexts), after)) :
    ∃ error, cause.SeenAs contexts error ∧
      node.run source r = ⟨.error error, r, after, some ⟨head, values, next⟩⟩ ∧
      ∀ below mid, node.Visits r below mid →
        below.run source mid = ⟨.error error, mid, after, some ⟨head, values, next⟩⟩ := by
  refine ⟨_, Raised.seenAs_surface cause contexts, hreach.run_of_raised hraised, ?_⟩
  intro below mid hvisits
  exact (hvisits.reaches_iff.mp hreach).run_of_raised hraised

/-- An action that counts its calls and always fails. -/
def failing (cause : Cause) (contexts : List String) : Action Nat := fun source _ =>
  (.error ((Raised.of cause).inContexts contexts), source + 1)

/-- It is three levels down, below a command that has an action of its own. -/
def failingTree (cause : Cause) (contexts : List String) : Node Nat :=
  let join := Draft.new "join" |>.argument .int "team" "" |>.execute (failing cause contexts)
  let play := Draft.new "play" |>.execute (fun source _ => (.ok (), source)) |>.child join.build
  .registry none [.registry (some 40) [play.build]]

theorem failingTree_reaches (cause : Cause) (contexts : List String) :
    ∃ head next, (failingTree cause contexts).Reaches (.ofString " '<root>' \"play\" join 7") head
      (failing cause contexts) [.int 7] next := by
  have hcall : ∃ head next, ((failingTree cause contexts).run 0
      (.ofString " '<root>' \"play\" join 7")).call = some ⟨head, [.int 7], next⟩ ∧
        head.action = some (failing cause contexts) := ⟨_, _, rfl, rfl⟩
  obtain ⟨head, next, hcall, haction⟩ := hcall
  obtain ⟨_, entry, hstop, -, hread⟩ := call_eq_some_iff.mp hcall
  exact ⟨head, next, entry, hstop, haction, hread⟩

/-- A refusal is seen through both contexts with its own position, a plain message by the outer one. -/
theorem failingTree_shows_cause :
    let r := Reader.ofString " '<root>' \"play\" join 7"
    ((failingTree (.command (.refused "team" "full" 99)) ["joining", "playing"]).run 0 r).result =
      .error (.refused "team" "full" 99) ∧
    ((failingTree (.message "full") ["joining", "playing"]).run 0 r).result =
      .error (.action "playing") ∧
    ((failingTree (.message "full") ["joining", "playing"]).run 0 r).reader = r ∧
    ((failingTree (.message "full") ["joining", "playing"]).run 0 r).source = 1 := by
  have hfails : ∀ cause, failing cause ["joining", "playing"] 0 [.int 7] =
      (.error ((Raised.of cause).inContexts ["joining", "playing"]), 1) := fun _ => rfl
  obtain ⟨head, next, hrefused⟩ :=
    failingTree_reaches (.command (.refused "team" "full" 99)) ["joining", "playing"]
  obtain ⟨_, rfl, hrun, -⟩ := failure_reaches_caller hrefused (hfails _)
  obtain ⟨head', next', hmessage⟩ := failingTree_reaches (.message "full") ["joining", "playing"]
  obtain ⟨_, rfl, hrun', -⟩ := failure_reaches_caller hmessage (hfails _)
  exact ⟨congrArg Run.result hrun, congrArg Run.result hrun', congrArg Run.reader hrun',
    congrArg Run.source hrun'⟩

end Node

end TextCommand

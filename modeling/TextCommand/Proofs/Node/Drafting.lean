import Mathlib.Data.List.Induction
import TextCommand.Node.Draft
import TextCommand.Proofs.Node.Endpoint

/-!
# What a draft keeps of its steps

Each step gives something to one part of the draft and leaves the other parts alone.  Names, arguments and
children are put behind those given before, a description, a permission and suggestions take the place
of what was there, and an action holds until another one is bound or an argument is declared.  So
whatever a draft holds can be read off the steps that led to it, part by part, and how the steps that are
about different parts are interleaved makes no difference.
-/

namespace TextCommand

attribute [ext] Command

namespace Draft

/-- A step in building up a draft. -/
inductive Step (σ : Type) where
  | description (text : String)
  | alsoNamed (word : String)
  | requires (permits : σ → Bool)
  | suggests (provide : σ → List String)
  | child (node : Node σ)
  | argument (kind : Kind) (name text : String)
  | describedArgument (kind : Kind) (given : Argument)
  | execute (action : Action σ)

/-- The part of a draft that a step is about.  Declaring arguments and binding an action go together. -/
inductive Topic where
  | description | names | permission | suggestions | children | execution
deriving DecidableEq

variable {σ : Type}

namespace Step

def apply : Step σ → Draft σ → Draft σ
  | .description text, d => d.description text
  | .alsoNamed word, d => d.alsoNamed word
  | .requires permits, d => d.requires permits
  | .suggests provide, d => d.suggests provide
  | .child node, d => d.child node
  | .argument kind name text, d => d.argument kind name text
  | .describedArgument kind given, d => d.describedArgument kind given
  | .execute action, d => d.execute action

def topic : Step σ → Topic
  | .description _ => .description
  | .alsoNamed _ => .names
  | .requires _ => .permission
  | .suggests _ => .suggestions
  | .child _ => .children
  | .argument _ _ _ | .describedArgument _ _ | .execute _ => .execution

/-! ### What a step gives -/

def description? : Step σ → Option String
  | .description text => some text
  | _ => none

def word? : Step σ → Option String
  | .alsoNamed word => some word
  | _ => none

def permission? : Step σ → Option (σ → Bool)
  | .requires permits => some permits
  | _ => none

def suggestions? : Step σ → Option (σ → List String)
  | .suggests provide => some provide
  | _ => none

def child? : Step σ → Option (Node σ)
  | .child node => some node
  | _ => none

/-- The argument that the step declares, as it was given, and the kind that reads it. -/
def declared? : Step σ → Option (Kind × Argument)
  | .argument kind name text => some (kind, .new name text)
  | .describedArgument kind given => some (kind, given)
  | _ => none

def action? : Step σ → Option (Action σ)
  | .execute action => some action
  | _ => none

theorem eq_execute_of_action? {step : Step σ} {action : Action σ} (h : step.action? = some action) :
    step = .execute action := by
  cases step with
  | execute given =>
    cases h
    rfl
  | description | alsoNamed | requires | suggests | child | argument | describedArgument => cases h

end Step

/-- A declared argument as a draft holds it: with the name of the kind that reads it. -/
def held (declared : Kind × Argument) : Argument := { declared.2 with kind := declared.1.name }

/-- The draft that the steps lead to. -/
def ofSteps (name : String) (steps : List (Step σ)) : Draft σ :=
  steps.foldl (fun d step => step.apply d) (.new name)

theorem ofSteps_concat (name : String) (steps : List (Step σ)) (step : Step σ) :
    ofSteps name (steps ++ [step]) = step.apply (ofSteps name steps) := by
  rw [ofSteps, List.foldl_append]
  rfl

/-! ### What a step does to each part -/

section Apply

variable (step : Step σ) (d : Draft σ)

theorem name_apply : (step.apply d).command.name = d.command.name := by
  cases step <;> rfl

theorem description_apply :
    some (step.apply d).command.description = step.description?.or (some d.command.description) := by
  cases step <;> rfl

theorem aliases_apply :
    (step.apply d).command.aliases = d.command.aliases ++ step.word?.toList := by
  cases step <;> first | rfl | exact (List.append_nil _).symm

theorem permission_apply :
    (step.apply d).command.permission = step.permission?.or d.command.permission := by
  cases step <;> rfl

theorem suggestions_apply :
    (step.apply d).command.suggestions = step.suggestions?.or d.command.suggestions := by
  cases step <;> rfl

theorem children_apply : (step.apply d).children = d.children ++ step.child?.toList := by
  cases step <;> first | rfl | exact (List.append_nil _).symm

theorem arguments_apply :
    (step.apply d).command.arguments =
      d.command.arguments ++ (step.declared?.map held).toList := by
  cases step <;> first | rfl | exact (List.append_nil _).symm

theorem kinds_apply :
    (step.apply d).command.kinds = d.command.kinds ++ (step.declared?.map Prod.fst).toList := by
  cases step <;> first | rfl | exact (List.append_nil _).symm

/-- Declaring an argument drops the action, whatever it was. -/
theorem action_apply :
    (step.apply d).command.action =
      if step.declared?.isSome then none else step.action?.or d.command.action := by
  cases step <;> rfl

end Apply

/-! ### What all steps together do to it -/

section Parts

variable {β : Type} {given? : Step σ → Option β}

/-- A part to which each step adds what it gives holds all that was given, in order. -/
theorem eq_filterMap_of_appended (part : Draft σ → List β) (hnew : ∀ name, part (.new name) = [])
    (happly : ∀ step d, part (step.apply d) = part d ++ (given? step).toList)
    (name : String) (steps : List (Step σ)) :
    part (ofSteps name steps) = steps.filterMap given? := by
  induction steps using List.reverseRecOn with
  | nil => exact hnew name
  | append_singleton steps step ih =>
    rw [ofSteps_concat, happly, ih, List.filterMap_append]
    cases hgiven : given? step <;> simp [hgiven]

/-- A part that each step replaces by what it gives holds what was given last. -/
theorem eq_getLast?_of_replaced (part : Draft σ → Option β)
    (happly : ∀ step d, part (step.apply d) = (given? step).or (part d))
    (name : String) (steps : List (Step σ)) :
    part (ofSteps name steps) = (steps.filterMap given?).getLast?.or (part (.new name)) := by
  induction steps using List.reverseRecOn with
  | nil => rfl
  | append_singleton steps step ih =>
    rw [ofSteps_concat, happly, ih, List.filterMap_append]
    cases hgiven : given? step <;> simp [hgiven]

end Parts

/-! ### The action -/

/-- The step declares no argument and binds no action. -/
def Step.Quiet (step : Step σ) : Prop := step.declared? = none ∧ step.action? = none

theorem action_apply_of_quiet {step : Step σ} (h : step.Quiet) (d : Draft σ) :
    (step.apply d).command.action = d.command.action := by
  rw [action_apply, h.1, h.2]
  rfl

/-- An action that is bound was given by some step, and since then there were only quiet ones. -/
theorem exists_execute_of_action {name : String} {steps : List (Step σ)} {action : Action σ}
    (h : (ofSteps name steps).command.action = some action) :
    ∃ before after, steps = before ++ .execute action :: after ∧ ∀ step ∈ after, step.Quiet := by
  induction steps using List.reverseRecOn with
  | nil => cases h
  | append_singleton steps step ih =>
    rw [ofSteps_concat, action_apply] at h
    split at h
    · -- the last step declares an argument, and nothing is bound
      cases h
    · next hdeclared =>
      cases hgiven : step.action? with
      | some given =>
        -- the last step binds the action
        rw [hgiven] at h
        cases h
        exact ⟨steps, [], by rw [Step.eq_execute_of_action? hgiven], List.forall_mem_nil _⟩
      | none =>
        -- the last step changes nothing, so the action was bound before it
        rw [hgiven] at h
        obtain ⟨before, after, rfl, hafter⟩ := ih h
        have hstep : step.Quiet := ⟨by simpa using hdeclared, hgiven⟩
        refine ⟨before, after ++ [step], by simp, List.forall_mem_append.mpr ⟨hafter, ?_⟩⟩
        simpa using hstep

/-- As long as no argument is declared any more some action stays bound. -/
theorem isSome_action_of_undeclared (name : String) (action : Action σ) (before : List (Step σ))
    {after : List (Step σ)} (h : ∀ step ∈ after, step.declared? = none) :
    (ofSteps name (before ++ .execute action :: after)).command.action.isSome = true := by
  induction after using List.reverseRecOn with
  | nil =>
    rw [ofSteps_concat]
    rfl
  | append_singleton after step ih =>
    obtain ⟨hafter, hstep⟩ := List.forall_mem_append.mp h
    rw [← List.cons_append, ← List.append_assoc, ofSteps_concat, action_apply,
      hstep step List.mem_cons_self, Option.isSome_none, if_neg Bool.false_ne_true,
      Option.isSome_or, ih hafter, Bool.or_true]

/-! ### The command that is drafted -/

/-- What the steps make of a command. -/
structure Records (name : String) (steps : List (Step σ)) (head : Command σ) : Prop where
  name : head.name = name
  description : head.description = (steps.filterMap Step.description?).getLast?.getD ""
  aliases : head.aliases = steps.filterMap Step.word?
  arguments : head.arguments = (steps.filterMap Step.declared?).map held
  kinds : head.kinds = (steps.filterMap Step.declared?).map Prod.fst
  permission : head.permission = (steps.filterMap Step.permission?).getLast?
  suggestions : head.suggestions = (steps.filterMap Step.suggestions?).getLast?
  /-- an action is given, and no argument is declared any more -/
  executable : head.isExecutable = true ↔
    ∃ before action after, steps = before ++ .execute action :: after ∧
      ∀ step ∈ after, step.declared? = none
  /-- and it is the last one given that is bound -/
  bound : head.isExecutable = true → head.action = (steps.filterMap Step.action?).getLast?

theorem name_ofSteps (name : String) (steps : List (Step σ)) :
    (ofSteps name steps).command.name = name := by
  induction steps using List.reverseRecOn with
  | nil => rfl
  | append_singleton steps step ih => rw [ofSteps_concat, name_apply, ih]

theorem description_ofSteps (name : String) (steps : List (Step σ)) :
    (ofSteps name steps).command.description =
      (steps.filterMap Step.description?).getLast?.getD "" := by
  have hlast := eq_getLast?_of_replaced (fun d => some d.command.description) description_apply
    name steps
  rwa [Option.or_some, Option.some.injEq] at hlast

theorem children_ofSteps (name : String) (steps : List (Step σ)) :
    (ofSteps name steps).children = steps.filterMap Step.child? :=
  eq_filterMap_of_appended Draft.children (fun _ => rfl) children_apply name steps

theorem isExecutable_ofSteps_iff {name : String} {steps : List (Step σ)} :
    (ofSteps name steps).command.isExecutable = true ↔
      ∃ before action after, steps = before ++ .execute action :: after ∧
        ∀ step ∈ after, step.declared? = none := by
  constructor
  · intro h
    obtain ⟨action, haction⟩ := Option.isSome_iff_exists.mp h
    obtain ⟨before, after, hsteps, hquiet⟩ := exists_execute_of_action haction
    exact ⟨before, action, after, hsteps, fun step hstep => (hquiet step hstep).1⟩
  · rintro ⟨before, action, after, rfl, hafter⟩
    exact isSome_action_of_undeclared name action before hafter

theorem action_ofSteps_of_isExecutable {name : String} {steps : List (Step σ)}
    (h : (ofSteps name steps).command.isExecutable = true) :
    (ofSteps name steps).command.action = (steps.filterMap Step.action?).getLast? := by
  obtain ⟨action, haction⟩ := Option.isSome_iff_exists.mp h
  obtain ⟨before, after, rfl, hquiet⟩ := exists_execute_of_action haction
  have hnone : after.filterMap Step.action? = [] :=
    List.filterMap_eq_nil_iff.mpr fun step hstep => (hquiet step hstep).2
  simp [haction, hnone, Step.action?]

theorem records_ofSteps (name : String) (steps : List (Step σ)) :
    Records name steps (ofSteps name steps).command where
  name := name_ofSteps name steps
  description := description_ofSteps name steps
  aliases := eq_filterMap_of_appended (·.command.aliases) (fun _ => rfl) aliases_apply name steps
  arguments := by
    rw [List.map_filterMap]
    exact eq_filterMap_of_appended (·.command.arguments) (fun _ => rfl) arguments_apply name steps
  kinds := by
    rw [List.map_filterMap]
    exact eq_filterMap_of_appended (·.command.kinds) (fun _ => rfl) kinds_apply name steps
  permission := by
    rw [eq_getLast?_of_replaced (·.command.permission) permission_apply name steps]
    exact Option.or_none
  suggestions := by
    rw [eq_getLast?_of_replaced (·.command.suggestions) suggestions_apply name steps]
    exact Option.or_none
  executable := isExecutable_ofSteps_iff
  bound := action_ofSteps_of_isExecutable

/-! ### Steps in another order -/

/-- The steps about each part are the same, in the same order. -/
def SameByTopic (steps steps' : List (Step σ)) : Prop :=
  ∀ topic, steps'.filter (·.topic = topic) = steps.filter (·.topic = topic)

/-- The step gives nothing to the part. -/
def Step.SilentOn (step : Step σ) : Topic → Prop
  | .description => step.description? = none
  | .names => step.word? = none
  | .permission => step.permission? = none
  | .suggestions => step.suggestions? = none
  | .children => step.child? = none
  | .execution => step.Quiet

theorem Step.silentOn_of_topic {step : Step σ} {topic : Topic} (h : step.topic ≠ topic) :
    step.SilentOn topic := by
  cases topic <;> cases step <;> first | rfl | exact ⟨rfl, rfl⟩ | exact absurd rfl h

/-- What is bound depends only on the steps that declare or bind. -/
theorem action_ofSteps_filter (name : String) (steps : List (Step σ)) :
    (ofSteps name (steps.filter (·.topic = .execution))).command.action =
      (ofSteps name steps).command.action := by
  induction steps using List.reverseRecOn with
  | nil => rfl
  | append_singleton steps step ih =>
    rw [List.filter_append]
    by_cases htopic : step.topic = .execution
    · -- a step that declares or binds
      rw [List.filter_cons_of_pos (by simpa using htopic), List.filter_nil, ofSteps_concat,
        ofSteps_concat, action_apply, action_apply, ih]
    · -- any other leaves the action as it is
      rw [List.filter_cons_of_neg (by simpa using htopic), List.filter_nil, List.append_nil,
        ofSteps_concat, action_apply_of_quiet (Step.silentOn_of_topic htopic), ih]

namespace SameByTopic

variable {steps steps' : List (Step σ)}

theorem filterMap_eq (h : SameByTopic steps steps') {β : Type} {given? : Step σ → Option β}
    (topic : Topic) (hgiven : ∀ step, step.topic ≠ topic → given? step = none) :
    steps'.filterMap given? = steps.filterMap given? := by
  have honly : ∀ l : List (Step σ), (l.filter (·.topic = topic)).filterMap given? =
      l.filterMap given? := by
    intro l
    rw [List.filterMap_filter]
    refine congrArg (List.filterMap · l) (funext fun step => ?_)
    by_cases htopic : step.topic = topic
    · simp [htopic]
    · simp [htopic, hgiven step htopic]
  rw [← honly steps', ← honly steps, h topic]

theorem action_eq (h : SameByTopic steps steps') (name : String) :
    (ofSteps name steps').command.action = (ofSteps name steps).command.action := by
  rw [← action_ofSteps_filter, h .execution, action_ofSteps_filter]

theorem command_eq (h : SameByTopic steps steps') (name : String) :
    (ofSteps name steps').command = (ofSteps name steps).command := by
  have hold := records_ofSteps name steps
  have hnew := records_ofSteps name steps'
  have hdeclared : steps'.filterMap Step.declared? = steps.filterMap Step.declared? :=
    h.filterMap_eq .execution fun _ htopic => (Step.silentOn_of_topic htopic).1
  refine Command.ext (hnew.name.trans hold.name.symm) ?_ ?_ ?_ ?_ ?_ (h.action_eq name) ?_
  · rw [hnew.description, hold.description,
      h.filterMap_eq .description fun _ => Step.silentOn_of_topic]
  · rw [hnew.aliases, hold.aliases, h.filterMap_eq .names fun _ => Step.silentOn_of_topic]
  · rw [hnew.arguments, hold.arguments, hdeclared]
  · rw [hnew.kinds, hold.kinds, hdeclared]
  · rw [hnew.permission, hold.permission,
      h.filterMap_eq .permission fun _ => Step.silentOn_of_topic]
  · rw [hnew.suggestions, hold.suggestions,
      h.filterMap_eq .suggestions fun _ => Step.silentOn_of_topic]

theorem build_eq (h : SameByTopic steps steps') (name : String) :
    (ofSteps name steps').build = (ofSteps name steps).build := by
  rw [build, build, h.command_eq, children_ofSteps, children_ofSteps,
    h.filterMap_eq .children fun _ => Step.silentOn_of_topic]

/-- A step can be moved across others that are about other parts. -/
theorem of_move (before after : List (Step σ)) {step : Step σ} {crossed : List (Step σ)}
    (h : ∀ other ∈ crossed, other.topic ≠ step.topic) :
    SameByTopic (before ++ step :: (crossed ++ after)) (before ++ (crossed ++ step :: after)) := by
  intro topic
  rw [List.filter_append, List.filter_append, List.filter_append]
  by_cases htopic : step.topic = topic
  · -- the step keeps its place among those about its part
    subst htopic
    have hnone : crossed.filter (·.topic = step.topic) = [] := by
      simpa [List.filter_eq_nil_iff] using h
    simp [hnone]
  · -- for another part it does not count
    simp [htopic]

end SameByTopic

/-! ### The node that is built -/

/-- Where the next token names no child, the command's own arguments come next. -/
theorem reaches_build_iff {d : Draft σ} {r : Reader} {error : CommandError}
    (hroute : Node.route d.children r = .error error) {head : Command σ} {action : Action σ}
    {values : List Value} {next : Reader} :
    d.build.Reaches r head action values next ↔
      head = d.command ∧ head.action = some action ∧
        Kind.readAll d.command.kinds r = ⟨.ok values, next⟩ := by
  have hstop : d.build.descend r = .ok ⟨d.command, r⟩ := by
    rw [build, Node.descend_command, hroute]
  constructor
  · rintro ⟨entry, hdescend, haction, hread⟩
    rw [hstop] at hdescend
    cases hdescend
    exact ⟨rfl, haction, hread⟩
  · rintro ⟨rfl, haction, hread⟩
    exact ⟨r, hstop, haction, hread⟩

theorem call_build_iff {d : Draft σ} {source : σ} {r : Reader} {error : CommandError}
    (hroute : Node.route d.children r = .error error) {call : Call σ} :
    (d.build.run source r).call = some call ↔
      call.command = d.command ∧ d.command.isExecutable = true ∧
        Kind.readAll d.command.kinds r = ⟨.ok call.values, call.reader⟩ := by
  rw [Node.call_eq_some_iff]
  simp only [reaches_build_iff hroute, exists_and_left, exists_and_right]
  refine and_congr_right fun hcommand => ?_
  rw [hcommand, Command.isExecutable, Option.isSome_iff_exists]

theorem accepts_build_iff {d : Draft σ} {r : Reader} {error : CommandError}
    (hroute : Node.route d.children r = .error error) :
    (d.build.accepts r).1 = true ↔
      d.command.isExecutable = true ∧ ∃ values next,
        Kind.readAll d.command.kinds r = ⟨.ok values, next⟩ ∧ next.atBoundary = true := by
  rw [Node.accepts_eq_true_iff, Command.isExecutable, Option.isSome_iff_exists]
  simp only [reaches_build_iff hroute]
  constructor
  · rintro ⟨head, action, values, next, ⟨rfl, haction, hread⟩, hend⟩
    exact ⟨⟨action, haction⟩, values, next, hread, hend⟩
  · rintro ⟨⟨action, haction⟩, values, next, hread, hend⟩
    exact ⟨d.command, action, values, next, ⟨rfl, haction, hread⟩, hend⟩

/-- **A node is what its steps declare.**  Its further names and its children are those added, in order, its
description, permission and suggestions those set last.  Its arguments are those declared, in order, each
with the name of the kind declared with it, and where no child comes next it is these kinds, in the same
order, by which its input is read for running and for checking.  It can be run if and only if an action is
bound behind the last argument, and then it runs the last action given.  Steps about different parts can be
interleaved in any way, and each of them can be moved across others; only declaring arguments and binding
actions are one part. -/
theorem build_keeps_in_step (name : String) (steps : List (Step σ)) :
    ∃ head, (ofSteps name steps).build = .command head (steps.filterMap Step.child?) ∧
      Records name steps head ∧
      (∀ r error, Node.route (steps.filterMap Step.child?) r = .error error →
        (∀ source call, ((ofSteps name steps).build.run source r).call = some call ↔
          call.command = head ∧ head.isExecutable = true ∧
            Kind.readAll ((steps.filterMap Step.declared?).map Prod.fst) r =
              ⟨.ok call.values, call.reader⟩) ∧
        (((ofSteps name steps).build.accepts r).1 = true ↔
          head.isExecutable = true ∧ ∃ values next,
            Kind.readAll ((steps.filterMap Step.declared?).map Prod.fst) r = ⟨.ok values, next⟩ ∧
              next.atBoundary = true)) ∧
      (∀ steps', SameByTopic steps steps' →
        (ofSteps name steps').build = (ofSteps name steps).build) ∧
      ∀ before step crossed after, steps = before ++ step :: (crossed ++ after) →
        (∀ other ∈ crossed, other.topic ≠ step.topic) →
        (ofSteps name (before ++ (crossed ++ step :: after))).build = (ofSteps name steps).build := by
  have hrecords := records_ofSteps name steps
  have hchildren := children_ofSteps name steps
  refine ⟨(ofSteps name steps).command, by rw [build, hchildren], hrecords, ?_,
    fun steps' h => h.build_eq name, ?_⟩
  · intro r error hroute
    rw [← hchildren] at hroute
    rw [← hrecords.kinds]
    exact ⟨fun source call => call_build_iff hroute, accepts_build_iff hroute⟩
  · rintro before step crossed after rfl hcrossed
    exact (SameByTopic.of_move before after hcrossed).build_eq name

/-- Binding the action first binds none. -/
example (action : Action σ) :
    (ofSteps "late" [.execute action, .argument .int "n" ""]).build.isExecutable = false := rfl

end Draft

end TextCommand

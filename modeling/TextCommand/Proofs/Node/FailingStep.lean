import TextCommand.Proofs.Node.Limit
import TextCommand.Proofs.Node.Visit

/-!
# The step at which a run fails

A run that enters no action fails at one step of its way: a registry does not find a node, the command at
the end has no action, or one of its arguments cannot be read.  `FailsAt` names the error of that step and
the reader at which the step stood; the run fails with just that error, which carries that position.
-/

namespace TextCommand

namespace Node

variable {σ : Type}

/-- The step at which a run from `start` fails before any action, with the error of that step and the
reader at which it stood. -/
inductive FailsAt (start : Node σ) (r : Reader) : CommandError → Reader → Prop
  /-- a registry finds no token behind the blanks -/
  | missing {limit : Option Nat} {nodes : List (Node σ)} {mid left : Reader} {error : ReadError}
      (hvisits : start.Visits r (.registry limit nodes) mid) (hlimit : overLimit? limit mid = none)
      (hread : mid.skipBlank.readString = ⟨.error error, left⟩) :
      FailsAt start r (.read error) mid.skipBlank
  /-- the token there names no node of the registry -/
  | unknown {limit : Option Nat} {nodes : List (Node σ)} {mid left : Reader} {word : String}
      (hvisits : start.Visits r (.registry limit nodes) mid) (hlimit : overLimit? limit mid = none)
      (hread : mid.skipBlank.readString = ⟨.ok word, left⟩) (hfirst : first? word nodes = none) :
      FailsAt start r (.unknownCommand word mid.skipBlank.cursor) mid.skipBlank
  /-- the command at the end of the literals has no action -/
  | inert {head : Command σ} {entry : Reader} (hstop : start.descend r = .ok ⟨head, entry⟩)
      (haction : head.action = none) :
      FailsAt start r (.shape "Invalid command" entry.cursor) entry
  /-- an argument cannot be read where those before it end -/
  | argument {head : Command σ} {action : Action σ} {entry mid left : Reader} {front back : List Kind}
      {kind : Kind} {values : List Value} {error : CommandError}
      (hstop : start.descend r = .ok ⟨head, entry⟩) (haction : head.action = some action)
      (hkinds : head.kinds = front ++ kind :: back)
      (hfront : Kind.readAll front entry = ⟨.ok values, mid⟩)
      (hread : kind.read mid = ⟨.error error, left⟩) (hkind : kind ≠ .messy) :
      FailsAt start r error mid
  /-- a messy argument is at fault where it has left the reader -/
  | messy {head : Command σ} {action : Action σ} {entry mid left : Reader} {front back : List Kind}
      {values : List Value} {error : CommandError} (hstop : start.descend r = .ok ⟨head, entry⟩)
      (haction : head.action = some action) (hkinds : head.kinds = front ++ .messy :: back)
      (hfront : Kind.readAll front entry = ⟨.ok values, mid⟩)
      (hread : Kind.messy.read mid = ⟨.error error, left⟩) :
      FailsAt start r error left

variable {start : Node σ} {r stood : Reader} {source : σ} {error : CommandError}

/-! ### The run fails with the error of that step -/

theorem FailsAt.run_eq (h : start.FailsAt r error stood) (source : σ) :
    start.run source r = .failed error source r := by
  cases h with
  | @missing limit nodes mid left error hvisits hlimit hread =>
    have hroute : route nodes mid.skipBlank = .error (.read error) := by simp only [route, hread]
    refine run_of_descend_error ?_
    rw [hvisits.descend_eq, descend_registry, hlimit, hroute]
  | @unknown limit nodes mid left word hvisits hlimit hread hfirst =>
    have hroute : route nodes mid.skipBlank = .error (.unknownCommand word mid.skipBlank.cursor) := by
      simp only [route, hread, hfirst]
    refine run_of_descend_error ?_
    rw [hvisits.descend_eq, descend_registry, hlimit, hroute]
  | inert hstop haction => exact run_of_inert hstop haction
  | argument hstop haction hkinds hfront hread =>
    exact run_of_unread hstop haction
      (Kind.readAll_eq_error_iff.mpr ⟨_, _, _, _, _, hkinds, hfront, hread⟩)
  | messy hstop haction hkinds hfront hread =>
    exact run_of_unread hstop haction
      (Kind.readAll_eq_error_iff.mpr ⟨_, _, _, _, _, hkinds, hfront, hread⟩)

/-! ### Every run that enters no action fails at some step -/

theorem exists_failsAt_of_route {limit : Option Nat} {nodes : List (Node σ)} {mid : Reader}
    (hvisits : start.Visits r (.registry limit nodes) mid) (hlimit : overLimit? limit mid = none)
    (h : route nodes mid.skipBlank = .error error) : ∃ stood, start.FailsAt r error stood := by
  unfold route at h
  split at h
  · next hread =>
    split at h
    · cases h
    · next hfirst =>
      cases h
      exact ⟨_, .unknown hvisits hlimit hread hfirst⟩
  · next hread =>
    cases h
    exact ⟨_, .missing hvisits hlimit hread⟩

theorem exists_failsAt_of_readAll {head : Command σ} {action : Action σ} {entry left : Reader}
    (hstop : start.descend r = .ok ⟨head, entry⟩) (haction : head.action = some action)
    (h : Kind.readAll head.kinds entry = ⟨.error error, left⟩) :
    ∃ stood, start.FailsAt r error stood := by
  obtain ⟨front, kind, back, values, mid, hkinds, hfront, hread⟩ := Kind.readAll_eq_error_iff.mp h
  by_cases hkind : kind = .messy
  · subst hkind
    exact ⟨left, .messy hstop haction hkinds hfront hread⟩
  · exact ⟨mid, .argument hstop haction hkinds hfront hread hkind⟩

theorem exists_failsAt (hcall : (start.run source r).call = none)
    (hresult : (start.run source r).result = .error error)
    (hshort : ∀ length limit, error ≠ .tooLong length limit) : ∃ stood, start.FailsAt r error stood := by
  cases hstop : start.descend r with
  | error fault =>
    -- the descent has failed, at a registry
    rw [run_of_descend_error hstop] at hresult
    cases hresult
    obtain ⟨limit, nodes, mid, hvisits, hover | ⟨hlimit, hroute⟩⟩ := visits_of_descend_error hstop
    · obtain ⟨n, -, -, rfl⟩ := overLimit?_eq_some_iff.mp hover
      exact absurd rfl (hshort _ n)
    · exact exists_failsAt_of_route hvisits hlimit hroute
  | ok stop =>
    -- it has stopped; the action was not entered, so there is none or an argument was not read
    obtain ⟨head, entry⟩ := stop
    cases haction : head.action with
    | none =>
      rw [run_of_inert hstop haction] at hresult
      cases hresult
      exact ⟨entry, .inert hstop haction⟩
    | some action =>
      rcases hread : Kind.readAll head.kinds entry with ⟨fault | values, left⟩
      · rw [run_of_unread hstop haction hread] at hresult
        cases hresult
        exact exists_failsAt_of_readAll hstop haction hread
      · have hreach : start.Reaches r head action values left := ⟨entry, hstop, haction, hread⟩
        rw [hreach.run_eq, call_restoring] at hcall
        cases hcall

/-! ### Its position -/

theorem FailsAt.cursor?_eq (h : start.FailsAt r error stood) : error.cursor? = some stood.cursor := by
  cases h with
  | missing hvisits hlimit hread => exact (Reader.contract_readString.failed hread).2
  | unknown => rfl
  | inert => rfl
  | argument hstop haction hkinds hfront hread hkind => exact ((Kind.contract_read hkind).failed hread).2
  | messy hstop haction hkinds hfront hread => exact Kind.cursor?_of_read_error hread

theorem goesOn_of_descend {stop : Endpoint σ} (h : start.descend r = .ok stop) :
    r.GoesOn stop.entry := by
  obtain ⟨children, hvisits⟩ := visits_of_descend h
  exact hvisits.goesOn

/-- However deep the step, it stood in the text of the run, and not before its start. -/
theorem FailsAt.goesOn (h : start.FailsAt r error stood) : r.GoesOn stood := by
  have harguments : ∀ {head : Command σ} {entry mid : Reader} {front : List Kind} {values : List Value},
      start.descend r = .ok ⟨head, entry⟩ → Kind.readAll front entry = ⟨.ok values, mid⟩ →
      r.GoesOn mid := by
    intro head entry mid front values hstop hfront
    have hread := Kind.goesOn_readAll front entry
    rw [hfront] at hread
    exact (goesOn_of_descend hstop).trans hread
  cases h with
  | @missing limit nodes mid left error hvisits => exact hvisits.goesOn.trans mid.goesOn_skipBlank
  | @unknown limit nodes mid left word hvisits => exact hvisits.goesOn.trans mid.goesOn_skipBlank
  | inert hstop => exact goesOn_of_descend hstop
  | argument hstop haction hkinds hfront => exact harguments hstop hfront
  | @messy head action entry mid left front back values error hstop haction hkinds hfront hread =>
    -- the messy kind alone stands behind what it has read
    have hmessy := Kind.goesOn_read .messy mid
    rw [hread] at hmessy
    exact (harguments hstop hfront).trans hmessy

end Node

end TextCommand

import TextCommand.Proofs.Node.Endpoint
import TextCommand.Proofs.Reader.Settled

/-!
# What a registry accepts, it reads to the end

An input is accepted as soon as a blank follows the last argument.  Below a registry that never lets
unread text through: the registry reads at least one token, so the reader is settled from there on,
through every level of the tree and every argument, and a settled reader that stands at a boundary
stands at the end.
-/

namespace TextCommand

/-- A settled reader has a boundary in front of it only at the end of its text. -/
theorem Reader.Settled.atBoundary_iff {r : Reader} (h : r.Settled) :
    r.atBoundary = true ↔ r.cursor = r.totalLength := by
  rw [Reader.cursor_eq_totalLength_iff]
  cases hrest : r.rest with
  | nil => simp [Reader.atBoundary, Reader.peek, hrest]
  | cons c cs =>
    have hc : Text.isBlank c = false := h c (by rw [hrest]; rfl)
    simp [Reader.atBoundary, Reader.peek, hrest, hc]

namespace Node

variable {σ : Type} {r next : Reader}

theorem passes_of_route {nodes : List (Node σ)} {node : Node σ}
    (h : route nodes r = .ok (node, next)) : r.Passes next := by
  obtain ⟨word, hread, -⟩ := route_eq_ok_iff.mp h
  exact Reader.passes_of_readString hread

/-- A descent that starts behind a finished token ends behind one. -/
theorem passes_of_descend {node : Node σ} {stop : Endpoint σ} (hr : r.Settled)
    (h : node.descend r = .ok stop) : r.Passes stop.entry := by
  fun_induction descend node r with
  | case1 head children r node next hroute ih =>
    have hp := passes_of_route hroute
    exact hp.trans (ih hp.settled h)
  | case2 head children r error hroute =>
    cases h
    exact ⟨rfl, hr⟩
  | case3 => cases h
  | case4 limit nodes r hlimit node next hroute ih =>
    have hp := r.passes_skipBlank.trans (passes_of_route hroute)
    exact hp.trans (ih hp.settled h)
  | case5 => cases h

/-- A registry passes the blanks in front itself, so its descent may start anywhere. -/
theorem passes_of_registry_descend {limit : Option Nat} {nodes : List (Node σ)} {stop : Endpoint σ}
    (h : (Node.registry limit nodes).descend r = .ok stop) : r.Passes stop.entry := by
  rw [descend_registry] at h
  split at h
  · cases h
  · split at h
    · next node next hroute =>
      have hp := r.passes_skipBlank.trans (passes_of_route hroute)
      exact hp.trans (passes_of_descend hp.settled h)
    · cases h

theorem overLimit?_skipBlank (limit : Option Nat) (r : Reader) :
    overLimit? limit r.skipBlank = overLimit? limit r := by
  cases limit with
  | none => rfl
  | some n => simp only [overLimit?, Option.bind_some, Reader.chars_skipBlank]

/-- The blanks in front of a text are no matter to a registry. -/
theorem descend_skipBlank (limit : Option Nat) (nodes : List (Node σ)) (r : Reader) :
    (Node.registry limit nodes).descend r.skipBlank = (Node.registry limit nodes).descend r := by
  rw [descend_registry, descend_registry, overLimit?_skipBlank, r.settled_skipBlank.skipBlank_eq]

theorem Reaches.passes {limit : Option Nat} {nodes : List (Node σ)} {head : Command σ}
    {action : Action σ} {values : List Value}
    (h : (Node.registry limit nodes).Reaches r head action values next) : r.Passes next := by
  obtain ⟨entry, hstop, -, hread⟩ := h
  have hp := passes_of_registry_descend hstop
  exact hp.trans (Kind.passes_of_readAll hread hp.settled)

end Node

/-- **At the registry, valid means that the whole input is consumed.** -/
theorem Registry.accepts_iff_run_consumes_all {σ : Type} (registry : Registry σ) (source : σ)
    (r : Reader) :
    (registry.accepts r).1 = true ↔
      ∃ call, (registry.run source r).call = some call ∧ call.reader.cursor = r.totalLength := by
  have hlength : ∀ {next : Reader}, r.Passes next →
      (next.atBoundary = true ↔ next.cursor = r.totalLength) := by
    intro next hp
    have htotal : next.totalLength = r.totalLength := congrArg byteLength hp.chars
    rw [hp.settled.atBoundary_iff, htotal]
  constructor
  · intro h
    obtain ⟨head, action, values, next, hreach, hboundary⟩ := Node.accepts_eq_true_iff.mp h
    exact ⟨⟨head, values, next⟩, Node.call_eq_some_iff.mpr ⟨action, hreach⟩,
      (hlength hreach.passes).mp hboundary⟩
  · rintro ⟨call, hcall, hend⟩
    obtain ⟨action, hreach⟩ := Node.call_eq_some_iff.mp hcall
    exact Node.accepts_eq_true_iff.mpr ⟨call.command, action, call.values, call.reader, hreach,
      (hlength hreach.passes).mpr hend⟩

end TextCommand

import Mathlib.Data.List.Forall2
import TextCommand.Proofs.Node.Path

/-!
# Routing in two trees side by side

Two lists of nodes that go by the same words, place by place, answer a token alike: it names a node
of both, at the same place, or of neither.
-/

namespace TextCommand.Node

variable {σ : Type}

/-- Related nodes go by the same words. -/
def KeepsWords (R : Node σ → Node σ → Prop) : Prop :=
  ∀ node node', R node node' → ∀ word, node'.matchesWord word = node.matchesWord word

variable {R : Node σ → Node σ → Prop} {nodes nodes' : List (Node σ)} {r next : Reader}

theorem first?_rel (hR : KeepsWords R) (h : List.Forall₂ R nodes nodes') (word : String) :
    Option.Rel R (first? word nodes) (first? word nodes') := by
  induction h with
  | nil => exact .none
  | @cons node node' nodes nodes' hnode hnodes ih =>
    rw [first?, first?, List.find?_cons, List.find?_cons, hR node node' hnode word]
    cases node.matchesWord word with
    | true => exact .some hnode
    | false => exact ih

theorem route_ok_of_forall₂ (hR : KeepsWords R) (h : List.Forall₂ R nodes nodes') {node : Node σ}
    (hroute : route nodes r = .ok (node, next)) :
    ∃ node', route nodes' r = .ok (node', next) ∧ R node node' := by
  obtain ⟨word, hread, hfirst⟩ := route_eq_ok_iff.mp hroute
  have hrel := first?_rel hR h word
  rw [hfirst] at hrel
  generalize hfirst' : first? word nodes' = found at hrel
  cases hrel with
  | @some _ node' hnode => exact ⟨node', route_eq_ok_iff.mpr ⟨word, hread, hfirst'⟩, hnode⟩

theorem route_error_of_forall₂ (hR : KeepsWords R) (h : List.Forall₂ R nodes nodes')
    {error : CommandError} (hroute : route nodes r = .error error) :
    route nodes' r = .error error := by
  unfold route at hroute ⊢
  rcases hread : r.readString with ⟨fault | word, next⟩
  · rw [hread] at hroute
    exact hroute
  · have hrel := first?_rel hR h word
    rw [hread] at hroute
    generalize hfirst : first? word nodes = found, hfirst' : first? word nodes' = found' at hrel
    cases hrel with
    | none => simpa [hfirst, hfirst'] using hroute
    | some hnode => simp [hfirst] at hroute

end TextCommand.Node

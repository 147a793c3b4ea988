import TextCommand.Proofs.Argument.Progress
import TextCommand.Proofs.Node.Endpoint

/-!
# The nodes that a descent comes by

`Visits` says that a descent comes by a node, and with which reader.  From each visit on the descent is
that of the visited node, so what happens at its end can be seen from every level above.
-/

namespace TextCommand.Node

variable {σ : Type}

/-- The descent from a node comes by another one, the node itself included. -/
inductive Visits : Node σ → Reader → Node σ → Reader → Prop
  | here {node : Node σ} {r : Reader} : Visits node r node r
  | child {head : Command σ} {children : List (Node σ)} {node last : Node σ} {r next mid : Reader}
      (hroute : route children r = .ok (node, next)) (hbelow : Visits node next last mid) :
      Visits (.command head children) r last mid
  | listed {limit : Option Nat} {nodes : List (Node σ)} {node last : Node σ} {r next mid : Reader}
      (hlimit : overLimit? limit r = none) (hroute : route nodes r.skipBlank = .ok (node, next))
      (hbelow : Visits node next last mid) : Visits (.registry limit nodes) r last mid

variable {node last : Node σ} {r mid next : Reader}

theorem goesOn_of_route {nodes : List (Node σ)} (h : route nodes r = .ok (node, next)) :
    r.GoesOn next := by
  obtain ⟨word, hread, -⟩ := route_eq_ok_iff.mp h
  have htoken := Reader.contract_readString.goesOn r
  rwa [hread] at htoken

namespace Visits

theorem descend_eq (h : node.Visits r last mid) : node.descend r = last.descend mid := by
  induction h with
  | here => rfl
  | child hroute hbelow ih => rw [descend_command, hroute, ← ih]
  | listed hlimit hroute hbelow ih => rw [descend_registry, hlimit, hroute, ← ih]

theorem goesOn (h : node.Visits r last mid) : r.GoesOn mid := by
  induction h with
  | here => exact .refl _
  | child hroute hbelow ih => exact (goesOn_of_route hroute).trans ih
  | @listed limit nodes node last r next mid hlimit hroute hbelow ih =>
    exact r.goesOn_skipBlank.trans ((goesOn_of_route hroute).trans ih)

/-- An action that is reached is reached from each node on the way. -/
theorem reaches_iff (h : node.Visits r last mid) {head : Command σ} {action : Action σ}
    {values : List Value} :
    node.Reaches r head action values next ↔ last.Reaches mid head action values next := by
  rw [Reaches, Reaches, h.descend_eq]

end Visits

/-- A descent that stops at a command visits a node with that command, with the reader at which it stops. -/
theorem visits_of_descend {stop : Endpoint σ} (h : node.descend r = .ok stop) :
    ∃ children, node.Visits r (.command stop.command children) stop.entry := by
  fun_induction descend node r with
  | case1 head children r node next hroute ih =>
    obtain ⟨children', hvisits⟩ := ih h
    exact ⟨children', .child hroute hvisits⟩
  | case2 head children r error hroute =>
    cases h
    exact ⟨children, .here⟩
  | case3 => cases h
  | case4 limit nodes r hlimit node next hroute ih =>
    obtain ⟨children', hvisits⟩ := ih h
    exact ⟨children', .listed hlimit hroute hvisits⟩
  | case5 => cases h

/-- A descent fails at a registry that it visits: the text is too long for that registry, or its nodes
do not take the token that comes next. -/
theorem visits_of_descend_error {error : CommandError} (h : node.descend r = .error error) :
    ∃ limit nodes mid, node.Visits r (.registry limit nodes) mid ∧
      (overLimit? limit mid = some error ∨
        overLimit? limit mid = none ∧ route nodes mid.skipBlank = .error error) := by
  fun_induction descend node r with
  | case1 head children r node next hroute ih =>
    obtain ⟨limit, nodes, mid, hvisits, hfails⟩ := ih h
    exact ⟨limit, nodes, mid, .child hroute hvisits, hfails⟩
  | case2 => cases h
  | case3 limit nodes r error hlimit =>
    -- the text is too long
    cases h
    exact ⟨limit, nodes, r, .here, .inl hlimit⟩
  | case4 limit nodes r hlimit node next hroute ih =>
    obtain ⟨limit', nodes', mid, hvisits, hfails⟩ := ih h
    exact ⟨limit', nodes', mid, .listed hlimit hroute hvisits, hfails⟩
  | case5 limit nodes r hlimit error hroute =>
    -- no listed node has the token
    cases h
    exact ⟨limit, nodes, r, .here, .inr ⟨hlimit, hroute⟩⟩

end TextCommand.Node

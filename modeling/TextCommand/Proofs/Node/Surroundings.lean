import TextCommand.Node.Draft
import TextCommand.Proofs.Node.Endpoint
import TextCommand.Proofs.Node.WholeInput

/-!
# A registry in its surroundings

`Surroundings` are a tree with one place left open.  A descent through them comes to the node that is put
there, and goes on as the descent of that node; or it does not come there, and takes the same way
whatever is put there under the same words.  So a registry without limit can be exchanged, wherever it
stands, for a command of its name that has children and nothing else: behind a token there are no blanks
that the registry could pass, and where no child is named neither of them leads to an action.
-/

namespace TextCommand

variable {σ : Type}

/-- All that is around one node of a tree. -/
inductive Surroundings (σ : Type) where
  | whole
  | command (head : Command σ) (before : List (Node σ)) (inner : Surroundings σ)
      (after : List (Node σ))
  | registry (limit : Option Nat) (before : List (Node σ)) (inner : Surroundings σ)
      (after : List (Node σ))

/-- The tree with a node put into the open place. -/
def Surroundings.fill (node : Node σ) : Surroundings σ → Node σ
  | .whole => node
  | .command head before inner after => .command head (before ++ inner.fill node :: after)
  | .registry limit before inner after => .registry limit (before ++ inner.fill node :: after)

/-- A command that has the name of registries and nothing else. -/
def Command.root : Command σ := (Draft.new Node.rootName).command

namespace Node

/-! ### One node among its siblings -/

/-- The next token names the node, and none of the siblings before it. -/
def Picked (before : List (Node σ)) (node : Node σ) (r next : Reader) : Prop :=
  ∃ word, r.readString = ⟨.ok word, next⟩ ∧ (∀ earlier ∈ before, earlier.matchesWord word = false) ∧
    node.matchesWord word = true

/-- The nodes go by the same words. -/
def SameWords (node node' : Node σ) : Prop := ∀ word, node'.matchesWord word = node.matchesWord word

variable {before : List (Node σ)} {node node' : Node σ} {r next : Reader}

theorem Picked.settled (h : Picked before node r next) : next.Settled := by
  obtain ⟨word, hread, -⟩ := h
  exact (Reader.passes_of_readString hread).settled

theorem Picked.exchange (hwords : node.SameWords node') (h : Picked before node r next) :
    Picked before node' r next := by
  obtain ⟨word, hread, hbefore, hword⟩ := h
  exact ⟨word, hread, hbefore, (hwords word).trans hword⟩

theorem Picked.route_eq (h : Picked before node r next) (after : List (Node σ)) :
    route (before ++ node :: after) r = .ok (node, next) := by
  obtain ⟨word, hread, hbefore, hword⟩ := h
  have hnone : before.find? (matchesWord word) = none :=
    List.find?_eq_none.mpr fun earlier hearlier => by simp [hbefore earlier hearlier]
  refine route_eq_ok_iff.mpr ⟨word, hread, ?_⟩
  rw [first?, List.find?_append, hnone, Option.none_or, List.find?_cons_of_pos hword]

/-- A token that does not pick the node does not tell it from another one of the same words. -/
theorem route_exchange (hwords : node.SameWords node') (h : ∀ next, ¬ Picked before node r next)
    (after : List (Node σ)) :
    route (before ++ node' :: after) r = route (before ++ node :: after) r := by
  rcases hread : r.readString with ⟨error | word, next⟩
  · simp only [route, hread]
  · have hfirst : first? word (before ++ node' :: after) = first? word (before ++ node :: after) := by
      rw [first?, first?, List.find?_append, List.find?_append]
      cases hfound : before.find? (matchesWord word) with
      | some earlier =>
        -- an earlier sibling has the token, with either node behind it
        rfl
      | none =>
        have hbefore : ∀ earlier ∈ before, earlier.matchesWord word = false := by
          simpa using List.find?_eq_none.mp hfound
        have hword : ¬ node.matchesWord word = true := fun hword =>
          h next ⟨word, hread, hbefore, hword⟩
        have hword' : ¬ node'.matchesWord word = true := by rwa [hwords word]
        rw [List.find?_cons_of_neg hword, List.find?_cons_of_neg hword']
    simp only [route, hread, hfirst]

end Node

/-! ### The way to the open place -/

namespace Surroundings

open Node

/-- The descent comes to the node in the open place, with the reader `mid`. -/
inductive ComesTo (node : Node σ) : Surroundings σ → Reader → Reader → Prop
  | whole {r : Reader} : ComesTo node .whole r r
  | command {head : Command σ} {before after : List (Node σ)} {inner : Surroundings σ}
      {r next mid : Reader} (hpicked : Picked before (inner.fill node) r next)
      (hbelow : ComesTo node inner next mid) : ComesTo node (.command head before inner after) r mid
  | registry {limit : Option Nat} {before after : List (Node σ)} {inner : Surroundings σ}
      {r next mid : Reader} (hlimit : overLimit? limit r = none)
      (hpicked : Picked before (inner.fill node) r.skipBlank next)
      (hbelow : ComesTo node inner next mid) :
      ComesTo node (.registry limit before inner after) r mid

variable {around : Surroundings σ} {node node' : Node σ} {r mid : Reader}

theorem sameWords_fill (hwords : node.SameWords node') (around : Surroundings σ) :
    (around.fill node).SameWords (around.fill node') := by
  cases around with
  | whole => exact hwords
  | command head before inner after => exact fun _ => rfl
  | registry limit before inner after => exact fun _ => rfl

/-- Behind the tokens that lead to it, or at the start if there are none, no blank comes next. -/
theorem ComesTo.settled (h : around.ComesTo node r mid) (hr : around = .whole → r.Settled) :
    mid.Settled := by
  induction h with
  | whole => exact hr rfl
  | command hpicked hbelow ih => exact ih fun _ => hpicked.settled
  | registry hlimit hpicked hbelow ih => exact ih fun _ => hpicked.settled

theorem ComesTo.descend_eq (h : around.ComesTo node r mid) :
    (around.fill node).descend r = node.descend mid := by
  induction h with
  | whole => rfl
  | command hpicked hbelow ih =>
    rw [fill, descend_command, hpicked.route_eq]
    exact ih
  | registry hlimit hpicked hbelow ih =>
    rw [fill, descend_registry, hlimit, hpicked.route_eq]
    exact ih

theorem ComesTo.exchange (hwords : node.SameWords node') (h : around.ComesTo node r mid) :
    around.ComesTo node' r mid := by
  induction h with
  | whole => exact .whole
  | command hpicked hbelow ih => exact .command (hpicked.exchange (sameWords_fill hwords _)) ih
  | registry hlimit hpicked hbelow ih =>
    exact .registry hlimit (hpicked.exchange (sameWords_fill hwords _)) ih

/-- A descent that does not come to the open place takes the same way whatever stands there. -/
theorem descend_exchange (hwords : node.SameWords node') (h : ∀ mid, ¬ around.ComesTo node r mid) :
    (around.fill node').descend r = (around.fill node).descend r := by
  induction around generalizing r with
  | whole => exact absurd .whole (h r)
  | command head before inner after ih =>
    have hinner := sameWords_fill hwords inner
    rw [fill, fill, descend_command, descend_command]
    by_cases hpicked : ∃ next, Picked before (inner.fill node) r next
    · obtain ⟨next, hpicked⟩ := hpicked
      rw [hpicked.route_eq, (hpicked.exchange hinner).route_eq]
      exact ih fun mid hbelow => h mid (.command hpicked hbelow)
    · -- the token picks another node, or none
      rw [route_exchange hinner (not_exists.mp hpicked)]
  | registry limit before inner after ih =>
    have hinner := sameWords_fill hwords inner
    rw [fill, fill, descend_registry, descend_registry]
    cases hlimit : overLimit? limit r with
    | some error => rfl
    | none =>
      by_cases hpicked : ∃ next, Picked before (inner.fill node) r.skipBlank next
      · obtain ⟨next, hpicked⟩ := hpicked
        rw [hpicked.route_eq, (hpicked.exchange hinner).route_eq]
        exact ih fun mid hbelow => h mid (.registry hlimit hpicked hbelow)
      · -- likewise
        rw [route_exchange hinner (not_exists.mp hpicked)]

/-! ### A registry and a command of its name -/

variable {nodes : List (Node σ)}

theorem sameWords_root (nodes : List (Node σ)) :
    (Node.registry none nodes).SameWords (.command .root nodes) := fun _ => rfl

/-- The registry names a child with the token that comes next: then so does the command. -/
theorem ComesTo.descend_root_of_child (h : around.ComesTo (.registry none nodes) r mid)
    (hmid : mid.Settled) {child : Node σ} {next : Reader} (hroute : route nodes mid = .ok (child, next)) :
    (around.fill (.command .root nodes)).descend r =
      (around.fill (.registry none nodes)).descend r := by
  rw [h.descend_eq, (h.exchange (sameWords_root nodes)).descend_eq, descend_command, descend_registry,
    hmid.skipBlank_eq, hroute]
  rfl

/-- It names none: then the registry fails, and the command is the one at which the descent stops. -/
theorem ComesTo.descend_root_of_none (h : around.ComesTo (.registry none nodes) r mid)
    (hmid : mid.Settled) {error : CommandError} (hroute : route nodes mid = .error error) :
    (around.fill (.registry none nodes)).descend r = .error error ∧
      (around.fill (.command .root nodes)).descend r = .ok ⟨.root, mid⟩ := by
  rw [h.descend_eq, (h.exchange (sameWords_root nodes)).descend_eq, descend_command, descend_registry,
    hmid.skipBlank_eq, hroute]
  exact ⟨rfl, rfl⟩

/-- The descents are the same, unless they end at the open place. -/
theorem descend_root (nodes : List (Node σ)) (hr : around = .whole → r.Settled) :
    (around.fill (.command .root nodes)).descend r =
        (around.fill (.registry none nodes)).descend r ∨
      ∃ mid error, around.ComesTo (.registry none nodes) r mid ∧ route nodes mid = .error error ∧
        (around.fill (.registry none nodes)).descend r = .error error ∧
        (around.fill (.command .root nodes)).descend r = .ok ⟨.root, mid⟩ := by
  by_cases hcomes : ∃ mid, around.ComesTo (.registry none nodes) r mid
  · -- the descent comes to the open place
    obtain ⟨mid, hcomes⟩ := hcomes
    have hmid := hcomes.settled hr
    cases hroute : route nodes mid with
    | ok found => exact .inl (hcomes.descend_root_of_child hmid hroute)
    | error error =>
      exact .inr ⟨mid, error, hcomes, hroute, hcomes.descend_root_of_none hmid hroute⟩
  · -- it never does
    exact .inl (descend_exchange (sameWords_root nodes) (not_exists.mp hcomes))

end Surroundings

open Surroundings in
/-- **A registry traverses like a command with nothing but children.**  Wherever a registry without limit
stands in a tree, let a command of its name with the same children take its place.  Both trees run the
same action with the same values or none, succeed or fail alike and leave the same reader and source; they
accept the same inputs and suggest the same.  Where a child below that place is reached the runs are the
same in all, errors included; only where the descent comes to it and no child is named do the errors
differ.  If it is the whole tree, no blank may come next, as the registry would pass it. -/
theorem Node.registry_traverses_as_command (around : Surroundings σ) (nodes : List (Node σ))
    (source : σ) {r : Reader} (hr : around = .whole → r.Settled) :
    let tree := around.fill (.registry none nodes)
    let tree' := around.fill (.command .root nodes)
    (tree'.run source r).result.isOk = (tree.run source r).result.isOk ∧
    (tree'.run source r).call = (tree.run source r).call ∧
    (tree'.run source r).reader = (tree.run source r).reader ∧
    (tree'.run source r).source = (tree.run source r).source ∧
    (∀ mid child next, around.ComesTo (.registry none nodes) r mid →
      route nodes mid = .ok (child, next) → tree'.run source r = tree.run source r) ∧
    (tree'.run source r = tree.run source r ∨
      ∃ mid error, around.ComesTo (.registry none nodes) r mid ∧ route nodes mid = .error error ∧
        tree.run source r = .failed error source r ∧
        tree'.run source r = .failed (.shape "Invalid command" mid.cursor) source r) ∧
    tree'.accepts r = tree.accepts r ∧
    tree'.suggest source r = tree.suggest source r := by
  intro tree tree'
  have hchild : ∀ mid child next, around.ComesTo (.registry none nodes) r mid →
      route nodes mid = .ok (child, next) → tree'.run source r = tree.run source r := by
    intro mid child next hcomes hroute
    rw [run_eq_descend, run_eq_descend, hcomes.descend_root_of_child (hcomes.settled hr) hroute]
  rcases descend_root nodes hr with hsame | ⟨mid, error, hcomes, hroute, hfails, hstops⟩
  · -- the descents are the same
    have hrun : tree'.run source r = tree.run source r := by
      rw [run_eq_descend, run_eq_descend, hsame]
    refine ⟨by rw [hrun], by rw [hrun], by rw [hrun], by rw [hrun], hchild, .inl hrun, ?_, ?_⟩
    · rw [accepts_eq_descend, accepts_eq_descend, hsame]
    · rw [suggest_eq_descend, suggest_eq_descend, hsame]
  · -- the registry's fails where the command's stops, at a command without action
    have hrun : tree.run source r = .failed error source r := run_of_descend_error hfails
    have hrun' : tree'.run source r = .failed (.shape "Invalid command" mid.cursor) source r :=
      run_of_inert hstops rfl
    refine ⟨by rw [hrun, hrun']; rfl, by rw [hrun, hrun']; rfl, by rw [hrun, hrun']; rfl,
      by rw [hrun, hrun']; rfl, hchild, .inr ⟨mid, error, hcomes, hroute, hrun, hrun'⟩, ?_, ?_⟩
    · rw [accepts_eq_descend, accepts_eq_descend, hfails, hstops]
      rfl
    · rw [suggest_eq_descend, suggest_eq_descend, hfails, hstops]
      rfl

/-- Teams are joined below a command, in a registry of its own. -/
def teamSurroundings : Surroundings Unit :=
  .registry (some 40) [] (.command (Draft.new "play").command [] .whole []) []

def joinNode : Node Unit :=
  (Draft.new "join" |>.argument .int "team" "" |>.execute fun source _ => (.ok (), source)).build

/-- To join is the same with either of them, below the command or at the top; a word that is no child of
theirs they refuse in two ways. -/
theorem joins_with_root_command :
    ((Surroundings.whole.fill (.command .root [joinNode])).run ()
      (.ofString "join 7 ")).call.map Call.values = some [.int 7] ∧
    ((teamSurroundings.fill (.command .root [joinNode])).run ()
      (.ofString " play '<root>' join 7")).call.map Call.values = some [.int 7] ∧
    ((teamSurroundings.fill (.registry none [joinNode])).run ()
      (.ofString "play '<root>' leave")).result = .error (.unknownCommand "leave" 14) ∧
    ((teamSurroundings.fill (.command .root [joinNode])).run ()
      (.ofString "play '<root>' leave")).result = .error (.shape "Invalid command" 14) := by
  have hsettled : (Reader.ofString "join 7 ").Settled := by
    intro c hc
    cases hc
    rfl
  obtain ⟨-, hwhole, -⟩ :=
    Node.registry_traverses_as_command .whole [joinNode] () fun _ => hsettled
  obtain ⟨-, hinner, -⟩ :=
    Node.registry_traverses_as_command teamSurroundings [joinNode] ()
      (r := .ofString " play '<root>' join 7") nofun
  rw [hwhole, hinner]
  exact ⟨rfl, rfl, rfl, rfl⟩

end TextCommand

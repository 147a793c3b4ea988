import TextCommand.Node.Draft
import TextCommand.Proofs.Node.Descent

/-!
# The node added first wins

Adding is conservative: what a registry makes of an input does not change, whatever is added behind, as
long as some earlier node goes by the first token of the input, or the input does not get as far as that
token.  Only a token that names nothing yet can come to name the node that is added.
-/

namespace TextCommand

variable {σ : Type}

/-- The word is one of the names of a node. -/
def Node.GoesBy (word : String) (node : Node σ) : Prop := node.name = word ∨ word ∈ node.aliases

theorem Node.matchesWord_iff {word : String} {node : Node σ} :
    node.matchesWord word = true ↔ node.GoesBy word := by
  simp only [matchesWord, GoesBy, Bool.or_eq_true, beq_iff_eq, List.contains_iff_mem]

namespace Registry

/-- Adds one node after the other. -/
def addAll (added : List (Node σ)) (registry : Registry σ) : Registry σ :=
  added.foldl (fun registry node => registry.add node) registry

theorem addAll_eq (added : List (Node σ)) (registry : Registry σ) :
    registry.addAll added = ⟨registry.limit, registry.nodes ++ added⟩ := by
  induction added generalizing registry with
  | nil => rw [List.append_nil]; rfl
  | cons node added ih =>
    have hstep : registry.addAll (node :: added) = (registry.add node).addAll added := rfl
    rw [hstep, ih, List.append_cons]
    rfl

section Lookup

variable {registry : Registry σ} {word : String}

/-- The node that a word names is the first that goes by it. -/
theorem get?_eq_some_iff {found : Node σ} :
    registry.get? word = some found ↔
      ∃ earlier later, registry.nodes = earlier ++ found :: later ∧ found.GoesBy word ∧
        ∀ node ∈ earlier, ¬ node.GoesBy word := by
  rw [get?, Node.first?, List.find?_eq_some_iff_append, Node.matchesWord_iff]
  simp only [Bool.not_eq_true', ← Bool.not_eq_true, Node.matchesWord_iff]
  constructor
  · rintro ⟨hword, earlier, later, hnodes, hearlier⟩
    exact ⟨earlier, later, hnodes, hword, hearlier⟩
  · rintro ⟨earlier, later, hnodes, hword, hearlier⟩
    exact ⟨hword, earlier, later, hnodes, hearlier⟩

theorem get?_eq_none_iff :
    registry.get? word = none ↔ ∀ node ∈ registry.nodes, ¬ node.GoesBy word := by
  simp only [get?, Node.first?, List.find?_eq_none, Node.matchesWord_iff]

/-- A further node is found by a word that names none of those before. -/
theorem first?_add (node : Node σ) :
    Node.first? word (registry.add node).nodes =
      (registry.get? word).or (if node.matchesWord word then some node else none) := by
  rw [add, Node.first?, List.find?_append, List.find?_cons]
  cases node.matchesWord word <;> rfl

end Lookup

/-! ### Traversals with one node more -/

/-- Two registries make the same of what a reader has left. -/
structure AlikeAt (registry registry' : Registry σ) (r : Reader) : Prop where
  run : ∀ source, registry'.run source r = registry.run source r
  accepts : registry'.accepts r = registry.accepts r
  suggest : ∀ source, registry'.suggest source r = registry.suggest source r

section Traversals

variable (registry : Registry σ) {node : Node σ} {r : Reader}

/-- A registry that refuses the input for its length does not look at its nodes. -/
theorem alikeAt_add_of_overLimit {error : CommandError} (h : overLimit? registry.limit r = some error) :
    registry.AlikeAt (registry.add node) r where
  run source := by
    simp only [run, toNode, Node.run_registry, add, h]
  accepts := by
    simp only [accepts, toNode, Node.accepts_registry, add, h]
  suggest source := by
    simp only [suggest, toNode, Node.suggest_registry, add, h]

/-- Otherwise it looks at them once, for the first token. -/
theorem alikeAt_add_of_route
    (h : Node.route (registry.add node).nodes r.skipBlank = Node.route registry.nodes r.skipBlank) :
    registry.AlikeAt (registry.add node) r where
  run source := by
    rw [run, run, toNode, toNode, Node.run_registry, Node.run_registry, h]
    rfl
  accepts := by
    rw [accepts, accepts, toNode, toNode, Node.accepts_registry, Node.accepts_registry, h]
    rfl
  suggest source := by
    rw [suggest, suggest, toNode, toNode, Node.suggest_registry, Node.suggest_registry, h]
    rfl

theorem route_add_of_unread {error : ReadError} {left : Reader} (h : r.readString = ⟨.error error, left⟩) :
    Node.route (registry.add node).nodes r = Node.route registry.nodes r := by
  simp only [Node.route, h]

variable {registry}

theorem route_add_of_named {word : String} {next : Reader} (hread : r.readString = ⟨.ok word, next⟩)
    (hnamed : (registry.get? word).isSome = true) :
    Node.route (registry.add node).nodes r = Node.route registry.nodes r := by
  obtain ⟨found, hfound⟩ := Option.isSome_iff_exists.mp hnamed
  have hfirst : Node.first? word registry.nodes = some found := hfound
  simp only [Node.route, hread, first?_add, hfound, hfirst, Option.some_or]

theorem route_add_of_other {word : String} {next : Reader} (hread : r.readString = ⟨.ok word, next⟩)
    (hnode : ¬ node.GoesBy word) :
    Node.route (registry.add node).nodes r = Node.route registry.nodes r := by
  have hword : node.matchesWord word = false := by
    rw [← Bool.not_eq_true, Node.matchesWord_iff]
    exact hnode
  have hfirst : Node.first? word (registry.add node).nodes = Node.first? word registry.nodes := by
    rw [first?_add, hword, get?]
    exact Option.or_none
  simp only [Node.route, hread, hfirst]

theorem route_add_of_new {word : String} {next : Reader} (hread : r.readString = ⟨.ok word, next⟩)
    (hnew : registry.get? word = none) (hnode : node.GoesBy word) :
    Node.route (registry.add node).nodes r = .ok (node, next) := by
  have hfirst : Node.first? word (registry.add node).nodes = some node := by
    rw [first?_add, hnew, if_pos (Node.matchesWord_iff.mpr hnode)]
    rfl
  exact Node.route_eq_ok_iff.mpr ⟨word, hread, hfirst⟩

/-- The further node takes over behind a token that named nothing before. -/
theorem traversals_add_of_new {word : String} {next : Reader} (hlimit : overLimit? registry.limit r = none)
    (hread : r.skipBlank.readString = ⟨.ok word, next⟩) (hnew : registry.get? word = none)
    (hnode : node.GoesBy word) (source : σ) :
    (registry.add node).run source r = (node.run source next).restoring r ∧
      (registry.add node).accepts r = ((node.accepts next).1, r) ∧
      (registry.add node).suggest source r = ((node.suggest source next).1, r) := by
  have hroute := route_add_of_new hread hnew hnode
  have hadd : (registry.add node).limit = registry.limit := rfl
  refine ⟨?_, ?_, ?_⟩
  · rw [run, toNode, Node.run_registry, hadd, hlimit, hroute]
  · rw [accepts, toNode, Node.accepts_registry, hadd, hlimit, hroute]
  · rw [suggest, toNode, Node.suggest_registry, hadd, hlimit, hroute]

/-- A node none of whose names is new is never come to. -/
theorem alikeAt_add_of_all_named (h : ∀ word, node.GoesBy word → (registry.get? word).isSome = true)
    (r : Reader) : registry.AlikeAt (registry.add node) r := by
  refine registry.alikeAt_add_of_route ?_
  rcases hread : r.skipBlank.readString with ⟨error | word, next⟩
  · exact registry.route_add_of_unread hread
  · by_cases hnode : node.GoesBy word
    · exact route_add_of_named hread (h word hnode)
    · exact route_add_of_other hread hnode

end Traversals

/-- **Adding is conservative: the node added first wins.**  In a registry that nodes were added to, in any
number, a word names the earliest of them that goes by it.  A further node changes nothing where the text
is too long, no token can be read, or the token names a node already; it changes nothing either where the
token is none of its own names.  Where the token names it alone, its own traversals take over behind the
token, and the reader is put back to where the registry began.  So a node all of whose names are taken
changes no traversal at all. -/
theorem first_added_wins (limit : Option Nat) (added : List (Node σ)) :
    let registry := (Registry.empty limit).addAll added
    (∀ word found, registry.get? word = some found ↔
      ∃ earlier later, added = earlier ++ found :: later ∧ found.GoesBy word ∧
        ∀ node ∈ earlier, ¬ node.GoesBy word) ∧
    (∀ word, registry.get? word = none ↔ ∀ node ∈ added, ¬ node.GoesBy word) ∧
    ∀ (node : Node σ) (r : Reader),
      (∀ n, limit = some n → n < r.chars.length → registry.AlikeAt (registry.add node) r) ∧
      (∀ error left, r.skipBlank.readString = ⟨.error error, left⟩ →
        registry.AlikeAt (registry.add node) r) ∧
      (∀ word next, r.skipBlank.readString = ⟨.ok word, next⟩ →
        ((registry.get? word).isSome = true → registry.AlikeAt (registry.add node) r) ∧
        (¬ node.GoesBy word → registry.AlikeAt (registry.add node) r) ∧
        (registry.get? word = none → node.GoesBy word → (∀ n ∈ limit, r.chars.length ≤ n) → ∀ source,
          (registry.add node).run source r = (node.run source next).restoring r ∧
          (registry.add node).accepts r = ((node.accepts next).1, r) ∧
          (registry.add node).suggest source r = ((node.suggest source next).1, r))) ∧
      ((∀ word, node.GoesBy word → (registry.get? word).isSome = true) →
        registry.AlikeAt (registry.add node) r) := by
  intro registry
  have hregistry : registry = ⟨limit, added⟩ := addAll_eq added (.empty limit)
  have hnodes : registry.nodes = added := congrArg Registry.nodes hregistry
  have hlimit : registry.limit = limit := congrArg Registry.limit hregistry
  refine ⟨fun word found => ?_, fun word => ?_, fun node r => ⟨?_, ?_, ?_, ?_⟩⟩
  · rw [get?_eq_some_iff, hnodes]
  · rw [get?_eq_none_iff, hnodes]
  · -- the text is too long
    rintro n rfl hlong
    have hover : overLimit? registry.limit r = some (.tooLong r.chars.length n) := by
      rw [hlimit]
      exact if_pos hlong
    exact registry.alikeAt_add_of_overLimit hover
  · -- no token
    intro error left hread
    exact registry.alikeAt_add_of_route (registry.route_add_of_unread hread)
  · -- a token of a node that is there already, none of the further node, or one of that node alone
    intro word next hread
    refine ⟨fun hnamed => ?_, fun hother => ?_, fun hnew hnode hshort source => ?_⟩
    · exact registry.alikeAt_add_of_route (route_add_of_named hread hnamed)
    · exact registry.alikeAt_add_of_route (route_add_of_other hread hother)
    · refine traversals_add_of_new ?_ hread hnew hnode source
      rw [hlimit]
      cases limit with
      | none => rfl
      | some n => exact if_neg (Nat.not_lt.mpr (hshort n rfl))
  · intro hall
    exact alikeAt_add_of_all_named hall r

/-- A further name of the first command hides the second one's own name, but not its further name. -/
example :
    let first := Draft.new "tell" |>.alsoNamed "say"
    let second := Draft.new "say" |>.alsoNamed "shout"
    let registry : Registry Unit := (empty none).addAll [first.build, second.build]
    ["tell", "say", "shout", "sing"].map (fun word => (registry.get? word).map Node.name) =
      [some "tell", some "tell", some "say", none] := by
  decide

end Registry

end TextCommand

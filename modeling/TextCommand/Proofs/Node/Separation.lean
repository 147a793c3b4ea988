import TextCommand.Proofs.Argument.Taken
import TextCommand.Proofs.Node.Rendering

/-!
# Where an accepted input has its blanks

The items of an input are the literals along its path and the arguments behind them, as they stand in
the text.  Each read takes its item, and the blanks behind it, off what is left; so an accepted input
is its items, one after the other.  A quoted string ends with its quote, and a word with its last
character: blanks have to stand between a word and what begins like one, and nowhere else.
-/

namespace TextCommand

variable {σ : Type}

namespace Node

mutual

/-- The items that an input is made of: the literals along its path and the arguments of the command at
the end. -/
def items : Node σ → Reader → List Item
  | .command head children, r =>
    match r.readString with
    | ⟨.ok word, next⟩ =>
      match itemsFirst word children next with
      | some items => r.tokenItem :: items
      | none => Kind.items head.kinds r
    | ⟨.error _, _⟩ => Kind.items head.kinds r
  | .registry _ nodes, r =>
    match r.skipBlank.readString with
    | ⟨.ok word, next⟩ =>
      match itemsFirst word nodes next with
      | some items => r.skipBlank.tokenItem :: items
      | none => []
    | ⟨.error _, _⟩ => []

/-- The items behind a word, below the first node that it names. -/
def itemsFirst (word : String) : List (Node σ) → Reader → Option (List Item)
  | [], _ => none
  | node :: nodes, r =>
    if node.matchesWord word then some (node.items r) else itemsFirst word nodes r

end

theorem itemsFirst_eq (word : String) (nodes : List (Node σ)) (r : Reader) :
    itemsFirst word nodes r = (first? word nodes).bind fun node => some (node.items r) :=
  eq_bind_first? word _ (itemsFirst word · r) rfl (fun _ _ => rfl) nodes

theorem items_command (head : Command σ) (children : List (Node σ)) (r : Reader) :
    (Node.command head children).items r =
      match route children r with
      | .ok (node, next) => r.tokenItem :: node.items next
      | .error _ => Kind.items head.kinds r := by
  rcases hread : r.readString with ⟨error | word, next⟩
  · simp only [items, route, hread]
  · simp only [items, route, hread, itemsFirst_eq]
    cases first? word children <;> rfl

theorem items_registry (limit : Option Nat) (nodes : List (Node σ)) (r : Reader) :
    (Node.registry limit nodes).items r =
      match route nodes r.skipBlank with
      | .ok (node, next) => r.skipBlank.tokenItem :: node.items next
      | .error _ => [] := by
  rcases hread : r.skipBlank.readString with ⟨error | word, next⟩
  · simp only [items, route, hread]
  · simp only [items, route, hread, itemsFirst_eq]
    cases first? word nodes <;> rfl

variable {r next : Reader}

theorem takes_of_route {nodes : List (Node σ)} {node : Node σ}
    (h : route nodes r = .ok (node, next)) : r.Takes r.tokenItem next := by
  obtain ⟨word, hread, -⟩ := route_eq_ok_iff.mp h
  exact Reader.takes_of_readString hread

/-- A descent whose arguments are read up to the end of the text takes all that was left of it. -/
theorem madeOf_items {node : Node σ} {stop : Endpoint σ} {values : List Value}
    (hstop : node.descend r = .ok stop)
    (hread : Kind.readAll stop.command.kinds stop.entry = ⟨.ok values, next⟩)
    (hend : next.rest = []) (hr : r.Settled) : r.MadeOf (node.items r) := by
  fun_induction descend node r with
  | case1 head children r node mid hroute ih =>
    rw [items_command, hroute]
    exact (takes_of_route hroute).madeOf hr (ih hstop (passes_of_route hroute).settled)
  | case2 head children r error hroute =>
    -- the descent stops: what is left are the arguments
    cases hstop
    rw [items_command, hroute]
    exact Kind.madeOf_items hread hr hend
  | case3 => cases hstop
  | case4 limit nodes r hlimit node mid hroute ih =>
    rw [items_registry, hroute]
    rw [hr.skipBlank_eq] at hroute ⊢
    exact (takes_of_route hroute).madeOf hr (ih hstop (passes_of_route hroute).settled)
  | case5 => cases hstop

/-- A registry's items start behind the blanks. -/
theorem items_skipBlank (limit : Option Nat) (nodes : List (Node σ)) (r : Reader) :
    (Node.registry limit nodes).items r.skipBlank = (Node.registry limit nodes).items r := by
  rw [items_registry, items_registry, r.settled_skipBlank.skipBlank_eq]

end Node

namespace Registry

variable (registry : Registry σ)

/-- An accepted input is made of its items, behind the blanks in front. -/
theorem madeOf_items {r : Reader} (h : (registry.accepts r).1 = true) :
    r.skipBlank.MadeOf (registry.toNode.items r) := by
  obtain ⟨head, action, values, next, ⟨entry, hstop, haction, hread⟩, hboundary⟩ :=
    Node.accepts_eq_true_iff.mp h
  have hpasses := Node.Reaches.passes ⟨entry, hstop, haction, hread⟩
  have hend : next.rest = [] :=
    Reader.cursor_eq_totalLength_iff.mp (hpasses.settled.atBoundary_iff.mp hboundary)
  rw [toNode, ← Node.descend_skipBlank] at hstop
  rw [toNode, ← Node.items_skipBlank]
  exact Node.madeOf_items hstop hread hend r.settled_skipBlank

/-- **An accepted input has blanks where a word would run on.**  Behind the blanks in front it is nothing
but its items, the literals and the arguments, each with the blanks behind it.  Between two items
there is at least one blank, unless the first is a quoted string or the second begins with no
character of a word; so the blanks are everywhere if all items begin like words. -/
theorem parted_of_accepts {r : Reader} (h : (registry.accepts r).1 = true) :
    Item.line (registry.toNode.items r) = r.skipBlank.rest ∧
      (∀ item ∈ registry.toNode.items r, item.Starts) ∧
      Item.Parted (registry.toNode.items r) ∧
      ((∀ item ∈ registry.toNode.items r, item.startsBare = true) →
        Item.Spaced (registry.toNode.items r)) := by
  obtain ⟨hline, hstarts, hparted⟩ := registry.madeOf_items h
  exact ⟨hline, hstarts, hparted, hparted.spaced⟩

/-- No other blanks are needed: a line that spells the literals and the arguments of a command is
accepted, and calls the command with them, as soon as it has blanks where a word would run on. -/
theorem accepts_of_parted {l : Layout} {words : List String} {head : Command σ}
    {children : List (Node σ)} {values : List Value} (source : σ)
    (hlead : ∀ c ∈ l.lead, Text.isBlank c = true)
    (hparted : Item.Parted (l.literals ++ l.arguments)) (hliterals : SpelledAll words l.literals)
    (harguments : WrittenAll head.kinds values l.arguments)
    (hleads : registry.toNode.Leads l.chars.length words (.command head children))
    (hexecutable : head.isExecutable = true)
    (hunclaimed : ∀ word next,
      (Reader.mk l.front (Item.line l.arguments)).readString = ⟨.ok word, next⟩ →
        Node.first? word children = none) :
    registry.acceptsText l.text = true ∧
      (registry.runText source l.text).call = some ⟨head, values, ⟨l.chars, []⟩⟩ := by
  obtain ⟨action, hreach⟩ :=
    Layout.exists_reaches hlead hparted hliterals harguments hleads hexecutable hunclaimed
  exact ⟨Node.accepts_eq_true_iff.mpr ⟨head, action, values, _, hreach, rfl⟩,
    Node.call_eq_some_iff.mpr ⟨action, hreach⟩⟩

end Registry

/-! ### In the game -/

namespace Game

/-- A line without quotes has its blanks. -/
theorem spaced_bareLine :
    (registry none).acceptsText "scoreboard objectives add kills" = true ∧
      Item.Spaced ((registry none).toNode.items (.ofString "scoreboard objectives add kills")) := by
  have haccepts : (registry none).acceptsText "scoreboard objectives add kills" = true := rfl
  obtain ⟨-, -, -, hspaced⟩ := (registry none).parted_of_accepts haccepts
  exact ⟨haccepts, hspaced (List.all_eq_true.mp rfl)⟩

/-- A line of four items is accepted without a single blank, for two of them are quoted. -/
theorem accepts_unspaced :
    (registry none).acceptsText "\x27scoreboard\x27objectives\"add\"kills" = true ∧
      (registry none).toNode.items (.ofString "\x27scoreboard\x27objectives\"add\"kills") =
        [⟨"\x27scoreboard\x27".toList, []⟩, ⟨"objectives".toList, []⟩, ⟨"\"add\"".toList, []⟩,
          ⟨"kills".toList, []⟩] ∧
      ¬ Item.Spaced
        ((registry none).toNode.items (.ofString "\x27scoreboard\x27objectives\"add\"kills")) := by
  have hitems : (registry none).toNode.items
      (.ofString "\x27scoreboard\x27objectives\"add\"kills") =
        [⟨"\x27scoreboard\x27".toList, []⟩, ⟨"objectives".toList, []⟩, ⟨"\"add\"".toList, []⟩,
          ⟨"kills".toList, []⟩] := rfl
  refine ⟨rfl, hitems, ?_⟩
  rw [hitems]
  rintro ⟨-, hgap, -⟩
  exact absurd (hgap rfl) (by simp)

end Game

end TextCommand

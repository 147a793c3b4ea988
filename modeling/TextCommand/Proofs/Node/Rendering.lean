import TextCommand.Game.Commands
import TextCommand.Proofs.Argument.Written
import TextCommand.Proofs.Node.WholeInput

/-!
# A command that is written is read back

A `Layout` is a line as somebody writes it: blanks, the literals on the way to a command, and its
arguments.  If it `Renders` a command and values, then the descent takes the way of the literals, and
the command reads those values up to the end of the line.
-/

namespace TextCommand

/-- How the literals of a line are written. -/
inductive SpelledAll : List String → List Item → Prop
  | nil : SpelledAll [] []
  | cons {word : String} {words : List String} {item : Item} {items : List Item} (hne : word ≠ "")
      (hword : Spelling word item.written) (hall : SpelledAll words items) :
      SpelledAll (word :: words) (item :: items)

theorem SpelledAll.starts {words : List String} {items : List Item} (h : SpelledAll words items) :
    ∀ item ∈ items, item.Starts := by
  induction h with
  | nil => simp
  | cons hne hword hall ih =>
    intro item hitem
    rcases List.mem_cons.mp hitem with rfl | hitem
    · exact hword.head?_not_blank hne
    · exact ih item hitem

namespace Node

variable {σ : Type}

/-- The node does not refuse a text of that length. -/
def Admits (length : Nat) : Node σ → Prop
  | .command _ _ => True
  | .registry limit _ => ∀ n ∈ limit, length ≤ n

/-- The words lead down a tree, each naming the next node first among its siblings, past nodes that
admit a text of that length. -/
inductive Leads (length : Nat) : Node σ → List String → Node σ → Prop
  | here {node : Node σ} : Leads length node [] node
  | down {parent node last : Node σ} {word : String} {words : List String}
      (hadmits : parent.Admits length) (hchild : parent.child? word = some node)
      (hleads : Leads length node words last) : Leads length parent (word :: words) last

end Node

/-- A line: blanks, literals and arguments. -/
structure Layout where
  lead : List Char
  literals : List Item
  arguments : List Item

namespace Layout

/-- What stands in front of the arguments. -/
def front (l : Layout) : List Char := l.lead ++ Item.line l.literals

def chars (l : Layout) : List Char := l.front ++ Item.line l.arguments

def text (l : Layout) : String := String.ofList l.chars

/-- The line calls a command below `start` with these values, by way of these words.  Its arguments
do not begin with a token that names a child of the command, for that child would take over. -/
structure Renders {σ : Type} (l : Layout) (start : Node σ) (words : List String) (head : Command σ)
    (children : List (Node σ)) (values : List Value) : Prop where
  lead : ∀ c ∈ l.lead, Text.isBlank c = true
  spaced : Item.Spaced (l.literals ++ l.arguments)
  literals : SpelledAll words l.literals
  arguments : WrittenAll head.kinds values l.arguments
  leads : start.Leads l.chars.length words (.command head children)
  executable : head.isExecutable = true
  unclaimed : ∀ word next,
    (Reader.mk l.front (Item.line l.arguments)).readString = ⟨.ok word, next⟩ →
      Node.first? word children = none

end Layout

theorem Item.Parted.of_append {items items' : List Item} (h : Parted (items ++ items')) :
    Parted items' := by
  induction items with
  | nil => exact h
  | cons item items ih => exact ih h.2.2

/-! ### The way of the literals -/

namespace Node

variable {σ : Type}

theorem Admits.overLimit?_eq_none {limit : Option Nat} {nodes : List (Node σ)} {r : Reader}
    (h : (Node.registry limit nodes).Admits r.chars.length) : overLimit? limit r = none := by
  cases limit with
  | none => rfl
  | some n => exact if_neg (Nat.not_lt.mpr (h n rfl))

theorem descend_of_route {parent node : Node σ} {r next : Reader} (hr : r.Settled)
    (hadmits : parent.Admits r.chars.length) (h : route parent.children r = .ok (node, next)) :
    parent.descend r = node.descend next := by
  cases parent with
  | command head children =>
    have hroute : route children r = .ok (node, next) := h
    rw [descend_command, hroute]
  | registry limit nodes =>
    have hroute : route nodes r = .ok (node, next) := h
    rw [descend_registry, hadmits.overLimit?_eq_none, hr.skipBlank_eq, hroute]

/-- A command keeps its arguments unless they begin with a token that names a child. -/
theorem descend_of_unclaimed {head : Command σ} {children : List (Node σ)} {r : Reader}
    (h : ∀ word next, r.readString = ⟨.ok word, next⟩ → first? word children = none) :
    (Node.command head children).descend r = .ok ⟨head, r⟩ := by
  rw [descend_command]
  cases hroute : route children r with
  | error error => rfl
  | ok found =>
    obtain ⟨node, next⟩ := found
    obtain ⟨word, hread, hfirst⟩ := route_eq_ok_iff.mp hroute
    rw [h word next hread] at hfirst
    cases hfirst

/-- From a reader that stands at a literal, the descent takes the way of the literals and stops in
front of the arguments. -/
theorem descend_of_leads {length : Nat} {start : Node σ} {words : List String} {head : Command σ}
    {children : List (Node σ)} {literals arguments : List Item} {passed : List Char}
    (hleads : start.Leads length words (.command head children))
    (hspelled : SpelledAll words literals) (hstarts : ∀ item ∈ arguments, item.Starts)
    (hparted : Item.Parted (literals ++ arguments))
    (hlength : (passed ++ Item.line (literals ++ arguments)).length = length)
    (hunclaimed : ∀ word next,
      (Reader.mk (passed ++ Item.line literals) (Item.line arguments)).readString =
        ⟨.ok word, next⟩ → first? word children = none) :
    start.descend ⟨passed, Item.line (literals ++ arguments)⟩ =
      .ok ⟨head, ⟨passed ++ Item.line literals, Item.line arguments⟩⟩ := by
  generalize hlast : Node.command head children = last at hleads
  induction hleads generalizing literals passed with
  | here =>
    subst hlast
    cases hspelled
    simp only [Item.line, List.flatMap_nil, List.append_nil, List.nil_append] at hunclaimed ⊢
    exact descend_of_unclaimed hunclaimed
  | @down parent node last word words hadmits hchild hleads ih =>
    cases hspelled with
    | @cons _ _ item items hne hword hall =>
      have hstarts' : ∀ item' ∈ item :: items ++ arguments, item'.Starts :=
        List.forall_mem_append.mpr ⟨(SpelledAll.cons hne hword hall).starts, hstarts⟩
      rw [List.cons_append] at hparted hlength hstarts' ⊢
      have hsettled : (Reader.mk passed (Item.line (item :: (items ++ arguments)))).Settled :=
        Item.line_not_blank hstarts'
      -- nothing behind the literal goes on with it, so it is read as the word that it spells
      have hrest := Item.line_not_blank fun item' hitem =>
        hstarts' item' (List.mem_cons_of_mem item hitem)
      have hread := Reader.readString_of_stop hparted.1 hrest hparted.stop passed hne hword
      rw [← Item.line_cons] at hread
      have hroute := route_eq_ok_iff.mpr ⟨word, hread, hchild⟩
      rw [descend_of_route hsettled (by rwa [Reader.chars, hlength]) hroute]
      have hline : passed ++ Item.line (item :: items) =
          passed ++ (item.written ++ item.gap) ++ Item.line items := by
        simp only [Item.line_cons, List.append_assoc]
      rw [hline] at hunclaimed ⊢
      refine ih hall hparted.2.2 ?_ hunclaimed hlast
      rw [← hlength, Item.line_cons]
      simp only [List.append_assoc]

end Node

/-! ### The whole line -/

theorem Layout.ofString_text (l : Layout) : Reader.ofString l.text = ⟨[], l.chars⟩ := by
  rw [Reader.ofString, text, String.toList_ofList]

namespace Layout

variable {σ : Type} {l : Layout} {limit : Option Nat} {nodes : List (Node σ)} {words : List String}
  {head : Command σ} {children : List (Node σ)} {values : List Value}

/-- The action of the command is reached with the values that are written, at the end of the line.  Only
where a word would run on does it need blanks. -/
theorem exists_reaches (hlead : ∀ c ∈ l.lead, Text.isBlank c = true)
    (hparted : Item.Parted (l.literals ++ l.arguments)) (hliterals : SpelledAll words l.literals)
    (harguments : WrittenAll head.kinds values l.arguments)
    (hleads : (Node.registry limit nodes).Leads l.chars.length words (.command head children))
    (hexecutable : head.isExecutable = true)
    (hunclaimed : ∀ word next,
      (Reader.mk l.front (Item.line l.arguments)).readString = ⟨.ok word, next⟩ →
        Node.first? word children = none) :
    ∃ action, (Node.registry limit nodes).Reaches (.ofString l.text) head action values
      ⟨l.chars, []⟩ := by
  have hchars : l.chars = l.lead ++ Item.line (l.literals ++ l.arguments) := by
    rw [chars, front, Item.line_append, List.append_assoc]
  have hstarts : ∀ item ∈ l.literals ++ l.arguments, item.Starts :=
    List.forall_mem_append.mpr ⟨hliterals.starts, harguments.starts⟩
  have hskip : (Reader.ofString l.text).skipBlank =
      ⟨l.lead, Item.line (l.literals ++ l.arguments)⟩ := by
    rw [ofString_text, hchars]
    exact Reader.skipBlank_append hlead (Item.line_not_blank hstarts) []
  have hdescend : (Node.registry limit nodes).descend (.ofString l.text) =
      .ok ⟨head, ⟨l.front, Item.line l.arguments⟩⟩ := by
    rw [← Node.descend_skipBlank, hskip]
    exact Node.descend_of_leads hleads hliterals harguments.starts hparted
      (congrArg List.length hchars).symm hunclaimed
  have hread := Kind.readAll_written harguments hparted.of_append l.front
  obtain ⟨action, haction⟩ := Option.isSome_iff_exists.mp hexecutable
  exact ⟨action, _, hdescend, haction, hread⟩

theorem Renders.exists_reaches (h : l.Renders (.registry limit nodes) words head children values) :
    ∃ action, (Node.registry limit nodes).Reaches (.ofString l.text) head action values
      ⟨l.chars, []⟩ :=
  Layout.exists_reaches h.lead h.spaced.parted h.literals h.arguments h.leads h.executable h.unclaimed

end Layout

/-- **A command that is written is read back.**  Run from its start, the line enters exactly the
action of the command that it was written for, with exactly the values that were written, and
leaves nothing of it unread; and it is accepted. -/
theorem Registry.run_of_renders {σ : Type} (registry : Registry σ) (source : σ) {l : Layout}
    {words : List String} {head : Command σ} {children : List (Node σ)} {values : List Value}
    (h : l.Renders registry.toNode words head children values) :
    (registry.runText source l.text).call = some ⟨head, values, ⟨l.chars, []⟩⟩ ∧
    (∃ action, head.action = some action ∧
      (registry.runText source l.text).source = (action source values).2 ∧
      (registry.runText source l.text).result = (action source values).1.mapError Raised.surface) ∧
    registry.acceptsText l.text = true := by
  obtain ⟨action, hreach⟩ := h.exists_reaches
  have hrun : registry.runText source l.text = _ := hreach.run_eq source
  have haction : head.action = some action := by
    obtain ⟨-, -, haction, -⟩ := hreach
    exact haction
  refine ⟨?_, ⟨action, haction, ?_, ?_⟩, ?_⟩
  · rw [hrun, Node.call_restoring]
  · rw [hrun, Node.source_restoring]
  · rw [hrun, Node.result_restoring]
  · exact Node.accepts_eq_true_iff.mpr ⟨head, action, values, _, hreach, rfl⟩

/-- A line with blanks of several kinds and both quotes, one of them inside a name. -/
def Game.scoreLine : Layout where
  lead := [' ']
  literals :=
    [⟨"scoreboard".toList, [' ']⟩, ⟨"\"players\"".toList, ['\t']⟩, ⟨"set".toList, [' ', ' ']⟩]
  arguments :=
    [⟨"\x27steve\\\x27s\x27".toList, [' ']⟩, ⟨"kills".toList, [' ']⟩, ⟨"-5".toList, ['\n']⟩]

theorem Game.run_scoreLine :
    ((Game.registry (some 80)).runText .empty scoreLine.text).call.map
        (fun call => (call.command.name, call.values)) =
      some ("set", [.text "steve\x27s", .text "kills", .int (-5)]) ∧
    (Game.registry (some 80)).acceptsText scoreLine.text = true := by
  have hlead : ∀ c ∈ scoreLine.lead, Text.isBlank c = true := List.all_eq_true.mp rfl
  have hspaced : Item.Spaced (scoreLine.literals ++ scoreLine.arguments) := by
    simp [Item.Spaced, scoreLine, Text.isBlank, Text.blankRanges]
  have hliterals : SpelledAll ["scoreboard", "players", "set"] scoreLine.literals :=
    .cons (by decide) (.bare (List.all_eq_true.mp rfl)) <|
      .cons (by decide) (.quoted '\x22' rfl) <|
      .cons (by decide) (.bare (List.all_eq_true.mp rfl)) .nil
  have harguments : WrittenAll [.string, .string, .int]
      [.text "steve\x27s", .text "kills", .int (-5)] scoreLine.arguments :=
    .cons (.string (by decide) (.quoted '\x27' rfl)) (by simp) <|
      .cons (.string (by decide) (.bare (List.all_eq_true.mp rfl))) (by simp) <|
      .cons (.int (-5)) (by simp) .nil
  have hlimit : ∀ n ∈ some 80, scoreLine.chars.length ≤ n := by
    intro n hn
    rw [← Option.some.inj hn]
    decide
  have hleads : (Game.registry (some 80)).toNode.Leads scoreLine.chars.length
      ["scoreboard", "players", "set"] _ :=
    .down hlimit rfl (.down trivial rfl (.down trivial rfl .here))
  have h := Registry.run_of_renders (Game.registry (some 80)) .empty (l := scoreLine)
    ⟨hlead, hspaced, hliterals, harguments, hleads, rfl, fun _ _ _ => rfl⟩
  exact ⟨by rw [h.1]; rfl, h.2.2⟩

end TextCommand

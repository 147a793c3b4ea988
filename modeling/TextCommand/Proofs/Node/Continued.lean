import TextCommand.Proofs.Argument.Sequence
import TextCommand.Proofs.Node.Path
import TextCommand.Proofs.Node.Shift
import TextCommand.Proofs.Reader.Continued

/-!
# What follows the last argument

A command that has read its arguments is run all the same if the text goes on with a blank behind
them.  No token on the way to it looks behind its own end; and in front of its own arguments the
command saw a token that names no child, or has no children at all.
-/

namespace TextCommand

variable {σ : Type}

namespace Node

variable {back : List Char} {r next : Reader}

theorem route_continued (hback : StartsBlank back) (hr : r.Settled) {nodes : List (Node σ)}
    {node : Node σ} (h : route nodes r = .ok (node, next)) :
    route nodes (r.continued back) = .ok (node, next.continued back) := by
  obtain ⟨word, hread, hfirst⟩ := route_eq_ok_iff.mp h
  exact route_eq_ok_iff.mpr ⟨word, Reader.readString_continued hback hr hread, hfirst⟩

/-- In front of its arguments a command stays the one to read them: where an argument can be read,
there is a token already, and it still names no child. -/
theorem route_continued_error (hback : StartsBlank back) (hr : r.Settled) {children : List (Node σ)}
    {error : CommandError} (h : route children r = .error error) {kinds : List Kind}
    {values : List Value} (hread : Kind.readAll kinds r = ⟨.ok values, next⟩)
    (hgreedy : .greedy ∉ kinds) (hends : kinds ≠ [] ∨ children = []) :
    ∃ error', route children (r.continued back) = .error error' := by
  cases hroute : route children (r.continued back) with
  | error error' => exact ⟨error', rfl⟩
  | ok found =>
    obtain ⟨node, left⟩ := found
    obtain ⟨word, hword, hfirst⟩ := route_eq_ok_iff.mp hroute
    rcases hends with hkinds | rfl
    · -- the first argument is itself the token, which named no child before
      obtain ⟨kind, kinds, rfl⟩ := List.exists_cons_of_ne_nil hkinds
      obtain ⟨value, rest, mid, hvalue, -⟩ := Kind.readAll_cons_eq_ok_iff.mp hread
      have hkind : kind ≠ .greedy := fun hkind => hgreedy (by rw [hkind]; exact List.mem_cons_self)
      obtain ⟨token, htoken, -⟩ := (Kind.read_eq_ok_iff hkind).mp hvalue
      have hstring := Kind.readString_of_token htoken
      rw [Reader.readString_continued hback hr hstring] at hword
      cases hword
      rw [route_eq_ok_iff.mpr ⟨word, hstring, hfirst⟩] at h
      cases h
    · -- there is no child to name
      cases hfirst

/-- The descent, and the path that it takes, end at the same command as before. -/
theorem descend_continued (hback : StartsBlank back) {node : Node σ} (hnode : node.Unlimited)
    (hr : r.Settled) {head : Command σ} {entry : Reader} (hstop : node.descend r = .ok ⟨head, entry⟩)
    {children : List (Node σ)}
    (hlast : (node :: node.path r).getLast? = some (.command head children)) {values : List Value}
    (hread : Kind.readAll head.kinds entry = ⟨.ok values, next⟩) (hgreedy : .greedy ∉ head.kinds)
    (hends : head.kinds ≠ [] ∨ children = []) :
    node.descend (r.continued back) = .ok ⟨head, entry.continued back⟩ ∧
      node.path (r.continued back) = node.path r := by
  fun_induction descend node r with
  | case1 head' children' r node mid hroute ih =>
    have hmid := route_continued hback hr hroute
    rw [path_command, hroute, List.getLast?_cons_cons] at hlast
    obtain ⟨hdescend, hpath⟩ := ih (unlimited_command_iff.mp hnode node (mem_of_route hroute))
      (passes_of_route hroute).settled hstop hlast
    rw [descend_command, path_command, path_command, hmid, hroute]
    exact ⟨hdescend, congrArg (node :: ·) hpath⟩
  | case2 head' children' r error hroute =>
    -- the command was the one to read on, and still is
    cases hstop
    rw [path_command, hroute] at hlast
    cases hlast
    obtain ⟨error', hroute'⟩ := route_continued_error hback hr hroute hread hgreedy hends
    rw [descend_command, path_command, path_command, hroute', hroute]
    exact ⟨rfl, rfl⟩
  | case3 => cases hstop
  | case4 limit nodes r hlimit node mid hroute ih =>
    obtain ⟨rfl, hnodes⟩ := unlimited_registry_iff.mp hnode
    have hroute' := hroute
    rw [hr.skipBlank_eq] at hroute'
    have hmid := route_continued hback hr hroute'
    rw [path_registry, hroute, List.getLast?_cons_cons] at hlast
    obtain ⟨hdescend, hpath⟩ := ih (hnodes node (mem_of_route hroute))
      (passes_of_route hroute).settled hstop hlast
    rw [descend_registry, path_registry, path_registry, (r.settled_continued back).skipBlank_eq,
      hmid, hroute]
    exact ⟨hdescend, congrArg (node :: ·) hpath⟩
  | case5 => cases hstop

/-- To a registry, blanks in front are no matter, in the longer text or in the shorter one. -/
theorem registry_descend_continued (hback : StartsBlank back) {limit : Option Nat}
    {nodes : List (Node σ)} (hnode : (Node.registry limit nodes).Unlimited) {r' : Reader}
    (hr' : r'.skipBlank = r.skipBlank.continued back) {head : Command σ} {entry : Reader}
    (hstop : (Node.registry limit nodes).descend r = .ok ⟨head, entry⟩) {children : List (Node σ)}
    (hlast : ((Node.registry limit nodes).path r).getLast? = some (.command head children))
    {values : List Value} (hread : Kind.readAll head.kinds entry = ⟨.ok values, next⟩)
    (hgreedy : .greedy ∉ head.kinds) (hends : head.kinds ≠ [] ∨ children = []) :
    (Node.registry limit nodes).descend r' = .ok ⟨head, entry.continued back⟩ ∧
      (Node.registry limit nodes).path r' = (Node.registry limit nodes).path r := by
  rw [← descend_skipBlank] at hstop ⊢
  rw [← path_skipBlank] at hlast
  rw [← path_skipBlank limit nodes r', ← path_skipBlank limit nodes r, hr']
  have hlast' : (Node.registry limit nodes :: (Node.registry limit nodes).path r.skipBlank).getLast? =
      some (.command head children) := by
    rw [List.getLast?_cons, hlast]
    rfl
  exact descend_continued hback hnode r.settled_skipBlank hstop hlast' hread hgreedy hends

end Node

/-- To a registry, a text that goes on is the text behind its blanks that goes on. -/
theorem Reader.skipBlank_ofString_append (s t : String) :
    (Reader.ofString (s ++ t)).skipBlank = (Reader.ofString s).skipBlank.continued t.toList := by
  rw [continued_skipBlank, continued, followedBy, ofString, ofString, String.toList_append]

/-- **What follows the last argument never changes what runs.**  If a text enters the action of a
command that has at least one argument, the last one not greedy, or that has neither arguments nor
children, then so does the text with anything behind it that starts with a blank: the same command at
the end of the same path, with the same values and the same result. -/
theorem Registry.run_append {registry : Registry σ} (hregistry : registry.toNode.Unlimited)
    (source : σ) {s t : String} {call : Call σ} {children : List (Node σ)}
    (hcall : (registry.runText source s).call = some call)
    (hnode : (registry.path s).getLast? = some (.command call.command children))
    (hlast : call.command.kinds.getLast? ≠ some .greedy)
    (hends : call.command.kinds ≠ [] ∨ children = []) (ht : StartsBlank t.toList) :
    (∃ reader, (registry.runText source (s ++ t)).call = some { call with reader }) ∧
    registry.path (s ++ t) = registry.path s ∧
    (registry.runText source (s ++ t)).result = (registry.runText source s).result ∧
    (registry.runText source (s ++ t)).source = (registry.runText source s).source := by
  obtain ⟨limit, nodes⟩ := registry
  obtain ⟨head, values, next⟩ := call
  obtain ⟨action, hreach⟩ := Node.call_eq_some_iff.mp hcall
  have hrun := hreach.run_eq source
  obtain ⟨entry, hstop, haction, hread⟩ := hreach
  have hgreedy : .greedy ∉ head.kinds := fun hmem => hlast (Kind.getLast?_of_greedy_mem hread hmem)
  have hentry := (Node.passes_of_registry_descend hstop).settled
  obtain ⟨hdescend, hpath⟩ := Node.registry_descend_continued ht hregistry
    (Reader.skipBlank_ofString_append s t) hstop hnode hread hgreedy hends
  have hreach' : (Node.registry limit nodes).Reaches (Reader.ofString (s ++ t)) head action values
      (next.continued t.toList) :=
    ⟨_, hdescend, haction, Kind.readAll_continued ht hgreedy hentry hread⟩
  have hrun' := hreach'.run_eq source
  refine ⟨⟨next.continued t.toList, Node.call_eq_some_iff.mpr ⟨action, hreach'⟩⟩, hpath, ?_, ?_⟩
  · rw [runText, runText, run, run, hrun, toNode, hrun', Node.result_restoring, Node.result_restoring]
  · rw [runText, runText, run, run, hrun, toNode, hrun', Node.source_restoring, Node.source_restoring]

/-- A score is set all the same if a quote that nothing closes follows. -/
theorem Game.run_before_open_quote :
    ((Game.registry none).runText .empty
        ("scoreboard players set steve kills 5" ++ " \x27x")).call.map
      (fun call => (call.command.name, call.values)) =
      some ("set", [.text "steve", .text "kills", .int 5]) ∧
    ((Game.registry none).runText .empty
        ("scoreboard players set steve kills 5" ++ " \x27x")).result =
      ((Game.registry none).runText .empty "scoreboard players set steve kills 5").result := by
  have hcall : ((Game.registry none).runText .empty "scoreboard players set steve kills 5").call =
      some _ := rfl
  obtain ⟨children, hnode⟩ := Registry.getLast?_path_of_call _ _ _ hcall
  obtain ⟨⟨reader, happended⟩, -, hresult, -⟩ := Registry.run_append Game.registry_unlimited .empty
    hcall hnode (t := " \x27x") nofun (.inl (List.cons_ne_nil _ _)) ⟨' ', rfl, rfl⟩
  exact ⟨by rw [happended]; rfl, hresult⟩

end TextCommand

import TextCommand.Proofs.Node.Alike
import TextCommand.Proofs.Node.Rewind
import TextCommand.Proofs.Reader.Contract

/-!
# Length limits only ever cut off

A limit does nothing but end a traversal where the path of the input meets a registry whose limit the
text exceeds.  The first such limit on the path decides: if there is one, a run fails with it and both
questions come to nothing; if there is none, all three do what they do in the tree without limits.
-/

namespace TextCommand

variable {σ : Type}

theorem overLimit?_eq_some_iff {limit : Option Nat} {r : Reader} {error : CommandError} :
    overLimit? limit r = some error ↔
      ∃ n, limit = some n ∧ n < r.chars.length ∧ error = .tooLong r.chars.length n := by
  cases limit with
  | none => simp [overLimit?]
  | some n =>
    simp only [overLimit?, Option.bind_some, Option.ite_none_right_eq_some, Option.some.injEq,
      exists_eq_left']
    exact and_congr_right fun _ => eq_comm

namespace Node

/-- The tree without its limits. -/
def withoutLimits : Node σ → Node σ
  | .command head children => .command head (children.map withoutLimits)
  | .registry _ nodes => .registry none (nodes.map withoutLimits)

/-- All limits in a tree. -/
def limits : Node σ → List Nat
  | .command _ children => children.flatMap limits
  | .registry limit nodes => limit.toList ++ nodes.flatMap limits

/-- The limit that a node sets itself. -/
def limit? : Node σ → Option Nat
  | .command _ _ => none
  | .registry limit _ => limit

/-- The first limit of several nodes that a text of that length exceeds. -/
def exceeded? (length : Nat) (nodes : List (Node σ)) : Option Nat :=
  (nodes.filterMap limit?).find? fun limit => limit < length

theorem withoutLimits_command (head : Command σ) (children : List (Node σ)) :
    (Node.command head children).withoutLimits = .command head (children.map withoutLimits) := by
  rw [withoutLimits]

theorem withoutLimits_registry (limit : Option Nat) (nodes : List (Node σ)) :
    (Node.registry limit nodes).withoutLimits = .registry none (nodes.map withoutLimits) := by
  rw [withoutLimits]

theorem limits_command (head : Command σ) (children : List (Node σ)) :
    (Node.command head children).limits = children.flatMap limits := by
  rw [limits]

theorem limits_registry (limit : Option Nat) (nodes : List (Node σ)) :
    (Node.registry limit nodes).limits = limit.toList ++ nodes.flatMap limits := by
  rw [limits]

theorem forall₂_withoutLimits (nodes : List (Node σ)) :
    List.Forall₂ (fun node node' => node' = node.withoutLimits) nodes (nodes.map withoutLimits) :=
  List.forall₂_map_right_iff.mpr (List.forall₂_same.mpr fun _ _ => rfl)

theorem keepsWords_withoutLimits :
    KeepsWords fun node node' : Node σ => node' = node.withoutLimits := by
  rintro node _ rfl word
  cases node with
  | command head children => rw [withoutLimits_command]; rfl
  | registry limit nodes => rw [withoutLimits_registry]; rfl

section Route

variable {nodes : List (Node σ)} {r next : Reader}

theorem route_withoutLimits_of_ok {node : Node σ} (h : route nodes r = .ok (node, next)) :
    route (nodes.map withoutLimits) r = .ok (node.withoutLimits, next) := by
  obtain ⟨_, hroute, rfl⟩ :=
    route_ok_of_forall₂ keepsWords_withoutLimits (forall₂_withoutLimits nodes) h
  exact hroute

theorem route_withoutLimits_of_error {error : CommandError} (h : route nodes r = .error error) :
    route (nodes.map withoutLimits) r = .error error :=
  route_error_of_forall₂ keepsWords_withoutLimits (forall₂_withoutLimits nodes) h

end Route

/-! ### The first limit on the path -/

theorem exceeded?_cons_of_le {length : Nat} {node : Node σ} (h : ∀ n ∈ node.limit?, length ≤ n)
    (nodes : List (Node σ)) : exceeded? length (node :: nodes) = exceeded? length nodes := by
  cases hlimit : node.limit? with
  | none => rw [exceeded?, List.filterMap_cons_none hlimit, exceeded?]
  | some n =>
    have hn : ¬ n < length := Nat.not_lt_of_le (h n hlimit)
    rw [exceeded?, List.filterMap_cons_some hlimit, List.find?_cons_of_neg (by simpa using hn),
      exceeded?]

theorem exceeded?_cons_of_lt {length n : Nat} {node : Node σ} (h : node.limit? = some n)
    (hn : n < length) (nodes : List (Node σ)) : exceeded? length (node :: nodes) = some n := by
  rw [exceeded?, List.filterMap_cons_some h, List.find?_cons_of_pos (by simpa using hn)]

/-- It is the limit of a registry, and the nodes in front of that allow the length. -/
theorem exists_registry_of_exceeded {length limit : Nat} {nodes : List (Node σ)}
    (h : exceeded? length nodes = some limit) :
    limit < length ∧ ∃ front below back, nodes = front ++ .registry (some limit) below :: back ∧
      ∀ earlier ∈ front, ∀ n ∈ earlier.limit?, length ≤ n := by
  induction nodes with
  | nil => cases h
  | cons node nodes ih =>
    by_cases hnode : ∀ n ∈ node.limit?, length ≤ n
    · -- the first node allows the length
      rw [exceeded?_cons_of_le hnode] at h
      obtain ⟨hlt, front, below, back, rfl, hfront⟩ := ih h
      exact ⟨hlt, node :: front, below, back, rfl, List.forall_mem_cons.mpr ⟨hnode, hfront⟩⟩
    · -- the first node does not
      simp only [not_forall, Nat.not_le] at hnode
      obtain ⟨n, hlimit, hlt⟩ := hnode
      rw [exceeded?_cons_of_lt hlimit hlt] at h
      cases h
      cases node with
      | command head children => cases hlimit
      | registry limit' below =>
        cases hlimit
        exact ⟨hlt, [], below, nodes, rfl, List.forall_mem_nil _⟩

theorem exceeded?_registry_of_some {limit : Option Nat} {r : Reader} {error : CommandError}
    (h : overLimit? limit r = some error) (below nodes : List (Node σ)) :
    ∃ n, exceeded? r.chars.length (.registry limit below :: nodes) = some n ∧
      error = .tooLong r.chars.length n := by
  obtain ⟨n, rfl, hn, rfl⟩ := overLimit?_eq_some_iff.mp h
  exact ⟨n, exceeded?_cons_of_lt rfl hn nodes, rfl⟩

theorem exceeded?_registry_of_none {limit : Option Nat} {r : Reader}
    (h : overLimit? limit r = none) (below nodes : List (Node σ)) :
    exceeded? r.chars.length (.registry limit below :: nodes) = exceeded? r.chars.length nodes := by
  refine exceeded?_cons_of_le (fun n hn => Nat.le_of_not_lt fun hlt => ?_) nodes
  have hlimit : overLimit? limit r = some (.tooLong r.chars.length n) :=
    overLimit?_eq_some_iff.mpr ⟨n, hn, hlt, rfl⟩
  rw [hlimit] at h
  cases h

theorem exceeded?_command (length : Nat) (head : Command σ) (children nodes : List (Node σ)) :
    exceeded? length (.command head children :: nodes) = exceeded? length nodes := rfl

/-- The descent is cut off by the first limit on the path that the text exceeds, or is that of the tree
without limits. -/
theorem descend_eq_exceeded (node : Node σ) (r : Reader) :
    node.descend r =
      match exceeded? r.chars.length (node :: node.path r) with
      | some limit => .error (.tooLong r.chars.length limit)
      | none => node.withoutLimits.descend r := by
  fun_induction descend node r with
  | case1 head children r node next hroute ih =>
    -- a child takes over
    rw [path_command, hroute, exceeded?_command, withoutLimits_command, descend_command,
      route_withoutLimits_of_ok hroute, ← chars_of_route hroute]
    exact ih
  | case2 head children r error hroute =>
    -- the descent stops here
    rw [path_command, hroute, withoutLimits_command, descend_command,
      route_withoutLimits_of_error hroute]
    rfl
  | case3 limit nodes r error hlimit =>
    -- the text is too long
    obtain ⟨n, hexceeded, rfl⟩ := exceeded?_registry_of_some hlimit nodes
      ((Node.registry limit nodes).path r)
    rw [hexceeded]
  | case4 limit nodes r hlimit node next hroute ih =>
    -- a listed node takes over
    have hchars : next.chars = r.chars := (chars_of_route hroute).trans r.chars_skipBlank
    rw [exceeded?_registry_of_none hlimit, path_registry, hroute, withoutLimits_registry,
      descend_registry, route_withoutLimits_of_ok hroute, ← hchars]
    exact ih
  | case5 limit nodes r hlimit error hroute =>
    -- no listed node has the token
    rw [exceeded?_registry_of_none hlimit, path_registry, hroute, withoutLimits_registry,
      descend_registry, route_withoutLimits_of_error hroute]
    rfl

theorem mem_limits_of_limit? {node : Node σ} {limit : Nat} (h : node.limit? = some limit) :
    limit ∈ node.limits := by
  cases node with
  | command head children => cases h
  | registry limit' nodes =>
    cases h
    rw [limits_registry]
    exact List.mem_append_left _ (List.mem_singleton.mpr rfl)

theorem mem_limits_of_child {node child : Node σ} (hchild : child ∈ node.children) {limit : Nat}
    (h : limit ∈ child.limits) : limit ∈ node.limits := by
  have hbelow : limit ∈ node.children.flatMap limits := List.mem_flatMap.mpr ⟨child, hchild, h⟩
  cases node with
  | command head children =>
    rw [limits_command]
    exact hbelow
  | registry limit' nodes =>
    rw [limits_registry]
    exact List.mem_append_right _ hbelow

/-- The limits on a path are limits of the tree. -/
theorem mem_limits_of_path {node passed : Node σ} {r : Reader} (hpassed : passed ∈ node :: node.path r)
    {limit : Nat} (h : passed.limit? = some limit) : limit ∈ node.limits := by
  fun_induction path node r with
  | case1 head children r child next hroute ih =>
    rcases List.mem_cons.mp hpassed with rfl | hbelow
    · -- the node itself
      exact mem_limits_of_limit? h
    · -- a node below it
      have hchild : child ∈ (Node.command head children).children := mem_of_route hroute
      exact mem_limits_of_child hchild (ih hbelow)
  | case2 head children r error hroute =>
    obtain rfl := List.mem_singleton.mp hpassed
    exact mem_limits_of_limit? h
  | case3 limit' nodes r child next hroute ih =>
    rcases List.mem_cons.mp hpassed with rfl | hbelow
    · exact mem_limits_of_limit? h
    · have hchild : child ∈ (Node.registry limit' nodes).children := mem_of_route hroute
      exact mem_limits_of_child hchild (ih hbelow)
  | case4 limit' nodes r error hroute =>
    obtain rfl := List.mem_singleton.mp hpassed
    exact mem_limits_of_limit? h

theorem exceeded?_eq_none_of_limits {node : Node σ} {r : Reader}
    (h : ∀ limit ∈ node.limits, r.chars.length ≤ limit) :
    exceeded? r.chars.length (node :: node.path r) = none := by
  cases hexceeded : exceeded? r.chars.length (node :: node.path r) with
  | none => rfl
  | some limit =>
    obtain ⟨hlt, front, below, back, hpath, -⟩ := exists_registry_of_exceeded hexceeded
    have hmem : .registry (some limit) below ∈ node :: node.path r := by rw [hpath]; simp
    exact absurd (h limit (mem_limits_of_path hmem rfl)) (Nat.not_le_of_lt hlt)

/-! ### No other error speaks of a length -/

theorem isSome_cursor?_of_route_error {nodes : List (Node σ)} {r : Reader} {error : CommandError}
    (h : route nodes r = .error error) : error.cursor?.isSome = true := by
  unfold route at h
  split at h
  · split at h
    · cases h
    · cases h
      rfl
  · cases h
    rfl

/-- A descent that no limit cuts off fails at a position of the text. -/
theorem isSome_cursor?_of_descend_error {node : Node σ} {r : Reader} {error : CommandError}
    (hexceeded : exceeded? r.chars.length (node :: node.path r) = none)
    (h : node.descend r = .error error) : error.cursor?.isSome = true := by
  fun_induction descend node r with
  | case1 head children r child next hroute ih =>
    rw [path_command, hroute, exceeded?_command, ← chars_of_route hroute] at hexceeded
    exact ih hexceeded h
  | case2 => cases h
  | case3 limit nodes r error hlimit =>
    obtain ⟨n, hsome, -⟩ := exceeded?_registry_of_some hlimit nodes ((Node.registry limit nodes).path r)
    rw [hsome] at hexceeded
    cases hexceeded
  | case4 limit nodes r hlimit child next hroute ih =>
    have hchars : next.chars = r.chars := (chars_of_route hroute).trans r.chars_skipBlank
    rw [exceeded?_registry_of_none hlimit, path_registry, hroute, ← hchars] at hexceeded
    exact ih hexceeded h
  | case5 limit nodes r hlimit error hroute =>
    cases h
    exact isSome_cursor?_of_route_error hroute

/-- A command that enters no action fails at a position of the text. -/
theorem isSome_cursor?_of_command_run {command : Command σ} {source : σ} {r : Reader}
    {error : CommandError} (hcall : (command.run source r).call = none)
    (h : (command.run source r).result = .error error) : error.cursor?.isSome = true := by
  unfold Command.run at hcall h
  split at h
  · cases h
    rfl
  · next action haction =>
    rcases hread : Kind.readAll command.kinds r with ⟨fault | values, next⟩
    · -- an argument cannot be read
      simp only [hread] at h
      cases h
      rw [Kind.cursor?_of_readAll_error hread]
      rfl
    · -- an action is entered
      simp only [haction, hread] at hcall
      cases hcall

/-- A run that fails for the length of its text, and not in an action, is cut off. -/
theorem exceeded?_of_run_failed {node : Node σ} {source : σ} {r : Reader} {length limit : Nat}
    (h : node.run source r = .failed (.tooLong length limit) source r) :
    exceeded? r.chars.length (node :: node.path r) = some limit := by
  rw [run_eq_descend] at h
  cases hexceeded : exceeded? r.chars.length (node :: node.path r) with
  | some limit' =>
    rw [descend_eq_exceeded, hexceeded] at h
    cases h
    rfl
  | none =>
    exfalso
    -- whatever fails below the limits carries a position, which the length does not
    cases hstop : node.descend r with
    | error error =>
      have hcursor := isSome_cursor?_of_descend_error hexceeded hstop
      rw [hstop] at h
      cases h
      cases hcursor
    | ok stop =>
      rw [hstop] at h
      have hcall := congrArg Run.call h
      have hresult := congrArg Run.result h
      simp only [call_restoring, result_restoring] at hcall hresult
      have hcursor := isSome_cursor?_of_command_run hcall hresult
      cases hcursor

/-! ### The traversals -/

section Traversals

variable {node : Node σ} (source : σ) {r : Reader}

/-- Where the path meets a limit that the text exceeds, that is all that happens. -/
theorem traversals_of_exceeded {limit : Nat}
    (h : exceeded? r.chars.length (node :: node.path r) = some limit) :
    node.run source r = .failed (.tooLong r.chars.length limit) source r ∧
      node.accepts r = (false, r) ∧ node.suggest source r = ([], r) := by
  rw [run_eq_descend, accepts_eq_descend, suggest_eq_descend, descend_eq_exceeded, h]
  exact ⟨rfl, rfl, rfl⟩

theorem traversals_of_not_exceeded
    (h : exceeded? r.chars.length (node :: node.path r) = none) :
    node.run source r = node.withoutLimits.run source r ∧
      node.accepts r = node.withoutLimits.accepts r ∧
      node.suggest source r = node.withoutLimits.suggest source r := by
  simp only [run_eq_descend, accepts_eq_descend, suggest_eq_descend]
  rw [descend_eq_exceeded, h]
  exact ⟨rfl, rfl, rfl⟩

end Traversals

/-- **Length limits only ever cut off.**  If no limit of the tree is below the number of characters of the
whole text, all traversals are those of the tree without limits.  In any case a run is that of the tree
without limits, and so are both answers, or it is cut off: it fails with the limit of a registry on its
path, enters no action and leaves its reader and its source alone.  Whenever a run is cut off, the input
is not accepted and nothing is suggested for it; and that is always so if the text exceeds the limit at
the top. -/
theorem limits_only_cut_off (node : Node σ) (source : σ) (r : Reader) :
    ((∀ limit ∈ node.limits, r.chars.length ≤ limit) →
      node.run source r = node.withoutLimits.run source r ∧
      node.accepts r = node.withoutLimits.accepts r ∧
      node.suggest source r = node.withoutLimits.suggest source r) ∧
    ((node.run source r = node.withoutLimits.run source r ∧
      node.accepts r = node.withoutLimits.accepts r ∧
      node.suggest source r = node.withoutLimits.suggest source r) ∨
      ∃ limit front below back,
        node :: node.path r = front ++ .registry (some limit) below :: back ∧
        (∀ earlier ∈ front, ∀ n ∈ earlier.limit?, r.chars.length ≤ n) ∧ limit < r.chars.length ∧
        node.run source r = .failed (.tooLong r.chars.length limit) source r) ∧
    (∀ length limit, node.run source r = .failed (.tooLong length limit) source r →
      node.accepts r = (false, r) ∧ node.suggest source r = ([], r)) ∧
    ∀ limit nodes, node = .registry (some limit) nodes → limit < r.chars.length →
      node.run source r = .failed (.tooLong r.chars.length limit) source r := by
  refine ⟨fun h => traversals_of_not_exceeded source (exceeded?_eq_none_of_limits h), ?_, ?_, ?_⟩
  · cases hexceeded : exceeded? r.chars.length (node :: node.path r) with
    | none => exact .inl (traversals_of_not_exceeded source hexceeded)
    | some limit =>
      obtain ⟨hlt, front, below, back, hpath, hfront⟩ := exists_registry_of_exceeded hexceeded
      exact .inr ⟨limit, front, below, back, hpath, hfront, hlt,
        (traversals_of_exceeded source hexceeded).1⟩
  · intro length limit h
    exact (traversals_of_exceeded source (exceeded?_of_run_failed h)).2
  · rintro limit nodes rfl hlt
    have hlimit : overLimit? (some limit) r = some (.tooLong r.chars.length limit) :=
      overLimit?_eq_some_iff.mpr ⟨limit, rfl, hlt, rfl⟩
    rw [run_registry, hlimit]

/-- A registry below another one counts the characters of the whole line, of which the last two take two
bytes each. -/
example :
    let say := Draft.new "say" |>.argument .greedy "message" "" |>.execute fun source _ => (.ok (), source)
    let tree (limit : Nat) : Node Unit := .registry none [.registry (some limit) [say.build]]
    ((tree 16).run () (.ofString "  '<root>' say éé")).result = .error (.tooLong 17 16) ∧
    ((tree 17).run () (.ofString "  '<root>' say éé")).result = .ok () := ⟨rfl, rfl⟩

end Node

end TextCommand

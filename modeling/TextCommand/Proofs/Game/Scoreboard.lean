import TextCommand.Game.Scoreboard
import TextCommand.Proofs.Number.Integer

/-!
# The scoreboard as a ledger

An entry creates an objective or changes a score.  The scoreboard admits it or stays as it is, and
what it holds after any number of entries is told by the entries alone: the objectives that were
created, in the order of their names, and for each pair of player and objective the changes that
were admitted, one after the other from zero.
-/

namespace TextCommand.Game

/-! ### The order of the objectives -/

theorem utf8Bytes_inj {a b : String} : utf8Bytes a = utf8Bytes b ↔ a = b := by
  constructor
  · intro h
    exact String.toByteArray_inj.mp (ByteArray.ext (Array.ext' h))
  · rintro rfl
    rfl

theorem utf8Bytes_lt_of_not_lt {a b : String} (h : ¬ utf8Bytes a < utf8Bytes b) (hne : a ≠ b) :
    utf8Bytes b < utf8Bytes a :=
  Std.lt_of_le_of_ne h fun heq => hne (utf8Bytes_inj.mp heq).symm

/-- The names increase strictly in the order of their UTF-8 bytes. -/
def Increasing (names : List String) : Prop :=
  names.Pairwise fun a b => utf8Bytes a < utf8Bytes b

theorem Increasing.insertName {name : String} {names : List String} (h : Increasing names)
    (hnew : name ∉ names) : Increasing (insertName name names) := by
  induction names with
  | nil => exact List.pairwise_singleton _ name
  | cons other names ih =>
    obtain ⟨hother, hnames⟩ := List.pairwise_cons.mp h
    rw [List.mem_cons, not_or] at hnew
    unfold Game.insertName
    split
    · next hlt =>
      -- the name goes in front of all others
      refine List.pairwise_cons.mpr ⟨?_, h⟩
      intro later hlater
      rcases List.mem_cons.mp hlater with rfl | hlater
      · exact hlt
      · exact Std.lt_trans hlt (hother later hlater)
    · next hlt =>
      -- the name goes behind `other`
      refine List.pairwise_cons.mpr ⟨?_, ih hnames hnew.2⟩
      intro later hlater
      rcases mem_insertName.mp hlater with rfl | hlater
      · exact utf8Bytes_lt_of_not_lt hlt hnew.1
      · exact hother later hlater

/-! ### Entries -/

/-- How a score is changed. -/
inductive Change where
  | set (score : Int32)
  | add (amount : Int32)
deriving DecidableEq

namespace Change

def apply : Change → Int32 → Int32
  | .set score, _ => score
  | .add amount, current => Number.clampedAdd current amount

/-- The change in exact arithmetic. -/
def applyInt : Change → Int → Int
  | .set score, _ => score.toInt
  | .add amount, current => max (-2147483648) (min 2147483647 (current + amount.toInt))

theorem toInt_apply (change : Change) (n : Int32) :
    (change.apply n).toInt = change.applyInt n.toInt := by
  cases change with
  | set score => rfl
  | add amount => exact Number.toInt_clampedAdd n amount

theorem toInt_foldl_apply (changes : List Change) (n : Int32) :
    (changes.foldl (fun n change => change.apply n) n).toInt =
      changes.foldl (fun n change => change.applyInt n) n.toInt := by
  induction changes generalizing n with
  | nil => rfl
  | cons change changes ih => rw [List.foldl_cons, List.foldl_cons, ih, toInt_apply]

end Change

inductive Entry where
  | create (objective : String)
  | score (player objective : String) (change : Change)
deriving DecidableEq

/-- The change that an entry makes to the score of one pair. -/
def Entry.changeOf? (player objective : String) : Entry → Option Change
  | .create _ => none
  | .score player' objective' change =>
    if player' = player ∧ objective' = objective then some change else none

theorem Entry.changeOf?_eq_some_iff {player objective : String} {entry : Entry} {change : Change} :
    entry.changeOf? player objective = some change ↔ entry = .score player objective change := by
  cases entry with
  | create objective => simp [changeOf?]
  | score player' objective' change' =>
    simp only [changeOf?, Option.ite_none_right_eq_some, Option.some.injEq, Entry.score.injEq]
    exact and_assoc

namespace Scoreboard

/-- An objective is new when it is created, and there when a score is changed. -/
def Admits (board : Scoreboard) : Entry → Prop
  | .create name => name ∉ board.objectives
  | .score _ objective _ => objective ∈ board.objectives

/-- The scoreboard after an entry, if it admits it. -/
def enter? (board : Scoreboard) : Entry → Option Scoreboard
  | .create name => board.addObjective? name
  | .score player objective change =>
    (board.update? player objective change.apply).map Prod.snd

/-- The scoreboard after an entry; one that it does not admit changes nothing. -/
def enter (board : Scoreboard) (entry : Entry) : Scoreboard := (board.enter? entry).getD board

/-- The scoreboard that entries make of an empty one. -/
def replay (entries : List Entry) : Scoreboard := entries.foldl enter empty

variable {board : Scoreboard} {entry : Entry}

theorem isSome_enter?_iff : (board.enter? entry).isSome ↔ board.Admits entry := by
  cases entry with
  | create objective =>
    simp only [enter?, addObjective?, Admits]
    split <;> simp_all
  | score player objective change =>
    simp only [enter?, update?, Admits]
    split <;> simp_all

theorem enter_of_not_admits (h : ¬ board.Admits entry) : board.enter entry = board := by
  rw [← isSome_enter?_iff, Option.not_isSome_iff_eq_none] at h
  rw [enter, h]
  rfl

theorem mem_objectives_enter {objective : String} :
    objective ∈ (board.enter entry).objectives ↔
      objective ∈ board.objectives ∨ entry = .create objective := by
  cases entry with
  | create objective =>
    simp only [enter, enter?, addObjective?, Entry.create.injEq]
    split
    · next h =>
      simp only [Option.getD_none]
      grind
    · simp only [Option.getD_some, mem_insertName]
      grind
  | score player objective' change =>
    simp only [enter, enter?, update?, reduceCtorEq, or_false]
    split <;> rfl

theorem score?_enter_of_admits {player objective : String} {change : Change}
    (h : board.Admits (.score player objective change)) :
    (board.enter (.score player objective change)).score? player objective =
      some (change.apply ((board.score? player objective).getD 0)) := by
  have hmem : objective ∈ board.objectives := h
  simp [enter, enter?, update?, score?, hmem, lookup_putEntry]

/-- An entry changes no score but that of the pair that it names. -/
theorem score?_enter_of_changeOf? {player objective : String}
    (h : entry.changeOf? player objective = none) :
    (board.enter entry).score? player objective = board.score? player objective := by
  cases entry with
  | create objective =>
    simp only [enter, enter?, addObjective?]
    split <;> rfl
  | score player' objective' change =>
    -- the entry is about another pair
    have hne : ((objective, player) == (objective', player')) = false := by
      simp only [Entry.changeOf?, ite_eq_right_iff] at h
      simp only [beq_eq_false_iff_ne, ne_eq, Prod.mk.injEq, not_and]
      rintro rfl rfl
      exact absurd (h ⟨rfl, rfl⟩) nofun
    simp only [enter, enter?, update?]
    split
    · simp [score?, lookup_putEntry, hne]
    · rfl

/-- A score stands under an objective that exists, if the ones before did. -/
theorem mem_objectives_of_score?_enter {player objective : String} {score : Int32}
    (h : ∀ score, board.score? player objective = some score → objective ∈ board.objectives)
    (hscore : (board.enter entry).score? player objective = some score) :
    objective ∈ (board.enter entry).objectives := by
  refine mem_objectives_enter.mpr (.inl ?_)
  cases hchange : entry.changeOf? player objective with
  | none => exact h score (by rw [← hscore, score?_enter_of_changeOf? hchange])
  | some change =>
    obtain rfl := Entry.changeOf?_eq_some_iff.mp hchange
    by_cases hadmits : board.Admits (.score player objective change)
    · exact hadmits
    · -- refused, so the score was there before
      rw [enter_of_not_admits hadmits] at hscore
      exact h score hscore

theorem increasing_enter (h : Increasing board.objectives) :
    Increasing (board.enter entry).objectives := by
  cases entry with
  | create objective =>
    simp only [enter, enter?, addObjective?]
    split
    · exact h
    · next hnew => exact h.insertName hnew
  | score player objective change =>
    simp only [enter, enter?, update?]
    split <;> exact h

end Scoreboard

/-! ### Histories -/

/-- An entry that was made, and whether it succeeded. -/
structure Event where
  entry : Entry
  succeeded : Bool
deriving DecidableEq

/-- The changes of a pair's score that have succeeded, in order. -/
def changesOf (player objective : String) (history : List Event) : List Change :=
  history.filterMap fun event =>
    if event.succeeded then event.entry.changeOf? player objective else none

/-- The score that changes make, if there are any: from zero, one after the other. -/
def Change.total? (changes : List Change) : Option Int32 :=
  changes.foldl (fun score? change => some (change.apply (score?.getD 0))) none

theorem Change.total?_eq_some_iff {changes : List Change} {n : Int32} :
    Change.total? changes = some n ↔
      changes ≠ [] ∧ n.toInt = changes.foldl (fun n change => change.applyInt n) 0 := by
  have hfold : ∀ (changes : List Change) (m : Int32),
      changes.foldl (fun score? change => some (change.apply (score?.getD 0))) (some m) =
        some (changes.foldl (fun n change => change.apply n) m) := by
    intro changes
    induction changes with
    | nil => exact fun m => rfl
    | cons change changes ih => exact fun m => ih (change.apply m)
  cases changes with
  | nil => simp [total?]
  | cons change changes =>
    have hzero := toInt_apply change 0
    rw [total?, List.foldl_cons, hfold, Option.some.injEq, ← Int32.toInt_inj, toInt_foldl_apply]
    simp [hzero, eq_comm]

/-- A scoreboard that a history of entries accounts for. -/
structure Balanced (board : Scoreboard) (history : List Event) : Prop where
  replayed : board = .replay (history.map Event.entry)
  created : ∀ objective, objective ∈ board.objectives ↔
    ∃ event ∈ history, event.entry = .create objective
  changed : ∀ player objective,
    board.score? player objective = Change.total? (changesOf player objective history)
  scored : ∀ player objective score, board.score? player objective = some score →
    objective ∈ board.objectives
  increasing : Increasing board.objectives

theorem Balanced.nil : Balanced .empty [] := by
  refine ⟨rfl, ?_, fun _ _ => rfl, nofun, .nil⟩
  simp [Scoreboard.empty]

/-- The score of a pair after one more event. -/
theorem Balanced.changed_snoc {board : Scoreboard} {history : List Event} {entry : Entry}
    {succeeded : Bool} (h : Balanced board history)
    (hadmits : succeeded = true ↔ board.Admits entry) (player objective : String) :
    (board.enter entry).score? player objective =
      Change.total? (changesOf player objective (history ++ [⟨entry, succeeded⟩])) := by
  have hold := h.changed player objective
  rw [changesOf, List.filterMap_append, ← changesOf, Change.total?, List.foldl_append,
    ← Change.total?, ← hold]
  cases hchange : entry.changeOf? player objective with
  | none =>
    rw [Scoreboard.score?_enter_of_changeOf? hchange]
    simp [hchange]
  | some change =>
    cases succeeded with
    | true =>
      obtain rfl := Entry.changeOf?_eq_some_iff.mp hchange
      rw [Scoreboard.score?_enter_of_admits (hadmits.mp rfl)]
      simp [hchange]
    | false =>
      -- what is refused counts neither on the board nor in the history
      have hrefuses : ¬ board.Admits entry := fun h => Bool.noConfusion (hadmits.mpr h)
      rw [Scoreboard.enter_of_not_admits hrefuses]
      rfl

/-- One more event, which succeeds exactly if the scoreboard admits its entry. -/
theorem Balanced.snoc {board : Scoreboard} {history : List Event} {entry : Entry}
    {succeeded : Bool} (h : Balanced board history)
    (hadmits : succeeded = true ↔ board.Admits entry) :
    Balanced (board.enter entry) (history ++ [⟨entry, succeeded⟩]) := by
  refine ⟨?_, ?_, h.changed_snoc hadmits, ?_, Scoreboard.increasing_enter h.increasing⟩
  · rw [List.map_append, Scoreboard.replay, List.foldl_append, ← Scoreboard.replay, ← h.replayed]
    rfl
  · intro objective
    rw [Scoreboard.mem_objectives_enter, h.created]
    simp [or_and_right, exists_or]
  · exact fun player objective score =>
      Scoreboard.mem_objectives_of_score?_enter (h.scored player objective)

end TextCommand.Game

import Mathlib.Data.List.Forall2
import TextCommand.Proofs.Argument.Progress
import TextCommand.Proofs.Argument.Taken

/-!
# Arguments one after the other

To read two lists of kinds as one is to read the first, and then the second from where the first has left
the reader.  Each kind makes a value of its own sort and takes at least one character; so the values match
the kinds, a text that is shorter than the list runs out, and so does one behind a greedy kind.
-/

namespace TextCommand

/-- A reading of values and, if it succeeds, a further one from where it ends, with the values of both. -/
def Reading.andThen {ε α : Type} (first : Reading ε (List α))
    (further : Reader → Reading ε (List α)) : Reading ε (List α) :=
  match first with
  | ⟨.error e, next⟩ => ⟨.error e, next⟩
  | ⟨.ok as, next⟩ =>
    match further next with
    | ⟨.error e, last⟩ => ⟨.error e, last⟩
    | ⟨.ok bs, last⟩ => ⟨.ok (as ++ bs), last⟩

/-- A read that takes an item has taken a character. -/
theorem Reader.Takes.length_lt {r next : Reader} {item : Item} (h : r.Takes item next) :
    next.rest.length < r.rest.length := by
  have hpos := List.length_pos_iff.mpr h.nonempty
  rw [h.rest, List.length_append, List.length_append]
  omega

namespace Kind

/-- The sort of value that a kind makes. -/
inductive Makes : Kind → Value → Prop
  | bool (b : Bool) : Makes .bool (.bool b)
  | int (n : Int32) : Makes .int (.int n)
  | long (n : Int64) : Makes .long (.long n)
  | float (x : Number.Single) : Makes .float (.float x)
  | double (x : Number.Double) : Makes .double (.double x)
  | string (s : String) : Makes .string (.text s)
  | greedy (s : String) : Makes .greedy (.text s)
  | mode (m : Game.Mode) : Makes .mode (.mode m)
  | messy (s : String) : Makes .messy (.text s)

variable {r next : Reader}

theorem makes_of_decode? {kind : Kind} {word : String} {value : Value}
    (h : kind.decode? word = some value) : kind.Makes value := by
  cases kind with
  | bool | int | long | float | double | mode =>
    obtain ⟨a, -, rfl⟩ := Option.map_eq_some_iff.mp h
    constructor
  | string =>
    cases h
    exact .string word
  | greedy => cases h
  | messy =>
    simp only [decode?] at h
    split at h
    · cases h
    · cases h
      exact .messy word

theorem makes_of_read {kind : Kind} {value : Value} (h : kind.read r = ⟨.ok value, next⟩) :
    kind.Makes value := by
  by_cases hkind : kind = .greedy
  · subst hkind
    obtain ⟨text, -, rfl⟩ := toValue_eq_ok_iff.mp h
    exact .greedy text
  · obtain ⟨word, -, hdecode⟩ := (read_eq_ok_iff hkind).mp h
    exact makes_of_decode? hdecode

theorem makes_of_readAll {kinds : List Kind} {values : List Value}
    (h : readAll kinds r = ⟨.ok values, next⟩) : List.Forall₂ Makes kinds values := by
  induction kinds generalizing r values with
  | nil =>
    cases h
    exact .nil
  | cons kind kinds ih =>
    obtain ⟨value, rest, mid, hread, hall, rfl⟩ := readAll_cons_eq_ok_iff.mp h
    exact .cons (makes_of_read hread) (ih hall)

/-- Each kind takes a character, so there must be at least as many of them. -/
theorem length_add_le_of_readAll {kinds : List Kind} {values : List Value}
    (h : readAll kinds r = ⟨.ok values, next⟩) :
    next.rest.length + kinds.length ≤ r.rest.length := by
  induction kinds generalizing r values with
  | nil =>
    cases h
    exact Nat.le_refl _
  | cons kind kinds ih =>
    obtain ⟨value, rest, mid, hread, hall, -⟩ := readAll_cons_eq_ok_iff.mp h
    have hfirst := (takes_of_read hread).length_lt
    have hrest := ih hall
    rw [List.length_cons]
    omega

theorem readAll_singleton_eq_ok_iff {kind : Kind} {value : Value} :
    readAll [kind] r = ⟨.ok [value], next⟩ ↔ kind.read r = ⟨.ok value, next⟩ := by
  rw [readAll_cons_eq_ok_iff]
  constructor
  · rintro ⟨_, _, mid, hread, hnil, hvalue⟩
    cases hnil
    cases hvalue
    exact hread
  · intro hread
    exact ⟨value, [], next, hread, rfl, rfl⟩

theorem readAll_append (kinds further : List Kind) (r : Reader) :
    readAll (kinds ++ further) r = (readAll kinds r).andThen (readAll further) := by
  induction kinds generalizing r with
  | nil =>
    rcases h : readAll further r with ⟨error | values, last⟩ <;>
      simp only [List.nil_append, readAll, Reading.andThen, h]
  | cons kind kinds ih =>
    rcases hread : kind.read r with ⟨error | value, mid⟩
    · -- the first kind fails
      simp only [List.cons_append, readAll, hread, Reading.andThen]
    · simp only [List.cons_append, readAll, hread, ih mid]
      rcases hall : readAll kinds mid with ⟨error | values, next⟩
      · -- a later kind of the first list fails
        simp only [Reading.andThen]
      · -- the first list is read, and the further one decides
        rcases hfurther : readAll further next with ⟨error | others, last⟩ <;>
          simp only [Reading.andThen, hfurther, List.cons_append]

/-- Lists that are read one after the other are read as one. -/
theorem readAll_append_eq_ok_iff {kinds further : List Kind} {values : List Value} :
    readAll (kinds ++ further) r = ⟨.ok values, next⟩ ↔
      ∃ front back mid, readAll kinds r = ⟨.ok front, mid⟩ ∧
        readAll further mid = ⟨.ok back, next⟩ ∧ values = front ++ back := by
  rw [readAll_append]
  constructor
  · intro h
    unfold Reading.andThen at h
    split at h
    · cases h
    · next front mid hkinds =>
      split at h
      · cases h
      · next back last hfurther =>
        cases h
        exact ⟨front, back, mid, hkinds, hfurther, rfl⟩
  · rintro ⟨front, back, mid, hkinds, hfurther, rfl⟩
    simp only [hkinds, Reading.andThen, hfurther]

/-- Behind a greedy kind nothing is left to read. -/
theorem eq_nil_of_greedy {front back : List Kind} {values : List Value}
    (h : readAll (front ++ .greedy :: back) r = ⟨.ok values, next⟩) : back = [] := by
  obtain ⟨_, _, mid, -, hgreedy, -⟩ := readAll_append_eq_ok_iff.mp h
  obtain ⟨_, _, last, hread, hback, -⟩ := readAll_cons_eq_ok_iff.mp hgreedy
  have hlength := length_add_le_of_readAll hback
  rw [rest_of_read_greedy hread, List.length_nil] at hlength
  exact List.length_eq_zero_iff.mp (by omega)

/-- So a greedy kind is the last one. -/
theorem getLast?_of_greedy_mem {kinds : List Kind} {values : List Value}
    (h : readAll kinds r = ⟨.ok values, next⟩) (hmem : .greedy ∈ kinds) :
    kinds.getLast? = some .greedy := by
  obtain ⟨front, back, rfl⟩ := List.append_of_mem hmem
  rw [eq_nil_of_greedy h, List.getLast?_concat]

/-- Where nothing can be the answer there is an error. -/
theorem exists_error_of_not_ok {kinds : List Kind}
    (h : ∀ values next, readAll kinds r ≠ ⟨.ok values, next⟩) :
    ∃ error next, readAll kinds r = ⟨.error error, next⟩ := by
  rcases hread : readAll kinds r with ⟨error | values, next⟩
  · exact ⟨error, next, rfl⟩
  · exact absurd hread (h values next)

/-- The kind that fails settles how the reading of the list ends, whatever stands behind it. -/
theorem failing_of_readAll_error {kinds : List Kind} {error : CommandError}
    (h : readAll kinds r = ⟨.error error, next⟩) :
    ∃ front kind back values mid, kinds = front ++ kind :: back ∧
      readAll front r = ⟨.ok values, mid⟩ ∧ kind.read mid = ⟨.error error, next⟩ ∧
      (kind ≠ .messy → next = mid) ∧
      ∀ others, readAll (front ++ kind :: others) r = ⟨.error error, next⟩ := by
  obtain ⟨front, kind, back, values, mid, hkinds, hfront, hread⟩ := readAll_eq_error_iff.mp h
  exact ⟨front, kind, back, values, mid, hkinds, hfront, hread,
    fun hkind => ((contract_read hkind).failed hread).1,
    fun others => readAll_eq_error_iff.mpr
      ⟨front, kind, others, values, mid, rfl, hfront, hread⟩⟩

/-- **Arguments are read from left to right.**  A list of kinds and a further one are read as one list by
reading the first and then, from where it leaves the reader, the second; a list of one kind is read as that
kind is.  A list that is read makes one value of each kind, in order.  A list that cannot be read fails at
one of its kinds, those in front of it being read: the error is that kind's, the reader is left where the
kind leaves it, which is where the error says, and whatever stands behind the kind makes no difference; only
the messy kind leaves the reader anywhere but where it began.  A greedy kind in front of another and a text
with fewer characters than the list has kinds make every reading fail. -/
theorem arguments_decode_in_order (kinds : List Kind) (r : Reader) :
    (∀ further, readAll (kinds ++ further) r = (readAll kinds r).andThen (readAll further)) ∧
    (∀ (kind : Kind) value next,
      readAll [kind] r = ⟨.ok [value], next⟩ ↔ kind.read r = ⟨.ok value, next⟩) ∧
    (∀ values next, readAll kinds r = ⟨.ok values, next⟩ →
      List.Forall₂ Makes kinds values ∧ values.length = kinds.length) ∧
    (∀ error next, readAll kinds r = ⟨.error error, next⟩ →
      error.cursor? = some next.cursor ∧
      ∃ front kind back values mid, kinds = front ++ kind :: back ∧
        readAll front r = ⟨.ok values, mid⟩ ∧ kind.read mid = ⟨.error error, next⟩ ∧
        (kind ≠ .messy → next = mid) ∧
        ∀ others, readAll (front ++ kind :: others) r = ⟨.error error, next⟩) ∧
    (∀ front back, kinds = front ++ .greedy :: back → back ≠ [] →
      ∃ error next, readAll kinds r = ⟨.error error, next⟩) ∧
    (r.rest.length < kinds.length → ∃ error next, readAll kinds r = ⟨.error error, next⟩) := by
  refine ⟨fun further => readAll_append kinds further r,
    fun kind value next => readAll_singleton_eq_ok_iff, ?_, ?_, ?_, ?_⟩
  · intro values next h
    have hmakes := makes_of_readAll h
    exact ⟨hmakes, hmakes.length_eq.symm⟩
  · intro error next h
    exact ⟨cursor?_of_readAll_error h, failing_of_readAll_error h⟩
  · rintro front back rfl hback
    exact exists_error_of_not_ok fun values next h => hback (eq_nil_of_greedy h)
  · intro hshort
    refine exists_error_of_not_ok fun values next h => ?_
    have hlength := length_add_le_of_readAll h
    omega

end Kind

end TextCommand

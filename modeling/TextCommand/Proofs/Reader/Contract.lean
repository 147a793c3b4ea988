import TextCommand.Proofs.Argument.Token
import TextCommand.Proofs.Reader.Position

/-!
# What every read promises

A read that fails leaves the reader where it was and reports that position.  A read that succeeds stays
in the text, goes on by at least one character, and stops in front of no blank.  `Contract` says so of
one read; it holds of every way to take a token, of the scalars and of all kinds of arguments but one.
-/

namespace TextCommand

/-- A read goes back where it fails, and goes on where it succeeds; `position?` is where an error says
that it happened. -/
structure Contract {ε α : Type} (position? : ε → Option Nat) (read : Reader → Reading ε α) :
    Prop where
  failed : ∀ {r next : Reader} {e : ε}, read r = ⟨.error e, next⟩ →
    next = r ∧ position? e = some r.cursor
  succeeded : ∀ {r next : Reader} {a : α}, read r = ⟨.ok a, next⟩ →
    r.Passes next ∧ r.cursor < next.cursor

/-- Whether it fails or not, a read stays in the text. -/
theorem Contract.chars {ε α : Type} {position? : ε → Option Nat} {read : Reader → Reading ε α}
    (h : Contract position? read) (r : Reader) : (read r).reader.chars = r.chars := by
  rcases hread : read r with ⟨e | a, next⟩
  · rw [(h.failed hread).1]
  · exact (h.succeeded hread).1.chars

/-- The position that a failed read reports. -/
def ReadError.position? (e : ReadError) : Option Nat := some e.cursor

/-- The characters of a word, one by one. -/
def IsWordChar (c : Char) : Prop :=
  ('0' ≤ c ∧ c ≤ '9') ∨ ('A' ≤ c ∧ c ≤ 'Z') ∨ ('a' ≤ c ∧ c ≤ 'z') ∨
    c = '_' ∨ c = '.' ∨ c = '+' ∨ c = '-'

theorem isBare_iff {c : Char} : isBare c = true ↔ IsWordChar c := by
  simp only [isBare, isAlphanum_eq, IsWordChar, Char.le_def, Bool.or_eq_true, Bool.and_eq_true,
    decide_eq_true_eq, beq_iff_eq]
  grind

namespace Reader

variable {r next : Reader}

/-! ### Going on -/

theorem skip_advance (r : Reader) (n : Nat) : r.skip.advance n = r.advance (n + 1) := by
  rw [Nat.add_comm]
  simp only [skip, advance, List.take_add, List.drop_drop, List.append_assoc]

theorem cursor_le_advance (n : Nat) (r : Reader) : r.cursor ≤ (r.advance n).cursor := by
  rw [cursor, cursor, advance, byteLength_append]
  exact Nat.le_add_right _ _

theorem cursor_le_skipBlank (r : Reader) : r.cursor ≤ r.skipBlank.cursor := cursor_le_advance _ r

theorem cursor_lt_advance {n : Nat} (hn : 0 < n) (hr : r.rest ≠ []) :
    r.cursor < (r.advance n).cursor := by
  obtain ⟨c, cs, hrest⟩ := List.exists_cons_of_ne_nil hr
  obtain ⟨m, rfl⟩ := Nat.exists_eq_add_one.mpr hn
  have hpos := c.utf8Size_pos
  rw [cursor, cursor, advance, hrest, List.take_succ_cons, byteLength_append, byteLength_cons]
  omega

/-- An unescaped stop is at least one character ahead. -/
theorem pos_of_unescapeUntil {stop : Char} {cs text : List Char} {n : Nat}
    (h : unescapeUntil stop cs = .ok (text, n)) : 0 < n ∧ cs ≠ [] := by
  have hmap : ∀ (c : Char) (k : Nat) (rest : Except ReadFault (List Char × Nat)),
      (rest.map fun found => (c :: found.1, found.2 + (k + 1))) = .ok (text, n) → 0 < n := by
    intro c k rest hrest
    cases rest with
    | error fault => cases hrest
    | ok found =>
      cases hrest
      exact Nat.succ_pos _
  unfold unescapeUntil at h
  split at h
  · cases h
  · cases h
  · -- a character behind a backslash
    exact ⟨hmap _ 1 _ h, List.cons_ne_nil _ _⟩
  · split at h
    · -- the stop itself
      cases h
      exact ⟨Nat.one_pos, List.cons_ne_nil _ _⟩
    · -- any other character
      exact ⟨hmap _ 0 _ h, List.cons_ne_nil _ _⟩

/-! ### Tokens -/

theorem readWord_eq (r : Reader) :
    r.readWord =
      if r.rest.takeWhile isBare = [] then r.fail .expectedString
      else ⟨.ok (String.ofList (r.rest.takeWhile isBare)),
        (r.advance (r.rest.takeWhile isBare).length).skipBlank⟩ := by
  unfold readWord
  split
  · next hword => rw [if_pos hword]
  · next hword => rw [if_neg hword]

/-- What comes next is a run of word characters and then something else: the run is the word, and if there
is none the read fails. -/
theorem readWord_maximal (r : Reader) :
    ∃ word rest, r.rest = word ++ rest ∧ (∀ c ∈ word, IsWordChar c) ∧
      (∀ c ∈ rest.head?, ¬ IsWordChar c) ∧
      (word = [] → r.readWord = r.fail .expectedString) ∧
      (word ≠ [] →
        r.readWord = ⟨.ok (String.ofList word), (Reader.mk (r.passed ++ word) rest).skipBlank⟩) := by
  refine ⟨r.rest.takeWhile isBare, r.rest.dropWhile isBare,
    List.takeWhile_append_dropWhile.symm, ?_, ?_, ?_, ?_⟩
  · intro c hc
    exact isBare_iff.mp (List.all_eq_true.mp List.all_takeWhile c hc)
  · intro c hc hword
    have hnot := List.head?_dropWhile_not isBare r.rest
    rw [Option.mem_def.mp hc] at hnot
    exact absurd (isBare_iff.mpr hword) (Bool.eq_false_iff.mp hnot)
  · intro hword
    rw [readWord_eq, if_pos hword]
  · intro hword
    rw [readWord_eq, if_neg hword, advance, take_length_takeWhile, drop_length_takeWhile]

theorem contract_readWord : Contract ReadError.position? readWord where
  failed h := by
    refine ⟨eq_of_readWord_error h, ?_⟩
    rw [readWord_eq] at h
    split at h
    · cases h
      rfl
    · cases h
  succeeded {r next word} h := by
    refine ⟨passes_of_readWord h, ?_⟩
    rw [readWord_eq] at h
    split at h
    · cases h
    · next hword =>
      cases h
      have hrest : r.rest ≠ [] := by
        rintro hrest
        simp [hrest] at hword
      exact Nat.lt_of_lt_of_le (cursor_lt_advance (List.length_pos_iff.mpr hword) hrest)
        (cursor_le_skipBlank _)

theorem contract_readUntil (stop : Char) : Contract ReadError.position? (readUntil stop) where
  failed h := by
    unfold readUntil at h
    split at h <;> cases h <;> exact ⟨rfl, rfl⟩
  succeeded h := by
    refine ⟨passes_of_readUntil h, ?_⟩
    unfold readUntil at h
    split at h
    · cases h
    · cases h
    · next text n _ hread =>
      cases h
      obtain ⟨hpos, hrest⟩ := pos_of_unescapeUntil hread
      exact Nat.lt_of_lt_of_le (cursor_lt_advance hpos hrest) (cursor_le_skipBlank _)

theorem contract_readQuoted : Contract ReadError.position? readQuoted where
  failed h := by
    refine ⟨eq_of_readQuoted_error h, ?_⟩
    unfold readQuoted at h
    split at h
    · -- the text is at its end
      cases h
      rfl
    · split at h
      · split at h
        · cases h
        · -- a quote, and the read behind it fails
          cases h
          rfl
      · -- no quote
        cases h
        rfl
  succeeded {r next word} h := by
    refine ⟨passes_of_readQuoted h, ?_⟩
    unfold readQuoted at h
    split at h
    · cases h
    · split at h
      · split at h
        · next htext =>
          cases h
          -- the opening quote has been passed when the text is read
          exact Nat.lt_of_le_of_lt (cursor_le_advance 1 r)
            ((contract_readUntil _).succeeded htext).2
        · cases h
      · cases h

theorem contract_readString : Contract ReadError.position? readString where
  failed h := by
    unfold readString at h
    split at h
    · exact contract_readQuoted.failed h
    · exact contract_readWord.failed h
  succeeded h := by
    unfold readString at h
    split at h
    · exact contract_readQuoted.succeeded h
    · exact contract_readWord.succeeded h

/-! ### Scalars -/

section Scalars

variable {α : Type} {scalar : Scalar} {decode : String → Option α}

/-- A scalar that is accepted leaves the reader where its word does. -/
theorem exists_readWord_of_readScalar {a : α} (h : r.readScalar scalar decode = ⟨.ok a, next⟩) :
    ∃ word, r.readWord = ⟨.ok word, next⟩ := by
  obtain ⟨word, hword, -⟩ := readScalar_eq_ok_iff.mp h
  exact ⟨word, hword⟩

theorem contract_readScalar (scalar : Scalar) (decode : String → Option α) :
    Contract ReadError.position? (readScalar scalar decode) where
  failed h := by
    refine ⟨eq_of_readScalar_error h, ?_⟩
    unfold readScalar at h
    split at h
    · cases h
      rfl
    · split at h
      · cases h
      · cases h
        rfl
  succeeded h := by
    obtain ⟨word, hword, -⟩ := readScalar_eq_ok_iff.mp h
    exact contract_readWord.succeeded hword

end Scalars

end Reader

/-! ### Arguments -/

namespace Kind

open Reader

theorem contract_readGreedy : Contract ReadError.position? readGreedy where
  failed h := by
    unfold readGreedy at h
    split at h
    · cases h
    · cases h
      exact ⟨rfl, rfl⟩
  succeeded {r next text} h := by
    refine ⟨passes_of_readGreedy h, ?_⟩
    unfold readGreedy at h
    split at h
    · next hread =>
      cases h
      have hrest : r.rest ≠ [] := by simpa [canRead] using hread
      have hall := cursor_lt_advance (List.length_pos_iff.mpr hrest) hrest
      rwa [advance, List.take_length] at hall
    · cases h

/-- An error of a read of plain text keeps its position when it becomes an error of a command. -/
theorem contract_toValue {α : Type} {wrap : α → Value} {read : Reader → Reading ReadError α}
    (h : Contract ReadError.position? read) :
    Contract CommandError.cursor? fun r => (read r).toValue wrap where
  failed {r next error} hread := by
    unfold Reading.toValue at hread
    split at hread
    · cases hread
    · next hfailed =>
      cases hread
      exact h.failed hfailed
  succeeded hread := by
    obtain ⟨a, ha, -⟩ := toValue_eq_ok_iff.mp hread
    exact h.succeeded ha

theorem contract_readMode : Contract CommandError.cursor? readMode where
  failed h := by
    refine ⟨eq_of_readMode_error h, ?_⟩
    unfold readMode at h
    split at h
    · next hword =>
      cases h
      exact (contract_readWord.failed hword).2
    · split at h
      · cases h
      · cases h
        rfl
  succeeded h := by
    obtain ⟨word, hword, -⟩ := readMode_eq_ok_iff.mp h
    exact contract_readWord.succeeded hword

/-- Every kind keeps the contract, but for the messy one, which does not go back. -/
theorem contract_read {kind : Kind} (hkind : kind ≠ .messy) :
    Contract CommandError.cursor? kind.read := by
  cases kind with
  | bool | int | long | float | double => exact contract_toValue (contract_readScalar _ _)
  | string => exact contract_toValue contract_readString
  | greedy => exact contract_toValue contract_readGreedy
  | mode => exact contract_readMode
  | messy => exact absurd rfl hkind

/-- Even the messy kind reports the position at which it leaves the reader. -/
theorem cursor?_of_read_error {kind : Kind} {r next : Reader} {error : CommandError}
    (h : kind.read r = ⟨.error error, next⟩) : error.cursor? = some next.cursor := by
  by_cases hkind : kind = .messy
  · -- a messy word that is refused has been passed
    subst hkind
    simp only [read, readMessy] at h
    split at h
    · next hword =>
      cases h
      obtain ⟨rfl, hcursor⟩ := contract_readWord.failed hword
      exact hcursor
    · split at h
      · cases h
        rfl
      · cases h
  · -- every other kind goes back
    obtain ⟨rfl, hcursor⟩ := (contract_read hkind).failed h
    exact hcursor

theorem cursor?_of_readAll_error {kinds : List Kind} {r next : Reader} {error : CommandError}
    (h : readAll kinds r = ⟨.error error, next⟩) : error.cursor? = some next.cursor := by
  induction kinds generalizing r with
  | nil => cases h
  | cons kind kinds ih =>
    unfold readAll at h
    split at h
    · next hread =>
      cases h
      exact cursor?_of_read_error hread
    · split at h
      · next hall =>
        cases h
        exact ih hall
      · cases h

end Kind

/-- **The reads keep one contract.**  Each of them, if it fails, leaves the reader where it was and reports
exactly that position; if it succeeds, it has gone on in the same text and stands in front of no blank.
A word is the longest run of word characters, and only where there is none does reading one fail; truth
values and numbers, when they are accepted, leave the reader where reading a word would. -/
theorem reads_keep_contract :
    (Contract ReadError.position? Reader.readWord ∧
      Contract ReadError.position? Reader.readQuoted ∧
      Contract ReadError.position? Reader.readString ∧
      (∀ stop, Contract ReadError.position? (Reader.readUntil stop)) ∧
      Contract ReadError.position? Reader.readBool ∧
      Contract ReadError.position? Reader.readInt ∧
      Contract ReadError.position? Reader.readLong ∧
      Contract ReadError.position? Reader.readFloat ∧
      Contract ReadError.position? Reader.readDouble ∧
      ∀ kind : Kind, kind ≠ .messy → Contract CommandError.cursor? kind.read) ∧
    (∀ r : Reader, ∃ word rest, r.rest = word ++ rest ∧ (∀ c ∈ word, IsWordChar c) ∧
      (∀ c ∈ rest.head?, ¬ IsWordChar c) ∧
      (word = [] → r.readWord = r.fail .expectedString) ∧
      (word ≠ [] →
        r.readWord = ⟨.ok (String.ofList word), (Reader.mk (r.passed ++ word) rest).skipBlank⟩)) ∧
    (∀ r next : Reader,
      (∀ b, r.readBool = ⟨.ok b, next⟩ → ∃ word, r.readWord = ⟨.ok word, next⟩) ∧
      (∀ n, r.readInt = ⟨.ok n, next⟩ → ∃ word, r.readWord = ⟨.ok word, next⟩) ∧
      (∀ n, r.readLong = ⟨.ok n, next⟩ → ∃ word, r.readWord = ⟨.ok word, next⟩) ∧
      (∀ x, r.readFloat = ⟨.ok x, next⟩ → ∃ word, r.readWord = ⟨.ok word, next⟩) ∧
      (∀ x, r.readDouble = ⟨.ok x, next⟩ → ∃ word, r.readWord = ⟨.ok word, next⟩)) := by
  open Reader in
  refine ⟨⟨contract_readWord, contract_readQuoted, contract_readString, contract_readUntil,
    contract_readScalar _ _, contract_readScalar _ _, contract_readScalar _ _,
    contract_readScalar _ _, contract_readScalar _ _, fun kind => Kind.contract_read⟩,
    readWord_maximal, fun r next => ⟨?_, ?_, ?_, ?_, ?_⟩⟩
  all_goals exact fun a => exists_readWord_of_readScalar

end TextCommand

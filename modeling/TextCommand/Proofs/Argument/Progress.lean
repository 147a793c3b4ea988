import TextCommand.Proofs.Reader.Contract

/-!
# How far reading gets

A reader goes on in its text: whether a read succeeds or not, it leaves the reader in the same text and not
before the place where it began.  A list of arguments that cannot be read fails at one of them, where those
in front have left the reader.
-/

namespace TextCommand

namespace Reader

/-- `next` stands in the text of `r`, and not before it. -/
structure GoesOn (r next : Reader) : Prop where
  chars : next.chars = r.chars
  le : r.cursor ≤ next.cursor

theorem GoesOn.refl (r : Reader) : r.GoesOn r := ⟨rfl, Nat.le_refl _⟩

theorem GoesOn.trans {r s t : Reader} (h : r.GoesOn s) (h' : s.GoesOn t) : r.GoesOn t :=
  ⟨h'.chars.trans h.chars, Nat.le_trans h.le h'.le⟩

theorem goesOn_skipBlank (r : Reader) : r.GoesOn r.skipBlank :=
  ⟨r.chars_skipBlank, r.cursor_le_skipBlank⟩

end Reader

/-- A read that keeps the contract goes on, or stays where it is. -/
theorem Contract.goesOn {ε α : Type} {position? : ε → Option Nat} {read : Reader → Reading ε α}
    (h : Contract position? read) (r : Reader) : r.GoesOn (read r).reader := by
  rcases hread : read r with ⟨e | a, next⟩
  · rw [(h.failed hread).1]
    exact .refl r
  · obtain ⟨hpasses, hlt⟩ := h.succeeded hread
    exact ⟨hpasses.chars, Nat.le_of_lt hlt⟩

namespace Kind

variable {r next : Reader}

theorem goesOn_read (kind : Kind) (r : Reader) : r.GoesOn (kind.read r).reader := by
  by_cases hkind : kind = .messy
  · subst hkind
    -- the messy kind stays behind its word even if it refuses it
    have hword := Reader.contract_readWord.goesOn r
    simp only [read, readMessy]
    rcases hread : r.readWord with ⟨e | word, next⟩
    · rw [hread] at hword
      exact hword
    · rw [hread] at hword
      dsimp only
      split <;> exact hword
  · exact (contract_read hkind).goesOn r

theorem goesOn_readAll (kinds : List Kind) (r : Reader) : r.GoesOn (readAll kinds r).reader := by
  induction kinds generalizing r with
  | nil => exact .refl r
  | cons kind kinds ih =>
    have hfirst := goesOn_read kind r
    rcases hread : kind.read r with ⟨error | value, next⟩
    · rw [hread] at hfirst
      simp only [readAll, hread]
      exact hfirst
    · rw [hread] at hfirst
      have hrest := hfirst.trans (ih next)
      rcases hall : readAll kinds next with ⟨error | values, last⟩ <;>
        simp only [readAll, hread, hall] <;> rwa [hall] at hrest

/-- Arguments that cannot be read fail at one of them, where those in front of it leave the reader. -/
theorem readAll_eq_error_iff {kinds : List Kind} {error : CommandError} :
    readAll kinds r = ⟨.error error, next⟩ ↔
      ∃ front kind back values mid, kinds = front ++ kind :: back ∧
        readAll front r = ⟨.ok values, mid⟩ ∧ kind.read mid = ⟨.error error, next⟩ := by
  constructor
  · intro h
    induction kinds generalizing r with
    | nil => cases h
    | cons kind kinds ih =>
      unfold readAll at h
      split at h
      · next hread =>
        -- the first kind fails
        cases h
        exact ⟨[], kind, kinds, [], r, rfl, rfl, hread⟩
      · next value mid hread =>
        split at h
        · next hall =>
          -- a later kind fails, with the first one in front of it
          cases h
          obtain ⟨front, failing, back, values, last, rfl, hfront, hfailing⟩ := ih hall
          exact ⟨kind :: front, failing, back, value :: values, last, rfl,
            readAll_cons_eq_ok_iff.mpr ⟨value, values, mid, hread, hfront, rfl⟩, hfailing⟩
        · cases h
  · rintro ⟨front, kind, back, values, mid, rfl, hfront, hread⟩
    induction front generalizing r values with
    | nil =>
      cases hfront
      simp only [List.nil_append, readAll, hread]
    | cons first front ih =>
      obtain ⟨value, rest, left, hfirst, hrest, -⟩ := readAll_cons_eq_ok_iff.mp hfront
      simp only [List.cons_append, readAll, hfirst, ih rest hrest]

end Kind

end TextCommand

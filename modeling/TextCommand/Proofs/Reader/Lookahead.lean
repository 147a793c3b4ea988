import Mathlib.Logic.Function.Iterate
import TextCommand.Proofs.Reader.Offset
import TextCommand.Proofs.Text.Blank

/-!
# Looking ahead and stepping

To look at the character `n` places ahead is to look at the next one after `n` skips.  A skip goes on by the
bytes of one character, lookahead counts characters; so both are told of the characters that are left, and
the counts of the machine, of which the largest has no successor, are no exception.
-/

namespace TextCommand

/-! ### Lookahead on byte offsets -/

namespace OffsetReader

/-- The character that comes `n` places behind the next one, if any. -/
def nth? (n : UInt64) (b : OffsetReader) : Option (Option Char) :=
  b.remaining?.map (·.toList[n.toNat]?)

def canRead (b : OffsetReader) : Bool := b.offset < b.text.utf8ByteSize

/-- At least `n` characters are left. -/
def canReadMany? (n : UInt64) (b : OffsetReader) : Option Bool :=
  if n = 0 then some true else (b.nth? (n - 1)).map Option.isSome

def peekAt? (n : UInt64) (b : OffsetReader) : Option (Except ReadError Char) :=
  (b.nth? n).map fun
    | some c => .ok c
    | none => .error ⟨.peekBeyondEnd n.toNat, b.offset⟩

/-- That many skips, one after the other. -/
def skipMany? : Nat → OffsetReader → Option OffsetReader
  | 0, b => some b
  | n + 1, b => b.skip?.bind (skipMany? n)

end OffsetReader

/-! ### The characters that are left -/

namespace Reader

variable (r : Reader)

theorem iterate_skip (n : Nat) : skip^[n] r = r.advance n := by
  induction n generalizing r with
  | zero => simp [advance]
  | succ n ih => rw [Function.iterate_succ_apply, ih, skip_advance]

theorem peek_iterate_skip (n : Nat) : (skip^[n] r).peek = r.rest[n]? := by
  rw [iterate_skip, peek, advance, List.head?_drop]

theorem chars_iterate_skip (n : Nat) : (skip^[n] r).chars = r.chars := by
  rw [iterate_skip, chars_advance]

theorem cursor_iterate_skip (n : Nat) :
    (skip^[n] r).cursor = r.cursor + byteLength (r.rest.take n) := by
  rw [iterate_skip, cursor, advance, byteLength_append, cursor]

variable {r}

theorem peekAt_eq_ok_iff {n : Nat} {c : Char} : r.peekAt n = .ok c ↔ r.rest[n]? = some c := by
  unfold peekAt
  cases r.rest[n]? with
  | none => simp
  | some d => simp

theorem peekAt_eq_error {n : Nat} (h : r.rest.length ≤ n) :
    r.peekAt n = .error ⟨.peekBeyondEnd n, r.cursor⟩ := by
  rw [peekAt, List.getElem?_eq_none h]

theorem exists_peekAt_iff {n : Nat} : (∃ c, r.peekAt n = .ok c) ↔ n < r.rest.length := by
  simp only [peekAt_eq_ok_iff, ← Option.isSome_iff_exists, isSome_getElem?]

theorem canReadMany_iff {n : Nat} : r.canReadMany n = true ↔ n ≤ r.rest.length := by
  rw [canReadMany, decide_eq_true_eq]

variable (r)

theorem canRead_eq : r.canRead = r.canReadMany 1 := by
  rw [Bool.eq_iff_iff, canReadMany_iff, canRead, Bool.not_eq_true', List.isEmpty_eq_false_iff]
  exact List.length_pos_iff.symm

/-- Blanks are passed up to the first character that is none. -/
theorem skipBlank_maximal :
    ∃ blanks rest, r.rest = blanks ++ rest ∧ (∀ c ∈ blanks, IsWhiteSpace c) ∧
      (∀ c ∈ rest.head?, ¬ IsWhiteSpace c) ∧ r.skipBlank = ⟨r.passed ++ blanks, rest⟩ := by
  refine ⟨r.rest.takeWhile Text.isBlank, r.skipBlank.rest, ?_, ?_, ?_, ?_⟩
  · rw [rest_skipBlank, List.takeWhile_append_dropWhile]
  · intro c hc
    exact isBlank_iff.mp (List.all_eq_true.mp List.all_takeWhile c hc)
  · intro c hc hspace
    exact absurd (isBlank_iff.mpr hspace) (Bool.eq_false_iff.mp (r.settled_skipBlank c hc))
  · rw [← passed_skipBlank]

end Reader

/-! ### The same answers -/

namespace OffsetReader

open Reader

variable (r : Reader)

theorem canRead_toOffset : r.toOffset.canRead = r.canRead := by
  rw [Bool.eq_iff_iff, ← offset_lt_toOffset_iff r, canRead, decide_eq_true_eq]

theorem nth?_toOffset (n : UInt64) : r.toOffset.nth? n = some r.rest[n.toNat]? := by
  rw [nth?, remaining?_toOffset, Option.map_some, String.toList_ofList]

theorem peekAt?_toOffset (n : UInt64) : r.toOffset.peekAt? n = some (r.peekAt n.toNat) := by
  rw [peekAt?, nth?_toOffset, Option.map_some, peekAt]
  cases r.rest[n.toNat]? <;> rfl

/-- Where a count is not zero its predecessor is not the largest count. -/
theorem canReadMany?_toOffset (n : UInt64) :
    r.toOffset.canReadMany? n = some (r.canReadMany n.toNat) := by
  rw [canReadMany?]
  split
  · next hn =>
    subst hn
    rfl
  · next hn =>
    have hpos : 0 < n.toNat := Nat.pos_of_ne_zero fun h => hn (UInt64.toNat_inj.mp h)
    have hpred : (n - 1).toNat = n.toNat - 1 := UInt64.toNat_sub_of_le n 1 hpos
    rw [nth?_toOffset, Option.map_some, hpred, Option.some_inj, Bool.eq_iff_iff,
      isSome_getElem?, canReadMany_iff]
    omega

theorem skipMany?_toOffset (n : Nat) : r.toOffset.skipMany? n = some (skip^[n] r).toOffset := by
  induction n generalizing r with
  | zero => rfl
  | succ n ih =>
    rw [skipMany?, skip?_toOffset, Option.bind_some, ih, Function.iterate_succ_apply]

end OffsetReader

/-- **Lookahead agrees with stepping.**  The character `n` places ahead can be looked at if and only if more
than `n` characters are left, and is the one that comes next after `n` skips; otherwise the error tells the
count and the position.  There are at least `n` characters if `n` is at most their number, so the last of
them can be looked at.  Skips stay in the text and go on by the bytes of as many characters as there are,
and blanks are passed up to the first character that is none.  On byte offsets and machine counts every
answer is the same. -/
theorem lookahead_agrees_with_stepping (r : Reader) :
    (∀ n : Nat,
      ((∃ c, r.peekAt n = .ok c) ↔ n < r.rest.length) ∧
      (∀ c, r.peekAt n = .ok c ↔ (Reader.skip^[n] r).peek = some c) ∧
      (r.rest.length ≤ n → r.peekAt n = .error ⟨.peekBeyondEnd n, r.cursor⟩) ∧
      (r.canReadMany n = true ↔ n ≤ r.rest.length) ∧
      (1 ≤ n → (r.canReadMany n = true ↔ ∃ c, r.peekAt (n - 1) = .ok c)) ∧
      (Reader.skip^[n] r).chars = r.chars ∧
      (Reader.skip^[n] r).cursor = r.cursor + byteLength (r.rest.take (min n r.rest.length))) ∧
    r.canRead = r.canReadMany 1 ∧
    (∃ blanks rest, r.rest = blanks ++ rest ∧ (∀ c ∈ blanks, IsWhiteSpace c) ∧
      (∀ c ∈ rest.head?, ¬ IsWhiteSpace c) ∧ r.skipBlank = ⟨r.passed ++ blanks, rest⟩) ∧
    (∀ n : UInt64,
      r.toOffset.peekAt? n = some (r.peekAt n.toNat) ∧
      r.toOffset.canReadMany? n = some (r.canReadMany n.toNat) ∧
      r.toOffset.skipMany? n.toNat = some (Reader.skip^[n.toNat] r).toOffset) ∧
    r.toOffset.peek? = some r.peek ∧
    r.toOffset.canRead = r.canRead ∧
    r.toOffset.skipWhile? Text.isBlank = some r.skipBlank.toOffset := by
  open Reader OffsetReader in
  refine ⟨fun n => ⟨exists_peekAt_iff, ?_, peekAt_eq_error, canReadMany_iff, ?_,
    chars_iterate_skip r n, ?_⟩, canRead_eq r, skipBlank_maximal r,
    fun n => ⟨peekAt?_toOffset r n, canReadMany?_toOffset r n, skipMany?_toOffset r n.toNat⟩,
    peek?_toOffset r, canRead_toOffset r, skipWhile?_toOffset r Text.isBlank⟩
  · intro c
    rw [peekAt_eq_ok_iff, peek_iterate_skip]
  · intro hn
    rw [canReadMany_iff, exists_peekAt_iff]
    omega
  · rw [cursor_iterate_skip, List.take_eq_take_min]

end TextCommand

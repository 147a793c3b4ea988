import Mathlib.Data.List.TakeWhile
import TextCommand.Text.Blank

/-!
# White space at the ends of a text

The blanks are the characters with Unicode's property `White_Space`.  Trimming takes them off both
ends of a text and takes nothing else; there is one way only to do that.
-/

namespace TextCommand

/-- The characters with Unicode's property `White_Space`, one by one. -/
def IsWhiteSpace (c : Char) : Prop :=
  c.toNat ∈ [0x09, 0x0A, 0x0B, 0x0C, 0x0D, 0x20, 0x85, 0xA0, 0x1680, 0x2000, 0x2001, 0x2002, 0x2003,
    0x2004, 0x2005, 0x2006, 0x2007, 0x2008, 0x2009, 0x200A, 0x2028, 0x2029, 0x202F, 0x205F, 0x3000]

theorem isBlank_iff {c : Char} : Text.isBlank c = true ↔ IsWhiteSpace c := by
  simp only [Text.isBlank, Text.blankRanges, IsWhiteSpace, List.any_cons, List.any_nil,
    Bool.or_eq_true, Bool.and_eq_true, decide_eq_true_eq, List.mem_cons, List.not_mem_nil,
    Bool.false_eq_true, or_false]
  omega

/-- A text is a word between white space; the word neither starts nor ends with any. -/
structure TrimsTo (text word : List Char) : Prop where
  split : ∃ front back, text = front ++ (word ++ back) ∧
    (∀ c ∈ front, IsWhiteSpace c) ∧ ∀ c ∈ back, IsWhiteSpace c
  starts : ∀ c ∈ word.head?, ¬ IsWhiteSpace c
  ends : ∀ c ∈ word.getLast?, ¬ IsWhiteSpace c

namespace Text

theorem dropWhile_isBlank_append {front : List Char} (h : ∀ c ∈ front, IsWhiteSpace c)
    (rest : List Char) : (front ++ rest).dropWhile isBlank = rest.dropWhile isBlank :=
  List.dropWhile_append_of_pos fun c hc => isBlank_iff.mpr (h c hc)

theorem dropWhile_isBlank_of_head? {cs : List Char} (h : ∀ c ∈ cs.head?, ¬ IsWhiteSpace c) :
    cs.dropWhile isBlank = cs := by
  cases cs with
  | nil => rfl
  | cons c cs => exact List.dropWhile_cons_of_neg fun hc => h c rfl (isBlank_iff.mp hc)

theorem isWhiteSpace_of_mem_takeWhile {cs : List Char} {c : Char}
    (h : c ∈ cs.takeWhile isBlank) : IsWhiteSpace c :=
  isBlank_iff.mp (List.mem_takeWhile_imp h)

theorem not_isWhiteSpace_of_head?_dropWhile {cs : List Char} {c : Char}
    (h : c ∈ (cs.dropWhile isBlank).head?) : ¬ IsWhiteSpace c := by
  have hnot := List.head?_dropWhile_not isBlank cs
  rw [Option.mem_def.mp h] at hnot
  exact fun hc => Bool.eq_false_iff.mp hnot (isBlank_iff.mpr hc)

/-- What is left at the front of a text can only be shortened at the end. -/
theorem trimsTo_trimChars (text : List Char) : TrimsTo text (trimChars text) := by
  let rest := text.dropWhile isBlank
  have hrest : rest = trimChars text ++ (rest.reverse.takeWhile isBlank).reverse := by
    rw [trimChars, ← List.reverse_append, List.takeWhile_append_dropWhile, List.reverse_reverse]
  refine ⟨⟨text.takeWhile isBlank, (rest.reverse.takeWhile isBlank).reverse, ?_, ?_, ?_⟩, ?_, ?_⟩
  · rw [← hrest, List.takeWhile_append_dropWhile]
  · exact fun c hc => isWhiteSpace_of_mem_takeWhile hc
  · exact fun c hc => isWhiteSpace_of_mem_takeWhile (List.mem_reverse.mp hc)
  · -- a character that is left at the start stood there before the end was shortened
    intro c hc
    have hhead : c ∈ rest.head? := by
      rw [hrest, List.head?_append, Option.mem_def.mp hc]
      rfl
    exact not_isWhiteSpace_of_head?_dropWhile hhead
  · intro c hc
    rw [trimChars, List.getLast?_reverse] at hc
    exact not_isWhiteSpace_of_head?_dropWhile hc

theorem TrimsTo.eq_trimChars {text word : List Char} (h : TrimsTo text word) :
    word = trimChars text := by
  obtain ⟨⟨front, back, rfl, hfront, hback⟩, hstarts, hends⟩ := h
  rw [trimChars, dropWhile_isBlank_append hfront]
  cases word with
  | nil =>
    -- all of the text is white space, and goes with its front
    have hall : back.dropWhile isBlank = [] := by simpa using dropWhile_isBlank_append hback []
    rw [List.nil_append, hall]
    rfl
  | cons c cs =>
    have hstart : ∀ d ∈ (c :: cs ++ back).head?, ¬ IsWhiteSpace d := hstarts
    have hend : ∀ d ∈ (c :: cs).reverse.head?, ¬ IsWhiteSpace d := by rwa [List.head?_reverse]
    have hreversed : ∀ d ∈ back.reverse, IsWhiteSpace d := by simpa using hback
    rw [dropWhile_isBlank_of_head? hstart, List.reverse_append, dropWhile_isBlank_append hreversed,
      dropWhile_isBlank_of_head? hend, List.reverse_reverse]

/-- Trimming is the one way to take the white space off both ends. -/
theorem trimsTo_iff {text word : List Char} : TrimsTo text word ↔ word = trimChars text :=
  ⟨TrimsTo.eq_trimChars, fun h => h ▸ trimsTo_trimChars text⟩

end Text

end TextCommand

import Mathlib.Data.List.Forall2
import TextCommand.Console.Repl
import TextCommand.Proofs.Text.Blank

/-!
# The lines of an input

A line goes up to its line feed, and the last one up to the end of the text; behind the last line feed there
is a line only if there is anything.  The interactive loop gets the lines without the white space at
their ends.
-/

namespace TextCommand.Console

/-- What the lines of a text are: they have no line feed in them, and one behind each but perhaps the
last. -/
inductive Lines : List Char → List (List Char) → Prop
  | nil : Lines [] []
  | last {line : List Char} : line ≠ [] → '\n' ∉ line → Lines line [line]
  | cons {line rest : List Char} {lines : List (List Char)} :
      '\n' ∉ line → Lines rest lines → Lines (line ++ '\n' :: rest) (line :: lines)

/-- The lines of a text, each without the white space at its ends. -/
def TrimmedLines (text : String) (words : List String) : Prop :=
  ∃ lines, Lines text.toList lines ∧
    List.Forall₂ (fun line word => TrimsTo line word.toList) lines words

/-! ### Cutting a text -/

theorem splitLines_ne_nil {cs : List Char} (h : cs ≠ []) : splitLines cs ≠ [] := by
  obtain ⟨c, cs, rfl⟩ := List.exists_cons_of_ne_nil h
  rw [splitLines]
  split
  · exact List.cons_ne_nil _ _
  · split <;> exact List.cons_ne_nil _ _

/-- A character in front of a text goes in front of its first line. -/
theorem lines_cons {c : Char} {cs line : List Char} {lines : List (List Char)} (hc : c ≠ '\n')
    (h : Lines cs (line :: lines)) : Lines (c :: cs) ((c :: line) :: lines) := by
  cases h with
  | last hne hline => exact .last (List.cons_ne_nil _ _) (List.not_mem_cons_of_ne_of_not_mem hc.symm hline)
  | cons hline hrest => exact .cons (List.not_mem_cons_of_ne_of_not_mem hc.symm hline) hrest

theorem lines_splitLines (cs : List Char) : Lines cs (splitLines cs) := by
  induction cs with
  | nil => exact .nil
  | cons c cs ih =>
    rw [splitLines]
    split
    · next hc =>
      subst hc
      exact .cons List.not_mem_nil ih
    · next hc =>
      split
      · next hnone =>
        have hnil : cs = [] := Classical.byContradiction fun hne => splitLines_ne_nil hne hnone
        rw [hnil]
        exact .last (List.cons_ne_nil _ _) (by simpa using Ne.symm hc)
      · next line lines hlines =>
        rw [hlines] at ih
        exact lines_cons hc ih

/-- A line feed ends the lines in front of it, whatever comes behind. -/
theorem splitLines_append (front back : List Char) :
    splitLines (front ++ '\n' :: back) = splitLines (front ++ ['\n']) ++ splitLines back := by
  induction front with
  | nil => simp [splitLines]
  | cons c front ih =>
    rw [List.cons_append, List.cons_append, splitLines, splitLines, ih]
    by_cases hc : c = '\n'
    · rw [if_pos hc, if_pos hc, List.cons_append]
    · rw [if_neg hc, if_neg hc]
      -- the line feed in front of `back` ends a line, so there is one for `c` to go in front of
      have hne : splitLines (front ++ ['\n']) ≠ [] := splitLines_ne_nil (by simp)
      obtain ⟨line, lines, hlines⟩ := List.exists_cons_of_ne_nil hne
      rw [hlines]
      rfl

theorem splitLines_line {line : List Char} (hne : line ≠ []) (h : '\n' ∉ line) :
    splitLines line = [line] := by
  induction line with
  | nil => exact absurd rfl hne
  | cons c cs ih =>
    obtain ⟨hc, hcs⟩ := List.ne_and_not_mem_of_not_mem_cons h
    rw [splitLines, if_neg hc.symm]
    by_cases hnil : cs = []
    · rw [hnil]
      rfl
    · rw [ih hnil hcs]

theorem splitLines_line_feed {line : List Char} (h : '\n' ∉ line) :
    splitLines (line ++ ['\n']) = [line] := by
  induction line with
  | nil => rfl
  | cons c cs ih =>
    obtain ⟨hc, hcs⟩ := List.ne_and_not_mem_of_not_mem_cons h
    rw [List.cons_append, splitLines, if_neg hc.symm, ih hcs]

/-- A text has its lines in one way only. -/
theorem lines_iff {cs : List Char} {lines : List (List Char)} :
    Lines cs lines ↔ lines = splitLines cs := by
  constructor
  · intro h
    induction h with
    | nil => rfl
    | last hne hline => rw [splitLines_line hne hline]
    | cons hline _ ih => rw [splitLines_append, splitLines_line_feed hline, ih]; rfl
  · rintro rfl
    exact lines_splitLines cs

/-! ### The input of the loop -/

theorem trimsTo_toList_iff {line : List Char} {word : String} :
    TrimsTo line word.toList ↔ String.ofList (Text.trimChars line) = word := by
  rw [Text.trimsTo_iff, ← String.toList_inj, String.toList_ofList, eq_comm]

theorem trimmedLines_iff {text : String} {words : List String} :
    TrimmedLines text words ↔ words = inputLines text := by
  have hwords : ∀ lines : List (List Char),
      List.Forall₂ (fun line word => TrimsTo line word.toList) lines words ↔
        (lines.map fun line => String.ofList (Text.trimChars line)) = words := fun lines => by
    simp only [trimsTo_toList_iff]
    rw [← List.forall₂_eq_eq_eq, List.forall₂_map_left_iff]
  simp only [TrimmedLines, lines_iff, hwords, exists_eq_left, inputLines]
  exact eq_comm

theorem inputLines_append (front back : String) :
    inputLines (front ++ "\n" ++ back) = inputLines (front ++ "\n") ++ inputLines back := by
  have hchars : (front ++ "\n" ++ back).toList = front.toList ++ '\n' :: back.toList := by simp
  have hfront : (front ++ "\n").toList = front.toList ++ ['\n'] := by simp
  rw [inputLines, inputLines, inputLines, hchars, hfront, splitLines_append, List.map_append]

end TextCommand.Console

import TextCommand.Proofs.Reader.Contract

/-!
# The language of quoted texts

A text is scanned from left to right, and every character is marked as escaped or not: a backslash that is
not escaped itself escapes the character behind it.  Reading up to a stop depends on these marks alone.  It
ends at the first stop that is not escaped, and gives what is in front of it without the backslashes that
escape; it fails if there is no such stop, or nothing in front of it.
-/

namespace TextCommand

/-- A character of a scanned text, and whether a backslash in front of it escapes it. -/
structure Marked where
  char : Char
  escaped : Bool
deriving DecidableEq

/-- Marks the characters of a text, of which the first is escaped or not. -/
def scanFrom : Bool → List Char → List Marked
  | _, [] => []
  | escaped, c :: cs => ⟨c, escaped⟩ :: scanFrom (!escaped && c == '\\') cs

/-- Marks the characters of a text from left to right. -/
def scan (cs : List Char) : List Marked := scanFrom false cs

namespace Marked

/-- A backslash that escapes the next character. -/
def escapes : Marked := ⟨'\\', false⟩

/-- The characters themselves. -/
def unmark (marks : List Marked) : List Char := marks.map char

/-- What scanned characters stand for: the backslashes that escape are left out. -/
def meaning (marks : List Marked) : List Char := unmark (marks.filter (· ≠ escapes))

end Marked

open Marked

/-! ### Scanning -/

theorem unmark_scanFrom (escaped : Bool) (cs : List Char) : unmark (scanFrom escaped cs) = cs := by
  induction cs generalizing escaped with
  | nil => rfl
  | cons c cs ih => exact congrArg (c :: ·) (ih _)

theorem unmark_scan (cs : List Char) : unmark (scan cs) = cs := unmark_scanFrom false cs

theorem scan_escape (c : Char) (cs : List Char) :
    scan ('\\' :: c :: cs) = escapes :: ⟨c, true⟩ :: scan cs := rfl

theorem scan_cons {c : Char} (hc : c ≠ '\\') (cs : List Char) :
    scan (c :: cs) = ⟨c, false⟩ :: scan cs := by
  have hslash : (!false && c == '\\') = false := by simp [hc]
  rw [scan, scanFrom, hslash]
  rfl

/-! ### Up to the stop -/

/-- The fault of a text in which no stop ends the reading. -/
def faultOf (stop : Char) (cs : List Char) : ReadFault :=
  if (scan cs).getLast? = some escapes then .unfinishedEscape else .unclosedQuote stop

theorem faultOf_escape (stop c : Char) (cs : List Char) :
    faultOf stop ('\\' :: c :: cs) = faultOf stop cs := by
  rw [faultOf, faultOf, scan_escape]
  cases scan cs with
  | nil => simp [escapes]
  | cons m ms => rw [List.getLast?_cons_cons, List.getLast?_cons_cons]

theorem faultOf_cons {c : Char} (hc : c ≠ '\\') (stop : Char) (cs : List Char) :
    faultOf stop (c :: cs) = faultOf stop cs := by
  rw [faultOf, faultOf, scan_cons hc]
  cases scan cs with
  | nil => simp [escapes, hc]
  | cons m ms => rw [List.getLast?_cons_cons]

/-- Without a stop that is not escaped there is nothing to end the text; and a backslash ends none. -/
theorem unescapeUntil_of_not_mem {stop : Char} {cs : List Char}
    (h : stop = '\\' ∨ ⟨stop, false⟩ ∉ scan cs) :
    unescapeUntil stop cs = .error (faultOf stop cs) := by
  induction cs using escaped_induction with
  | nil => rfl
  | dangling => rfl
  | escape c cs ih =>
    have hrest := ih (h.imp_right fun hmem hcs => hmem (by simp [scan_escape, hcs]))
    rw [unescapeUntil, hrest, faultOf_escape]
    rfl
  | plain c cs hc ih =>
    have hne : c ≠ stop := by
      rintro rfl
      exact h.elim hc fun hmem => hmem (by simp [scan_cons hc])
    have hrest := ih (h.imp_right fun hmem hcs => hmem (by simp [scan_cons hc, hcs]))
    rw [unescapeUntil_cons hc, if_neg hne, hrest, faultOf_cons hc]
    rfl

/-- The text ends at the first stop that is not escaped. -/
theorem unescapeUntil_of_scan {stop : Char} (hstop : stop ≠ '\\') {cs : List Char}
    {front back : List Marked} (hscan : scan cs = front ++ ⟨stop, false⟩ :: back)
    (hfront : ⟨stop, false⟩ ∉ front) :
    unescapeUntil stop cs = .ok (meaning front, front.length + 1) := by
  have hescapes : (⟨stop, false⟩ : Marked) ≠ escapes := fun h => hstop (congrArg Marked.char h)
  induction cs using escaped_induction generalizing front with
  | nil => simp [scan, scanFrom] at hscan
  | dangling =>
    have hmem : ⟨stop, false⟩ ∈ scan ['\\'] := by simp [hscan]
    exact absurd (List.mem_singleton.mp hmem) hescapes
  | escape c cs ih =>
    rw [scan_escape] at hscan
    rcases front with _ | ⟨m, _ | ⟨n, front⟩⟩
    · -- the backslash is no stop
      cases hscan
      exact absurd rfl hescapes
    · -- nor is the character that it escapes
      cases hscan
    · -- both stand in front of the stop
      obtain ⟨rfl, rfl, hrest⟩ : escapes = m ∧ ⟨c, true⟩ = n ∧
          scan cs = front ++ ⟨stop, false⟩ :: back := by simpa using hscan
      have hread := ih hrest fun hmem => hfront (by simp [hmem])
      rw [unescapeUntil, hread]
      simp [Except.map, meaning, unmark, escapes]
  | plain c cs hc ih =>
    rw [scan_cons hc] at hscan
    rcases front with _ | ⟨m, front⟩
    · -- `c` is the stop
      cases hscan
      rw [unescapeUntil_cons hc, if_pos rfl]
      rfl
    · -- `c` stands in front of the stop
      obtain ⟨rfl, hrest⟩ : ⟨c, false⟩ = m ∧ scan cs = front ++ ⟨stop, false⟩ :: back := by
        simpa using hscan
      have hne : c ≠ stop := by
        rintro rfl
        exact hfront List.mem_cons_self
      have hread := ih hrest fun hmem => hfront (List.mem_cons_of_mem _ hmem)
      rw [unescapeUntil_cons hc, if_neg hne, hread]
      simp [Except.map, meaning, unmark, escapes, hc]

/-- What stands in front of the stop stands for something, if it is anything. -/
theorem meaning_ne_nil {stop : Char} {cs : List Char} {front back : List Marked}
    (hscan : scan cs = front ++ ⟨stop, false⟩ :: back) (hne : front ≠ []) : meaning front ≠ [] := by
  obtain ⟨m, front, rfl⟩ := List.exists_cons_of_ne_nil hne
  induction cs using escaped_induction with
  | nil => cases hscan
  | dangling => simp [scan, scanFrom] at hscan
  | escape c cs _ =>
    rw [scan_escape] at hscan
    cases front with
    | nil => cases hscan
    | cons n front =>
      obtain ⟨-, rfl, -⟩ : escapes = m ∧ ⟨c, true⟩ = n ∧
          scan cs = front ++ ⟨stop, false⟩ :: back := by simpa using hscan
      simp [meaning, unmark, escapes]
  | plain c cs hc _ =>
    rw [scan_cons hc] at hscan
    obtain ⟨rfl, -⟩ : ⟨c, false⟩ = m ∧ scan cs = front ++ ⟨stop, false⟩ :: back := by
      simpa using hscan
    simp [meaning, unmark, escapes, hc]

namespace Reader

variable {r : Reader} {stop : Char}

theorem readUntil_of_not_mem (h : stop = '\\' ∨ ⟨stop, false⟩ ∉ scan r.rest) :
    r.readUntil stop = r.fail (faultOf stop r.rest) := by
  rw [readUntil, unescapeUntil_of_not_mem h]

theorem readUntil_of_head? (hstop : stop ≠ '\\') (h : r.rest.head? = some stop) :
    r.readUntil stop = r.fail .expectedString := by
  obtain ⟨cs, hrest⟩ := List.head?_eq_some_iff.mp h
  have hread : unescapeUntil stop r.rest = .ok ([], 1) := by
    rw [hrest, unescapeUntil_cons hstop, if_pos rfl]
  rw [readUntil, hread]

/-- The reader comes to stand behind the stop and the blanks that follow it. -/
theorem readUntil_of_scan (hstop : stop ≠ '\\') {front back : List Marked}
    (hscan : scan r.rest = front ++ ⟨stop, false⟩ :: back) (hfront : ⟨stop, false⟩ ∉ front)
    (hne : front ≠ []) :
    r.readUntil stop = ⟨.ok (String.ofList (meaning front)),
      (Reader.mk (r.passed ++ (unmark front ++ [stop])) (unmark back)).skipBlank⟩ := by
  obtain ⟨passed, rest⟩ := r
  have hread := unescapeUntil_of_scan hstop hscan hfront
  obtain ⟨c, cs, hmeaning⟩ := List.exists_cons_of_ne_nil (meaning_ne_nil hscan hne)
  have hrest : rest = (unmark front ++ [stop]) ++ unmark back := by
    rw [← unmark_scan rest, hscan]
    simp [unmark]
  have hlength : front.length + 1 = (unmark front ++ [stop]).length := by simp [unmark]
  rw [hmeaning] at hread ⊢
  simp only [readUntil, hread]
  rw [hlength, hrest, advance_append]

/-- A read up to the stop succeeds exactly if there is one that is not escaped, with something in front. -/
theorem readUntil_succeeds_iff (hstop : stop ≠ '\\') :
    (∃ word next, r.readUntil stop = ⟨.ok word, next⟩) ↔
      ⟨stop, false⟩ ∈ scan r.rest ∧ r.rest.head? ≠ some stop := by
  constructor
  · rintro ⟨word, next, hread⟩
    refine ⟨?_, fun hhead => ?_⟩
    · -- no stop, no text
      refine Decidable.byContradiction fun hmem => ?_
      rw [readUntil_of_not_mem (.inr hmem)] at hread
      cases hread
    · -- a stop that comes first leaves no text
      rw [readUntil_of_head? hstop hhead] at hread
      cases hread
  · rintro ⟨hmem, hhead⟩
    obtain ⟨front, back, hscan, hfront⟩ := List.eq_append_cons_of_mem hmem
    have hne : front ≠ [] := by
      rintro rfl
      apply hhead
      rw [← unmark_scan r.rest, hscan]
      rfl
    exact ⟨_, _, readUntil_of_scan hstop hscan hfront hne⟩

/-! ### Quoted texts are read back -/

theorem readQuoted_of_escape {quote : Char} (hquote : isQuote quote = true) {word : String}
    (hne : word ≠ "") (passed rest : List Char) :
    (Reader.mk passed (quote :: (escape quote word.toList ++ quote :: rest))).readQuoted =
      ⟨.ok word,
        (Reader.mk (passed ++ quote :: (escape quote word.toList ++ [quote])) rest).skipBlank⟩ := by
  have hblank : ∀ c ∈ rest.takeWhile Text.isBlank, Text.isBlank c = true :=
    List.all_eq_true.mp List.all_takeWhile
  have hsettled : ∀ c ∈ (rest.dropWhile Text.isBlank).head?, Text.isBlank c = false := by
    have h := settled_skipBlank (Reader.mk [] rest)
    rwa [Settled, rest_skipBlank] at h
  have hread := readQuoted_escape hblank hsettled passed hquote hne
  rw [List.takeWhile_append_dropWhile] at hread
  have hskip : ∀ r : Reader, r.skipBlank =
      ⟨r.passed ++ r.rest.takeWhile Text.isBlank, r.rest.dropWhile Text.isBlank⟩ := fun r => by
    rw [← passed_skipBlank, ← rest_skipBlank]
  rw [hread, hskip]
  simp only [List.append_assoc, List.cons_append, List.nil_append]

end Reader

/-- **Texts up to a stop.**  If a read up to a stop other than the backslash succeeds, there is a stop that is
not escaped and does not come first; the word is what stands in front of the first such stop, without
the backslashes that escape, and the reader has passed that stop and the blanks behind it.  Otherwise the
read fails for one of three reasons: the stop comes first, the text ends in a backslash that escapes, or it just
ends.  A read up to a backslash always fails.  And whatever stands between two quotes, escaped and not empty,
is read back. -/
theorem reads_up_to_unescaped_stop :
    (∀ (r : Reader) (stop : Char), stop ≠ '\\' →
      ((∃ word next, r.readUntil stop = ⟨.ok word, next⟩) ↔
        ⟨stop, false⟩ ∈ scan r.rest ∧ r.rest.head? ≠ some stop) ∧
      (∀ front back, scan r.rest = front ++ ⟨stop, false⟩ :: back → ⟨stop, false⟩ ∉ front →
        front ≠ [] →
          r.readUntil stop = ⟨.ok (String.ofList (meaning front)),
            (Reader.mk (r.passed ++ (unmark front ++ [stop])) (unmark back)).skipBlank⟩) ∧
      (r.rest.head? = some stop → r.readUntil stop = r.fail .expectedString) ∧
      (⟨stop, false⟩ ∉ scan r.rest →
        ((scan r.rest).getLast? = some escapes → r.readUntil stop = r.fail .unfinishedEscape) ∧
        ((scan r.rest).getLast? ≠ some escapes →
          r.readUntil stop = r.fail (.unclosedQuote stop)))) ∧
    (∀ r : Reader, ∃ fault, r.readUntil '\\' = r.fail fault) ∧
    ∀ (word : String) (quote : Char) (passed rest : List Char), word ≠ "" → isQuote quote = true →
      let r : Reader := ⟨passed, quote :: (escape quote word.toList ++ quote :: rest)⟩
      let next : Reader := ⟨passed ++ quote :: (escape quote word.toList ++ [quote]), rest⟩
      r.readQuoted = ⟨.ok word, next.skipBlank⟩ ∧ r.readString = ⟨.ok word, next.skipBlank⟩ := by
  refine ⟨?_, ?_, ?_⟩
  · intro r stop hstop
    refine ⟨Reader.readUntil_succeeds_iff hstop, fun front back => Reader.readUntil_of_scan hstop,
      Reader.readUntil_of_head? hstop, fun hmem => ?_⟩
    rw [Reader.readUntil_of_not_mem (.inr hmem), faultOf]
    exact ⟨fun hlast => by rw [if_pos hlast], fun hlast => by rw [if_neg hlast]⟩
  · intro r
    exact ⟨_, Reader.readUntil_of_not_mem (.inl rfl)⟩
  · intro word quote passed rest hne hquote r next
    have hread : r.readQuoted = ⟨.ok word, next.skipBlank⟩ :=
      Reader.readQuoted_of_escape hquote hne passed rest
    have hpeek : r.peek.any isQuote = true := hquote
    refine ⟨hread, ?_⟩
    rw [Reader.readString, if_pos hpeek, hread]

/-- An escaped quote and an escaped backslash in front of the quote that ends the text, and blanks behind it. -/
theorem readUntil_behind_escapes :
    let r := Reader.ofString "a\\\x22\\\\\x22  b"
    let front : List Marked := [⟨'a', false⟩, escapes, ⟨'\x22', true⟩, escapes, ⟨'\\', true⟩]
    let back : List Marked := [⟨' ', false⟩, ⟨' ', false⟩, ⟨'b', false⟩]
    (scan r.rest = front ++ ⟨'\x22', false⟩ :: back ∧ ⟨'\x22', false⟩ ∉ front) ∧
      r.readUntil '\x22' = ⟨.ok "a\x22\\", ⟨"a\\\x22\\\\\x22  ".toList, ['b']⟩⟩ := by
  intro r front back
  have hscan : scan r.rest = front ++ ⟨'\x22', false⟩ :: back := by decide
  have hfront : ⟨'\x22', false⟩ ∉ front := by decide
  exact ⟨⟨hscan, hfront⟩, (reads_up_to_unescaped_stop.1 r '\x22' (by decide)).2.1 front back hscan hfront
    (List.cons_ne_nil _ _)⟩

end TextCommand

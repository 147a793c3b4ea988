import TextCommand.Proofs.Reader.Spelling

/-!
# Arguments as tokens with a meaning

Every kind of argument but the greedy one takes a single token, and either makes a value of it or
refuses it.  So whatever is true of the reading of tokens is true of the reading of arguments.
-/

namespace TextCommand

namespace Reader

variable {r next : Reader} {word : String}

theorem readScalar_eq_ok_iff {α : Type} {scalar : Scalar} {decode : String → Option α} {a : α} :
    r.readScalar scalar decode = ⟨.ok a, next⟩ ↔
      ∃ word, r.readWord = ⟨.ok word, next⟩ ∧ decode word = some a := by
  constructor
  · intro h
    unfold readScalar at h
    split at h
    · cases h
    · next word left hword =>
      split at h
      · next b hdecode =>
        cases h
        exact ⟨word, hword, hdecode⟩
      · cases h
  · rintro ⟨word, hword, hdecode⟩
    simp only [readScalar, hword, hdecode]

theorem rest_ne_nil_of_readString (h : r.readString = ⟨.ok word, next⟩) : r.rest ≠ [] := by
  intro hrest
  simp [readString, readWord, peek, hrest, fail] at h

/-- A word opens with no quote, so it is read as a string, too. -/
theorem readString_of_readWord (h : r.readWord = ⟨.ok word, next⟩) :
    r.readString = ⟨.ok word, next⟩ := by
  have hpeek : r.peek.any isQuote = false := by
    cases hrest : r.rest with
    | nil => simp [peek, hrest]
    | cons c cs =>
      cases hc : isBare c with
      | true => simp [peek, hrest, isQuote_of_isBare hc]
      | false => simp [readWord, hrest, hc, fail] at h
  rw [readString, hpeek]
  exact h

end Reader

namespace Kind

/-- The token that a kind takes, unless it is the greedy one. -/
def token : Kind → Reader → Reading ReadError String
  | .string, r => r.readString
  | _, r => r.readWord

/-- What a kind makes of its token. -/
def decode? : Kind → String → Option Value
  | .bool, word => (decodeBool? word).map .bool
  | .int, word => (Number.readInt32? word).map .int
  | .long, word => (Number.readInt64? word).map .long
  | .float, word => (Number.readBinary? .single word).map .float
  | .double, word => (Number.readBinary? .double word).map .double
  | .string, word => some (.text word)
  | .greedy, _ => none
  | .mode, word => (Game.Mode.ofName? word).map .mode
  | .messy, word => if "bad".toList.isPrefixOf word.toList then none else some (.text word)

variable {r next : Reader} {kind : Kind} {value : Value}

theorem toValue_eq_ok_iff {α : Type} {wrap : α → Value} {reading : Reading ReadError α} :
    reading.toValue wrap = ⟨.ok value, next⟩ ↔ ∃ a, reading = ⟨.ok a, next⟩ ∧ wrap a = value := by
  constructor
  · intro h
    obtain ⟨a, ha, hvalue⟩ := of_toValue h
    exact ⟨a, ha, hvalue.symm⟩
  · rintro ⟨a, rfl, rfl⟩
    rfl

theorem readScalar_toValue_eq_ok_iff {α : Type} {scalar : Scalar} {decode : String → Option α}
    {wrap : α → Value} :
    (r.readScalar scalar decode).toValue wrap = ⟨.ok value, next⟩ ↔
      ∃ word, r.readWord = ⟨.ok word, next⟩ ∧ (decode word).map wrap = some value := by
  simp only [toValue_eq_ok_iff, Reader.readScalar_eq_ok_iff, Option.map_eq_some_iff]
  constructor
  · rintro ⟨a, ⟨word, hword, hdecode⟩, hvalue⟩
    exact ⟨word, hword, a, hdecode, hvalue⟩
  · rintro ⟨word, hword, a, hdecode, hvalue⟩
    exact ⟨a, ⟨word, hword, hdecode⟩, hvalue⟩

theorem readMode_eq_ok_iff :
    readMode r = ⟨.ok value, next⟩ ↔
      ∃ word, r.readWord = ⟨.ok word, next⟩ ∧ decode? .mode word = some value := by
  constructor
  · intro h
    unfold readMode at h
    split at h
    · cases h
    · next word left hword =>
      split at h
      · next m hmode =>
        cases h
        exact ⟨word, hword, by simp [decode?, hmode]⟩
      · cases h
  · rintro ⟨word, hword, hdecode⟩
    obtain ⟨m, hmode, rfl⟩ := Option.map_eq_some_iff.mp hdecode
    simp only [readMode, hword, hmode]

theorem readMessy_eq_ok_iff :
    readMessy r = ⟨.ok value, next⟩ ↔
      ∃ word, r.readWord = ⟨.ok word, next⟩ ∧ decode? .messy word = some value := by
  constructor
  · intro h
    unfold readMessy at h
    split at h
    · cases h
    · next word left hword =>
      split at h
      · cases h
      · next hbad =>
        cases h
        exact ⟨word, hword, if_neg hbad⟩
  · rintro ⟨word, hword, hdecode⟩
    simp only [decode?] at hdecode
    split at hdecode
    · cases hdecode
    · next hbad =>
      cases hdecode
      simp only [readMessy, hword, if_neg hbad]

/-- To read an argument is to read a token and to make a value of it. -/
theorem read_eq_ok_iff (hkind : kind ≠ .greedy) :
    kind.read r = ⟨.ok value, next⟩ ↔
      ∃ word, kind.token r = ⟨.ok word, next⟩ ∧ kind.decode? word = some value := by
  cases kind with
  | bool | int | long | float | double => exact readScalar_toValue_eq_ok_iff
  | string =>
    simp only [read, toValue_eq_ok_iff, token, decode?, Option.some.injEq]
  | greedy => exact absurd rfl hkind
  | mode => exact readMode_eq_ok_iff
  | messy => exact readMessy_eq_ok_iff

/-- Where an argument can be read there is a token that could name a node. -/
theorem readString_of_token {word : String} (h : kind.token r = ⟨.ok word, next⟩) :
    r.readString = ⟨.ok word, next⟩ := by
  cases kind with
  | string => exact h
  | bool | int | long | float | double | greedy | mode | messy => exact Reader.readString_of_readWord h

theorem rest_ne_nil_of_read (h : kind.read r = ⟨.ok value, next⟩) : r.rest ≠ [] := by
  by_cases hkind : kind = .greedy
  · -- at the end of the text the greedy kind fails as well
    subst hkind
    obtain ⟨text, htext, -⟩ := toValue_eq_ok_iff.mp h
    intro hrest
    simp [readGreedy, Reader.canRead, hrest, Reader.fail] at htext
  · -- any other kind takes a token
    obtain ⟨word, hword, -⟩ := (read_eq_ok_iff hkind).mp h
    exact Reader.rest_ne_nil_of_readString (readString_of_token hword)

theorem readAll_cons_eq_ok_iff {kinds : List Kind} {values : List Value} :
    readAll (kind :: kinds) r = ⟨.ok values, next⟩ ↔
      ∃ value rest mid, kind.read r = ⟨.ok value, mid⟩ ∧ readAll kinds mid = ⟨.ok rest, next⟩ ∧
        values = value :: rest := by
  constructor
  · intro h
    unfold readAll at h
    split at h
    · cases h
    · next value mid hread =>
      split at h
      · cases h
      · next rest last hrest =>
        cases h
        exact ⟨value, rest, mid, hread, hrest, rfl⟩
  · rintro ⟨value, rest, mid, hread, hrest, rfl⟩
    simp only [readAll, hread, hrest]

theorem rest_of_read_greedy (h : read .greedy r = ⟨.ok value, next⟩) : next.rest = [] := by
  obtain ⟨text, htext, -⟩ := toValue_eq_ok_iff.mp h
  unfold readGreedy at htext
  split at htext
  · cases htext
    rfl
  · cases htext

end Kind

end TextCommand

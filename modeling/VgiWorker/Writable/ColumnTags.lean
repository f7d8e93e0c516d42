import VgiWorker.Lib.Json
import VgiWorker.Lib.Outcome
import Mathlib.Data.List.TakeWhile

/-! The tags of a column: a JSON object of strings, read token by token after a check of its escapes. -/

namespace VgiWorker.Writable

open Outcome

inductive TagsError where
  | invalidEscape | unpairedSurrogate | notAnObject | invalidKey | notAString | invalidObject | trailing
deriving DecidableEq, Repr

def isHigh (code : Nat) : Bool := 0xD800 ≤ code && code ≤ 0xDBFF
def isLow (code : Nat) : Bool := 0xDC00 ≤ code && code ≤ 0xDFFF

/-- The first loop: surrogate escapes in strings stand in pairs. -/
def checkEscapes : Bool → Bytes → Except TagsError Unit
  | _, [] => .ok ()
  | inString, byte :: rest =>
    if byte = 0x22 then checkEscapes (!inString) rest
    else if inString = false ∨ byte ≠ 0x5C then checkEscapes inString rest
    else
      match rest with
      | [] => .ok ()
      | letter :: rest =>
        if letter ≠ 0x75 then checkEscapes true rest
        else
          match rest with
          | a :: b :: c :: d :: rest =>
            match Json.readUnit [a, b, c, d] with
            | none => .error .invalidEscape
            | some (code, _) =>
              if isHigh code then
                match rest with
                | first :: second :: a :: b :: c :: d :: rest =>
                  if first = 0x5C ∧ second = 0x75 ∧ (Json.readUnit [a, b, c, d]).any (isLow ·.1)
                    then checkEscapes true rest
                  else .error .unpairedSurrogate
                | _ => .error .unpairedSurrogate
              else if isLow code then .error .unpairedSurrogate
              else checkEscapes true rest
          | _ => .error .invalidEscape

/-- A string after its opening quote: what stands before the closing one, and what follows it. -/
def scanString : Bytes → Option (Bytes × Bytes)
  | [] => none
  | byte :: rest =>
    if byte = 0x22 then some ([], rest)
    else if byte = 0x5C then
      match rest with
      | [] => none
      | letter :: rest =>
        if letter = 0x75 then
          match rest with
          | a :: b :: c :: d :: rest =>
            if (Json.readUnit [a, b, c, d]).isSome then
              (scanString rest).map fun (raw, after) => ([byte, letter, a, b, c, d] ++ raw, after)
            else none
          | _ => none
        else if (Json.escaped letter).isSome then (scanString rest).map fun (raw, after) =>
          ([byte, letter] ++ raw, after)
        else none
    else if byte < 0x20 then none
    else (scanString rest).map fun (raw, after) => ([byte] ++ raw, after)

/-- The text of a string as the decoder gives it. -/
def unquote (raw : Bytes) : Bytes := ((Json.readText (raw.length + 1) (raw ++ [0x22])).map Prod.fst).getD []

/-- The next token where only a mark is read on. -/
def markToken (mark : UInt8) (input : Bytes) : Option Bytes :=
  if (Json.skipSpace input).head? = some mark then some (Json.skipSpace input).tail else none

/-- The next token if it is a string, behind the mark that the decoder's state asks for. -/
def textToken (mark : Option UInt8) (input : Bytes) : Option (Bytes × Bytes) := do
  let rest ← mark.elim (some input) (markToken · input)
  scanString (← markToken 0x22 rest)

def more (input : Bytes) : Bool := (Json.skipSpace input).head?.any fun byte => byte ≠ 0x5D && byte ≠ 0x7D

def expect (error : TagsError) : Option α → Except TagsError α
  | some value => .ok value
  | none => .error error

/-- The members up to the closing brace; a comma comes before each but the first. -/
def readTags : Nat → Option UInt8 → List Bytes → Bytes → Except TagsError Bytes
  | 0, _, _, _ => .error .invalidObject
  | fuel + 1, mark, seen, input =>
    if more input then do
      let (key, rest) ← expect .invalidKey (textToken mark input)
      refuse (unquote key ∈ seen) .invalidKey
      let (_, rest) ← expect .notAString (textToken (some 0x3A) rest)
      readTags fuel (some 0x2C) (unquote key :: seen) rest
    else .ok input

/-- A token of another kind is refused as one that cannot be read is. -/
def validateColumnTags (value : Bytes) : Except TagsError Unit := do
  checkEscapes false value
  let rest ← expect .notAnObject (markToken 0x7B value)
  let rest ← readTags value.length none [] rest
  let rest ← expect .invalidObject (markToken 0x7D rest)
  refuse (Json.skipSpace rest ≠ []) .trailing

/-- What may stand between the quotes of a string, and the codes of its `\u` escapes in their places. -/
inductive Content : List (Option Nat) → Bytes → Prop where
  | nil : Content [] []
  | plain (printable : 0x20 ≤ byte) (notQuote : byte ≠ 0x22) (notBackslash : byte ≠ 0x5C) (rest : Content codes raw) :
      Content (none :: codes) ([byte] ++ raw)
  | letter (known : (Json.escaped letter).isSome) (rest : Content codes raw) :
      Content (none :: codes) ([0x5C, letter] ++ raw)
  | unit (read : Json.readUnit [a, b, c, d] = some (code, [])) (rest : Content codes raw) :
      Content (some code :: codes) ([0x5C, 0x75, a, b, c, d] ++ raw)

/-- Every surrogate is part of a pair. -/
def Paired : List (Option Nat) → Prop
  | [] => True
  | none :: codes => Paired codes
  | some code :: codes =>
    if isHigh code then
      match codes with
      | some low :: codes => isLow low ∧ Paired codes
      | _ => False
    else isLow code = false ∧ Paired codes

/-- A string, without its quotes. -/
structure StringText where
  raw : Bytes
  codes : List (Option Nat)
  content : Content codes raw

inductive Token where
  | mark (byte : UInt8)
  | string (text : StringText)

def Blank (gap : Bytes) : Prop := ∀ byte ∈ gap, Json.isSpace byte

def marks : Bytes := [0x7B, 0x7D, 0x3A, 0x2C]

/-- Tokens with white space around them. -/
inductive Spread : List Token → Bytes → Prop where
  | nil (blank : Blank gap) : Spread [] gap
  | mark (blank : Blank gap) (known : byte ∈ marks) (rest : Spread tokens text) :
      Spread (.mark byte :: tokens) (gap ++ byte :: text)
  | string (blank : Blank gap) (string : StringText) (rest : Spread tokens text) :
      Spread (.string string :: tokens) (gap ++ 0x22 :: (string.raw ++ 0x22 :: text))

/-- The members of an object and its closing brace. -/
def tagTokens : Option UInt8 → List (StringText × StringText) → List Token
  | _, [] => [.mark 0x7D]
  | mark, (key, value) :: tags =>
    (mark.map .mark).toList ++ .string key :: .mark 0x3A :: .string value :: tagTokens (some 0x2C) tags

section Strings

theorem readUnit_rest (read : Json.readUnit [a, b, c, d] = some (code, rest)) : rest = [] := by
  simp only [Json.readUnit, Option.bind_eq_bind, Option.bind_eq_some_iff] at read
  obtain ⟨_, _, _, _, _, _, _, _, same⟩ := read
  cases same
  rfl

theorem not_unit (known : (Json.escaped letter).isSome) : letter ≠ 0x75 := by
  rintro rfl
  cases known

theorem Content.scan (content : Content codes raw) (after : Bytes) :
    scanString (raw ++ 0x22 :: after) = some (raw, after) := by
  induction content with
  | nil => simp [scanString.eq_def]
  | plain printable notQuote notBackslash rest ih =>
    unfold scanString
    simp [notQuote, notBackslash, printable, ih]
  | letter known rest ih =>
    unfold scanString
    simp [known, not_unit known, ih]
  | unit read rest ih =>
    unfold scanString
    simp [read, ih]

/-- The string that is scanned, quotes included. -/
def Scanned (input raw after : Bytes) : Prop := input = raw ++ 0x22 :: after ∧ ∃ codes, Content codes raw

theorem scanned_append (below : ∀ {raw}, scanString rest = some (raw, after) → Scanned rest raw after)
    (scanned : ((scanString rest).map fun (raw, after) => (front ++ raw, after)) = some (raw, after)) :
    ∃ inner codes, raw = front ++ inner ∧ front ++ rest = raw ++ 0x22 :: after ∧ Content codes inner := by
  obtain ⟨⟨inner, _⟩, found, same⟩ := Option.map_eq_some_iff.mp scanned
  cases same
  obtain ⟨isText, codes, content⟩ := below found
  exact ⟨inner, codes, rfl, by rw [isText]; simp, content⟩

theorem scanned_of_scan (scanned : scanString input = some (raw, after)) : Scanned input raw after := by
  fun_induction scanString input generalizing raw with
  | case2 rest =>
    cases scanned
    exact ⟨rfl, _, .nil⟩
  | case4 a b c d rest read _ ih =>
    obtain ⟨_, _, rfl, isText, content⟩ := scanned_append ih scanned
    obtain ⟨⟨_⟩, isCode⟩ := Option.isSome_iff_exists.mp read
    obtain rfl := readUnit_rest isCode
    exact ⟨isText, _, .unit isCode content⟩
  | case7 letter rest notUnit known _ ih =>
    obtain ⟨_, _, rfl, isText, content⟩ := scanned_append ih scanned
    exact ⟨isText, _, .letter known content⟩
  | case10 byte rest notQuote notBackslash printable ih =>
    obtain ⟨_, _, rfl, isText, content⟩ := scanned_append ih scanned
    exact ⟨isText, _, .plain (UInt8.not_lt.mp printable) notQuote notBackslash content⟩
  | _ => cases scanned

end Strings

section Tokens

theorem markToken_gap (blank : Blank gap) (solid : Json.isSpace mark = false) :
    markToken mark (gap ++ mark :: rest) = some rest := by
  have skipped : Json.skipSpace (gap ++ mark :: rest) = mark :: rest := by
    rw [Json.skipSpace, List.dropWhile_append_of_pos blank, List.dropWhile_cons_of_neg (by simp [solid])]
  simp [markToken, skipped]

theorem markToken_eq_some (found : markToken mark input = some rest) :
    ∃ gap, Blank gap ∧ input = gap ++ mark :: rest := by
  obtain ⟨isMark, same⟩ := Option.ite_none_right_eq_some.mp found
  cases same
  refine ⟨input.takeWhile Json.isSpace, fun _ => List.mem_takeWhile_imp, ?_⟩
  rw [List.cons_head?_tail isMark]
  exact List.takeWhile_append_dropWhile.symm

theorem marks_solid (known : byte ∈ marks) : Json.isSpace byte = false ∧ byte ≠ 0x22 := by
  simp only [marks, List.mem_cons, List.not_mem_nil, or_false] at known
  rcases known with rfl | rfl | rfl | rfl <;> decide

theorem spread_mark (known : byte ∈ marks) :
    Spread (.mark byte :: tokens) input ↔ ∃ rest, markToken byte input = some rest ∧ Spread tokens rest := by
  constructor
  · intro spread
    cases spread with
    | mark blank _ rest => exact ⟨_, markToken_gap blank (marks_solid known).1, rest⟩
  · rintro ⟨_, found, spread⟩
    obtain ⟨_, blank, rfl⟩ := markToken_eq_some found
    exact .mark blank known spread

theorem spread_string :
    (∃ string, string.raw = raw ∧ Spread (.string string :: tokens) input) ↔
      ∃ rest, (markToken 0x22 input).bind scanString = some (raw, rest) ∧ Spread tokens rest := by
  constructor
  · rintro ⟨string, rfl, spread⟩
    cases spread with
    | string blank _ rest =>
      exact ⟨_, Option.bind_eq_some_iff.mpr ⟨_, markToken_gap blank rfl, string.content.scan _⟩, rest⟩
  · rintro ⟨_, found, spread⟩
    obtain ⟨_, marked, scanned⟩ := Option.bind_eq_some_iff.mp found
    obtain ⟨_, blank, rfl⟩ := markToken_eq_some marked
    obtain ⟨rfl, codes, content⟩ := scanned_of_scan scanned
    exact ⟨⟨raw, codes, content⟩, rfl, .string blank ⟨raw, codes, content⟩ spread⟩

theorem spread_text (known : ∀ byte ∈ mark, byte ∈ marks) :
    (∃ string, string.raw = raw ∧ Spread ((mark.map .mark).toList ++ .string string :: tokens) input) ↔
      ∃ rest, textToken mark input = some (raw, rest) ∧ Spread tokens rest := by
  cases mark with
  | none => exact spread_string
  | some mark =>
    simp only [Option.map_some, Option.toList_some, List.cons_append, spread_mark (known mark rfl)]
    constructor
    · rintro ⟨string, same, rest, marked, spread⟩
      obtain ⟨after, found, spread⟩ := spread_string.mp ⟨string, same, spread⟩
      exact ⟨after, Option.bind_eq_some_iff.mpr ⟨rest, marked, found⟩, spread⟩
    · rintro ⟨after, found, spread⟩
      obtain ⟨rest, marked, found⟩ := Option.bind_eq_some_iff.mp found
      obtain ⟨string, same, spread⟩ := spread_string.mpr ⟨after, found, spread⟩
      exact ⟨string, same, rest, marked, spread⟩

@[simp] theorem expect_eq_ok : expect error found = .ok value ↔ found = some value := by
  cases found <;> simp [expect]

theorem more_of_markToken (found : markToken mark input = some rest) :
    more input = (mark ≠ 0x5D && mark ≠ 0x7D) := by
  obtain ⟨isMark, _⟩ := Option.ite_none_right_eq_some.mp found
  simp [more, isMark]

theorem more_of_textToken (known : mark = none ∨ mark = some 0x2C) (found : textToken mark input = some token) :
    more input := by
  simp only [textToken, Option.bind_eq_bind, Option.bind_eq_some_iff] at found
  obtain ⟨_, marked, _, quoted, _⟩ := found
  rcases known with rfl | rfl
  · cases marked
    exact more_of_markToken quoted
  · exact more_of_markToken marked

/-- The members are read up to the closing brace exactly when they stand there, with keys of their own. -/
theorem readTags_eq_ok (known : mark = none ∨ mark = some 0x2C) (distinct : seen.Nodup) :
    (∃ rest, readTags fuel mark seen input = .ok rest ∧ Spread [.mark 0x7D] rest) ↔
      ∃ tags, tags.length < fuel ∧ Spread (tagTokens mark tags) input ∧
        (seen ++ tags.map (unquote ·.1.raw)).Nodup := by
  induction fuel generalizing mark seen input with
  | zero => simp [readTags]
  | succ fuel ih =>
    have solid : ∀ byte ∈ mark, byte ∈ marks := by
      rcases known with rfl | rfl <;> simp [marks]
    constructor
    · rintro ⟨rest, isRead, closed⟩
      rw [readTags] at isRead
      split at isRead
      · simp only [bind_eq_ok, expect_eq_ok, refuse_eq_ok, Prod.exists] at isRead
        obtain ⟨_, left, isKey, _, fresh, _, right, isValue, isRead⟩ := isRead
        obtain ⟨tags, few, spread, apart⟩ := (ih (.inr rfl) (.cons fresh distinct)).mp ⟨rest, isRead, closed⟩
        obtain ⟨value, rfl, spread⟩ := (spread_text (by simp [marks])).mpr ⟨right, isValue, spread⟩
        obtain ⟨key, rfl, spread⟩ := (spread_text solid).mpr ⟨left, isKey, spread⟩
        exact ⟨(key, value) :: tags, Nat.succ_lt_succ few, spread, List.nodup_middle.mpr apart⟩
      · cases isRead
        exact ⟨[], Nat.succ_pos _, closed, by simpa using distinct⟩
    · rintro ⟨tags, few, spread, apart⟩
      cases tags with
      | nil =>
        obtain ⟨_, closed, _⟩ := (spread_mark (by decide)).mp spread
        exact ⟨_, by rw [readTags, more_of_markToken closed]; rfl, spread⟩
      | cons tag tags =>
        have apart : (unquote tag.1.raw :: seen ++ tags.map (unquote ·.1.raw)).Nodup := List.nodup_middle.mp apart
        obtain ⟨fresh, _⟩ := List.nodup_cons.mp apart.of_append_left
        obtain ⟨_, isKey, spread⟩ := (spread_text solid).mp ⟨_, rfl, spread⟩
        obtain ⟨_, isValue, spread⟩ := (@spread_text (some 0x3A) _ _ _ (by simp [marks])).mp ⟨_, rfl, spread⟩
        obtain ⟨rest, isRead, closed⟩ := (ih (.inr rfl) apart.of_append_left).mpr
          ⟨tags, Nat.lt_of_succ_lt_succ few, spread, apart⟩
        refine ⟨rest, ?_, closed⟩
        rw [readTags]
        simp [more_of_textToken known isKey, isKey, fresh, isValue, isRead]

end Tokens

section Escapes

theorem checkEscapes_unpaired (read : Json.readUnit [a, b, c, d] = some (code, [])) (high : isHigh code)
    (other : ∀ tail, rest ≠ 0x5C :: 0x75 :: tail) :
    checkEscapes true (0x5C :: 0x75 :: a :: b :: c :: d :: rest) ≠ .ok () := by
  rw [checkEscapes.eq_def]
  simp [read, high]
  split
  · rw [if_neg]
    · simp
    · rintro ⟨rfl, rfl, _⟩
      exact other _ rfl
  · simp

theorem checkEscapes_inside (content : Content codes raw) :
    checkEscapes true (raw ++ 0x22 :: rest) = .ok () ↔ Paired codes ∧ checkEscapes false rest = .ok () := by
  fun_induction Paired codes generalizing raw with
  | case1 =>
    cases content
    rw [checkEscapes.eq_def]
    simp
  | case2 codes ih =>
    cases content with
    | plain _ notQuote notBackslash content =>
      rw [← ih content, checkEscapes.eq_def]
      simp [notQuote, notBackslash]
    | letter known content =>
      rw [← ih content, checkEscapes.eq_def]
      simp [not_unit known]
  | case3 code high low codes ih =>
    cases content with
    | unit read content =>
      cases content with
      | unit readLow content =>
        rw [and_assoc, ← ih content, checkEscapes.eq_def]
        cases found : isLow low <;> simp [read, high, readLow, found]
  | case4 code codes high unpaired =>
    cases content with
    | unit read content =>
      refine iff_of_false (checkEscapes_unpaired read high ?_) (·.1.elim)
      cases content with
      | unit => exact (unpaired _ _ rfl).elim
      | nil => simp
      | plain _ _ notBackslash => simp [notBackslash]
      | letter known =>
        rintro _ ⟨⟩
        cases known
  | case5 code codes notHigh ih =>
    cases content with
    | unit read content =>
      rw [and_assoc, ← ih content, checkEscapes.eq_def]
      cases found : isLow code <;> simp [read, notHigh, found]

theorem checkEscapes_gap (blank : Blank gap) :
    checkEscapes false (gap ++ rest) = checkEscapes false rest := by
  induction gap with
  | nil => rfl
  | cons byte gap ih =>
    obtain ⟨isSpace, blank⟩ := List.forall_mem_cons.mp blank
    have notQuote : byte ≠ 0x22 := by
      rintro rfl
      cases isSpace
    rw [checkEscapes.eq_def]
    simp [notQuote, ih blank]

theorem Spread.checkEscapes_ok (spread : Spread tokens input) :
    checkEscapes false input = .ok () ↔ ∀ string, .string string ∈ tokens → Paired string.codes := by
  induction spread with
  | @nil gap blank =>
    rw [← List.append_nil gap, checkEscapes_gap blank]
    simp [checkEscapes]
  | mark blank known _ ih =>
    rw [checkEscapes_gap blank, checkEscapes.eq_def]
    simp [marks_solid known, ih]
  | string blank string _ ih =>
    rw [checkEscapes_gap blank, checkEscapes.eq_def]
    simp [checkEscapes_inside string.content, ih]

end Escapes

theorem Spread.length (spread : Spread tokens input) : tokens.length ≤ input.length := by
  induction spread with
  | nil => exact Nat.zero_le _
  | mark => simp; omega
  | string => simp; omega

theorem tagTokens_length (mark : Option UInt8) (tags : List (StringText × StringText)) :
    tags.length < (tagTokens mark tags).length := by
  induction tags generalizing mark with
  | nil => exact Nat.zero_lt_one
  | cons tag tags ih =>
    have := ih (some 0x2C)
    simp [tagTokens]
    omega

/-- The tags are accepted exactly when they are one object of strings with distinct keys and paired surrogates. -/
theorem validateColumnTags_ok_iff (value : Bytes) : validateColumnTags value = .ok () ↔
    ∃ tags, Spread (.mark 0x7B :: tagTokens none tags) value ∧ (tags.map (unquote ·.1.raw)).Nodup ∧
      ∀ string, .string string ∈ tagTokens none tags → Paired string.codes := by
  simp only [validateColumnTags, bind_eq_ok, expect_eq_ok, refuse_eq_ok, not_not]
  constructor
  · rintro ⟨_, paired, rest, opened, left, isRead, after, closed, ended⟩
    have closed := (spread_mark (by decide)).mpr ⟨after, closed, .nil (List.dropWhile_eq_nil_iff.mp ended)⟩
    obtain ⟨tags, _, spread, apart⟩ := (readTags_eq_ok (.inl rfl) .nil).mp ⟨left, isRead, closed⟩
    have spread := (spread_mark (by decide)).mpr ⟨rest, opened, spread⟩
    have paired := spread.checkEscapes_ok.mp paired
    exact ⟨tags, spread, apart, fun string isString => paired string (.tail _ isString)⟩
  · rintro ⟨tags, spread, apart, paired⟩
    have few := (tagTokens_length none tags).trans spread.length
    have checked := spread.checkEscapes_ok.mpr (by simpa using paired)
    obtain ⟨rest, opened, spread⟩ := (spread_mark (by decide)).mp spread
    obtain ⟨left, isRead, closed⟩ := (readTags_eq_ok (.inl rfl) .nil).mpr ⟨tags, few, spread, apart⟩
    obtain ⟨after, closed, ended⟩ := (spread_mark (by decide)).mp closed
    cases ended with
    | nil blank =>
      exact ⟨(), checked, rest, opened, left, isRead, after, closed, List.dropWhile_eq_nil_iff.mpr blank⟩

end VgiWorker.Writable

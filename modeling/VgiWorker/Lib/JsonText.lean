import VgiWorker.Lib.Utf8
import VgiWorker.Lib.Decimal

/-! JSON texts as an encoder writes them, token by token, and what a written text tells about the
values in it. Bytes that are not UTF-8 are written as one replacement escape, whatever they are. -/

namespace JsonText

open Bytes

/-- What the encoder sees at one place of a string. -/
inductive Rune where
  | character (bytes : Bytes)
  | invalid
deriving DecidableEq, Repr

/-- The runes of a string, with one step of fuel for each. -/
def runesFuel : Nat → Bytes → List Rune
  | 0, _ => []
  | _ + 1, [] => []
  | fuel + 1, first :: rest =>
    match Utf8.leading (first :: rest) with
    | some width => .character ((first :: rest).take width) :: runesFuel fuel ((first :: rest).drop width)
    | none => .invalid :: runesFuel fuel rest

def runes (text : Bytes) : List Rune := runesFuel text.length text

theorem runes_eq_nil : runes text = [] ↔ text = [] := by
  cases text with
  | nil => simp [runes, runesFuel]
  | cons =>
    simp only [runes, List.length_cons, runesFuel]
    split <;> simp

/-- The escape of one byte after its backslash. Markup characters are escaped with the controls. -/
def escapeByte (byte : UInt8) : Option Bytes :=
  if byte = 0x22 || byte = 0x5C then some [byte]
  else if byte = 0x08 then some [0x62]
  else if byte = 0x0C then some [0x66]
  else if byte = 0x0A then some [0x6E]
  else if byte = 0x0D then some [0x72]
  else if byte = 0x09 then some [0x74]
  else if byte < 0x20 || byte = 0x3C || byte = 0x3E || byte = 0x26 then
    some [0x75, 0x30, 0x30, hexDigit (byte / 16), hexDigit (byte % 16)]
  else none

def escape : Rune → Option Bytes
  | .invalid => some (ofText "ufffd")
  | .character [byte] => escapeByte byte
  | .character bytes =>
    if bytes = [0xE2, 0x80, 0xA8] then some (ofText "u2028")
    else if bytes = [0xE2, 0x80, 0xA9] then some (ofText "u2029")
    else none

def Rune.bytes : Rune → Bytes
  | .character bytes => bytes
  | .invalid => []

def writeRune (rune : Rune) : Bytes :=
  match escape rune with
  | some code => 0x5C :: code
  | none => rune.bytes

def writeRunes (runes : List Rune) : Bytes := [0x22] ++ runes.flatMap writeRune ++ [0x22]

/-- A character's bytes are one whole character. -/
def Rune.Whole : Rune → Prop
  | .character bytes => Utf8.leading bytes = some bytes.length
  | .invalid => True

theorem runesFuel_whole (fuel : Nat) (text : Bytes) : ∀ rune ∈ runesFuel fuel text, rune.Whole := by
  induction fuel generalizing text with
  | zero => simp [runesFuel]
  | succ fuel ih =>
    cases text with
    | nil => simp [runesFuel]
    | cons =>
      simp only [runesFuel]
      split
      case h_1 width found =>
        have short := Utf8.leading_le_length found
        have whole := Utf8.leading_take found []
        rw [List.forall_mem_cons]
        refine ⟨?_, ih _⟩
        rw [Rune.Whole, List.length_take_of_le short, ← whole, List.append_nil]
      case h_2 =>
        exact List.forall_mem_cons.mpr ⟨trivial, ih _⟩

theorem runes_whole : ∀ rune ∈ runes text, rune.Whole := runesFuel_whole _ text

/-- Without replacements the runes are the text. -/
theorem flatMap_bytes_runesFuel (enough : text.length ≤ fuel) (clean : .invalid ∉ runesFuel fuel text) :
    (runesFuel fuel text).flatMap Rune.bytes = text := by
  induction fuel generalizing text with
  | zero => simp [List.length_eq_zero_iff.mp (Nat.le_zero.mp enough), runesFuel]
  | succ fuel ih =>
    cases text with
    | nil => simp [runesFuel]
    | cons first rest =>
      simp only [runesFuel] at clean ⊢
      split at clean
      case h_1 width found =>
        have moved := Utf8.leading_pos found
        rw [List.mem_cons, not_or] at clean
        rw [List.flatMap_cons, ih (by simp only [List.length_drop] at enough ⊢; omega) clean.2]
        exact List.take_append_drop width (first :: rest)
      case h_2 => simp at clean

theorem runesFuel_ascii (ascii : ∀ byte ∈ text, byte < 0x80) : .invalid ∉ runesFuel fuel text := by
  induction fuel generalizing text with
  | zero => simp [runesFuel]
  | succ fuel ih =>
    cases text with
    | nil => simp [runesFuel]
    | cons first rest =>
      rw [List.forall_mem_cons] at ascii
      have single : Utf8.leading (first :: rest) = some 1 := if_pos ascii.1
      simp only [runesFuel, single, List.mem_cons, not_or]
      exact ⟨nofun, ih ascii.2⟩

/-- A text in ASCII is told from every other by its runes. -/
theorem eq_of_runes_eq_of_ascii (ascii : ∀ byte ∈ left, byte < 0x80) (same : runes left = runes right) :
    left = right := by
  have leftClean : .invalid ∉ runes left := runesFuel_ascii ascii
  have rightClean : .invalid ∉ runes right := same ▸ leftClean
  have leftText : (runes left).flatMap Rune.bytes = left := flatMap_bytes_runesFuel le_rfl leftClean
  have rightText : (runes right).flatMap Rune.bytes = right := flatMap_bytes_runesFuel le_rfl rightClean
  rw [← leftText, same, rightText]

section Escapes

def unescapeByte : Bytes → UInt8
  | [0x62] => 0x08
  | [0x66] => 0x0C
  | [0x6E] => 0x0A
  | [0x72] => 0x0D
  | [0x74] => 0x09
  | [byte] => byte
  | [_, _, _, high, low] => 16 * Bytes.unhex high + Bytes.unhex low
  | _ => 0

def unescape (code : Bytes) : Rune :=
  if code = ofText "ufffd" then .invalid
  else if code = ofText "u2028" then .character [0xE2, 0x80, 0xA8]
  else if code = ofText "u2029" then .character [0xE2, 0x80, 0xA9]
  else .character [unescapeByte code]

/-- The length an escape's first byte announces. -/
def codeWidth (code : Bytes) : Nat := if code.head? = some 0x75 then 5 else 1

theorem escapeByte_spec :
    ∀ code ∈ escapeByte byte, unescape code = .character [byte] ∧ code.length = codeWidth code := by
  have table : ∀ value : Fin 256, ∀ code ∈ escapeByte (UInt8.ofFin value),
      unescape code = .character [UInt8.ofFin value] ∧ code.length = codeWidth code := by
    decide +kernel
  exact table byte.toFin

theorem escape_spec (escaped : escape rune = some code) :
    unescape code = rune ∧ code.length = codeWidth code := by
  unfold escape at escaped
  split at escaped
  · cases escaped
    decide
  · exact escapeByte_spec code escaped
  · split at escaped
    next isSeparator =>
      cases escaped
      subst isSeparator
      decide
    next =>
      split at escaped
      next isSeparator =>
        cases escaped
        subst isSeparator
        decide
      next => cases escaped

theorem codeWidth_append (sized : code.length = codeWidth code) :
    codeWidth (code ++ rest) = codeWidth code := by
  cases code with
  | nil => simp [codeWidth] at sized
  | cons => simp [codeWidth]

theorem escape_append_inj (leftEscaped : escape left = some leftCode) (rightEscaped : escape right = some rightCode)
    (same : leftCode ++ leftRest = rightCode ++ rightRest) : left = right ∧ leftRest = rightRest := by
  obtain ⟨leftRead, leftSized⟩ := escape_spec leftEscaped
  obtain ⟨rightRead, rightSized⟩ := escape_spec rightEscaped
  have widths : leftCode.length = rightCode.length := by
    rw [leftSized, rightSized, ← codeWidth_append leftSized, same, codeWidth_append rightSized]
  obtain ⟨codes, rests⟩ := List.append_inj same widths
  exact ⟨by rw [← leftRead, codes, rightRead], rests⟩

end Escapes

/-- A quote or a backslash is never written bare. -/
theorem bare_first (whole : Rune.Whole (.character bytes)) (bare : escape (.character bytes) = none) :
    ∃ first more, bytes = first :: more ∧ first ≠ 0x22 ∧ first ≠ 0x5C := by
  cases bytes with
  | nil => simp [Rune.Whole, Utf8.leading] at whole
  | cons first more =>
    refine ⟨first, more, rfl, ?_, ?_⟩
    · rintro rfl
      have single : more = [] := by simpa [Rune.Whole, Utf8.leading] using whole
      subst single
      exact absurd bare (by decide)
    · rintro rfl
      have single : more = [] := by simpa [Rune.Whole, Utf8.leading] using whole
      subst single
      exact absurd bare (by decide)

theorem character_append_inj (leftWhole : Rune.Whole (.character left)) (rightWhole : Rune.Whole (.character right))
    (same : left ++ leftRest = right ++ rightRest) : left = right ∧ leftRest = rightRest := by
  have widths : left.length = right.length := by
    apply Option.some.inj
    rw [← Utf8.leading_take leftWhole leftRest, ← Utf8.leading_take rightWhole rightRest,
      List.take_length, List.take_length, same]
  exact List.append_inj same widths

theorem writeRune_first (whole : rune.Whole) : ∃ first more, writeRune rune = first :: more ∧ first ≠ 0x22 := by
  cases escaped : escape rune with
  | some code => exact ⟨0x5C, code, by simp [writeRune, escaped], by decide⟩
  | none =>
    cases rune with
    | invalid => cases escaped
    | character =>
      obtain ⟨first, more, rfl, notQuote, _⟩ := bare_first whole escaped
      exact ⟨first, more, by simp [writeRune, escaped, Rune.bytes], notQuote⟩

theorem writeRune_append_inj (leftWhole : left.Whole) (rightWhole : right.Whole)
    (same : writeRune left ++ leftRest = writeRune right ++ rightRest) :
    left = right ∧ leftRest = rightRest := by
  cases leftEscaped : escape left with
  | some =>
    cases rightEscaped : escape right with
    | some =>
      simp only [writeRune, leftEscaped, rightEscaped, List.cons_append, List.cons.injEq, true_and] at same
      exact escape_append_inj leftEscaped rightEscaped same
    | none =>
      cases right with
      | invalid => cases rightEscaped
      | character =>
        obtain ⟨_, _, rfl, _, notBackslash⟩ := bare_first rightWhole rightEscaped
        simp [writeRune, leftEscaped, rightEscaped, Rune.bytes, notBackslash.symm] at same
  | none =>
    cases left with
    | invalid => cases leftEscaped
    | character =>
      cases rightEscaped : escape right with
      | some =>
        obtain ⟨_, _, rfl, _, notBackslash⟩ := bare_first leftWhole leftEscaped
        simp [writeRune, leftEscaped, rightEscaped, Rune.bytes, notBackslash] at same
      | none =>
        cases right with
        | invalid => cases rightEscaped
        | character =>
          simp only [writeRune, leftEscaped, rightEscaped] at same
          obtain ⟨bytes, rests⟩ := character_append_inj leftWhole rightWhole same
          exact ⟨by rw [bytes], rests⟩

/-- A written string is told from what follows it, and shows its runes. -/
theorem writeRunes_append_inj (leftWhole : ∀ rune ∈ left, rune.Whole) (rightWhole : ∀ rune ∈ right, rune.Whole)
    (same : writeRunes left ++ leftRest = writeRunes right ++ rightRest) :
    left = right ∧ leftRest = rightRest := by
  simp only [writeRunes, List.append_assoc, List.cons_append, List.cons.injEq, true_and] at same
  induction left generalizing right with
  | nil =>
    cases right with
    | nil => simpa using same
    | cons rune =>
      obtain ⟨_, _, written, notQuote⟩ := writeRune_first (rightWhole rune List.mem_cons_self)
      simp [written, notQuote.symm] at same
  | cons rune left ih =>
    cases right with
    | nil =>
      obtain ⟨_, _, written, notQuote⟩ := writeRune_first (leftWhole rune List.mem_cons_self)
      simp [written, notQuote] at same
    | cons =>
      rw [List.forall_mem_cons] at leftWhole rightWhole
      simp only [List.flatMap_cons, List.append_assoc] at same
      obtain ⟨heads, tails⟩ := writeRune_append_inj leftWhole.1 rightWhole.1 same
      obtain ⟨others, rests⟩ := ih leftWhole.2 rightWhole.2 tails
      exact ⟨by rw [heads, others], rests⟩

section Documents

inductive Mark where
  | openArray | closeArray | openObject | closeObject | colon | comma
deriving DecidableEq, Repr

def Mark.byte : Mark → UInt8
  | .openArray => 0x5B
  | .closeArray => 0x5D
  | .openObject => 0x7B
  | .closeObject => 0x7D
  | .colon => 0x3A
  | .comma => 0x2C

/-- A piece of a written document, over the strings it holds. -/
inductive Token (τ : Type) where
  | mark (symbol : Mark)
  | text (content : τ)
  | int (value : Int)
  | bool (value : Bool)
deriving DecidableEq, Repr

def Token.map (f : τ → υ) : Token τ → Token υ
  | .mark symbol => .mark symbol
  | .text content => .text (f content)
  | .int value => .int value
  | .bool value => .bool value

def Token.write : Token (List Rune) → Bytes
  | .mark symbol => [symbol.byte]
  | .text content => writeRunes content
  | .int value => Decimal.intText value
  | .bool value => ofText (if value then "true" else "false")

/-- What a reader of the written document sees: strings as runes. -/
def seen (document : List (Token Bytes)) : List (Token (List Rune)) := document.map (Token.map runes)

def write (document : List (Token Bytes)) : Bytes := (seen document).flatMap Token.write

def array (items : List (List (Token Bytes))) : List (Token Bytes) :=
  [.mark .openArray] ++ [.mark .comma].intercalate items ++ [.mark .closeArray]

def member (name : String) (value : List (Token Bytes)) : List (Token Bytes) :=
  [.text (ofText name), .mark .colon] ++ value

def object (members : List (List (Token Bytes))) : List (Token Bytes) :=
  [.mark .openObject] ++ [.mark .comma].intercalate members ++ [.mark .closeObject]

inductive Kind where
  | mark | text | int | bool
deriving DecidableEq

def Token.kind : Token τ → Kind
  | .mark _ => .mark
  | .text _ => .text
  | .int _ => .int
  | .bool _ => .bool

/-- The kind of token a byte starts. -/
def kindAt (first : UInt8) : Kind :=
  if first = 0x22 then .text
  else if first = 0x2D || isDigit first then .int
  else if first = 0x74 || first = 0x66 then .bool
  else .mark

def Token.Whole : Token (List Rune) → Prop
  | .text content => ∀ rune ∈ content, rune.Whole
  | _ => True

/-- A number is never at the end and never next to another word. -/
def Spaced : List (Token τ) → Prop
  | [] => True
  | .int _ :: rest => (∃ mark more, rest = .mark mark :: more) ∧ Spaced rest
  | _ :: rest => Spaced rest

theorem Spaced.tail (spaced : Spaced (token :: rest)) : Spaced rest := by
  cases token with
  | int => exact spaced.2
  | mark | text | bool => exact spaced

theorem spaced_map (spaced : Spaced document) : Spaced (document.map (Token.map f)) := by
  induction document with
  | nil => trivial
  | cons token rest ih =>
    have others := ih spaced.tail
    cases token with
    | int =>
      obtain ⟨⟨mark, _, rfl⟩, _⟩ := spaced
      exact ⟨⟨mark, _, rfl⟩, others⟩
    | mark | text | bool => exact others

theorem seen_whole : ∀ token ∈ seen document, token.Whole := by
  intro _ member
  obtain ⟨source, _, rfl⟩ := List.mem_map.mp member
  cases source with
  | text => exact runes_whole
  | mark | int | bool => trivial

theorem Token.write_first (token : Token (List Rune)) :
    ∃ first more, token.write = first :: more ∧ kindAt first = token.kind := by
  cases token with
  | mark symbol => exact ⟨symbol.byte, [], rfl, by cases symbol <;> decide⟩
  | text => exact ⟨0x22, _, rfl, rfl⟩
  | bool value =>
    cases value with
    | true => exact ⟨0x74, _, rfl, by decide⟩
    | false => exact ⟨0x66, _, rfl, by decide⟩
  | int value =>
    by_cases negative : value < 0
    · exact ⟨0x2D, _, by simp only [Token.write, Decimal.intText, if_pos negative]; rfl, rfl⟩
    · obtain ⟨first, more, digits⟩ := List.exists_cons_of_ne_nil (Decimal.digitsOf_ne_nil value.natAbs)
      have decimal := Decimal.digitsOf_isDigit value.natAbs first (by simp [digits])
      have notQuote : first ≠ 0x22 := by
        rintro rfl
        exact absurd decimal (by decide)
      exact ⟨first, more, by simp [Token.write, Decimal.intText, negative, digits],
        by simp [kindAt, Token.kind, notQuote, decimal]⟩

theorem Mark.byte_injective {left right : Mark} (same : left.byte = right.byte) : left = right := by
  cases left <;> cases right <;> first | rfl | exact absurd same (by decide)

theorem ended_of_mark {mark : Mark} : Decimal.Ended (mark.byte :: rest) := by
  intro _ member
  cases member
  cases mark <;> decide

/-- The first tokens of two documents with the same text are the same token. -/
theorem Token.write_append_inj {left right : Token (List Rune)} (leftWhole : left.Whole) (rightWhole : right.Whole)
    (leftSpaced : Spaced (left :: leftRest)) (rightSpaced : Spaced (right :: rightRest))
    (same : left.write ++ leftRest.flatMap Token.write = right.write ++ rightRest.flatMap Token.write) :
    left = right ∧ leftRest.flatMap Token.write = rightRest.flatMap Token.write := by
  have kinds : left.kind = right.kind := by
    obtain ⟨_, _, leftText, leftKind⟩ := left.write_first
    obtain ⟨_, _, rightText, rightKind⟩ := right.write_first
    rw [leftText, rightText, List.cons_append, List.cons_append, List.cons.injEq] at same
    rw [← leftKind, same.1, rightKind]
  cases left <;> cases right <;> simp only [Token.kind, reduceCtorEq] at kinds
  case mark.mark left right =>
    simp only [Token.write, List.cons_append, List.cons.injEq] at same
    exact ⟨by rw [Mark.byte_injective same.1], same.2⟩
  case text.text left right =>
    obtain ⟨runes, rests⟩ := writeRunes_append_inj leftWhole rightWhole same
    exact ⟨by rw [runes], rests⟩
  case int.int left right =>
    obtain ⟨⟨_, _, rfl⟩, _⟩ := leftSpaced
    obtain ⟨⟨_, _, rfl⟩, _⟩ := rightSpaced
    obtain ⟨values, rests⟩ := Decimal.intText_append_inj ended_of_mark ended_of_mark same
    exact ⟨by rw [values], rests⟩
  case bool.bool left right =>
    cases left <;> cases right
    · exact ⟨rfl, List.append_cancel_left same⟩
    · exact absurd (List.cons.inj same).1 (by decide)
    · exact absurd (List.cons.inj same).1 (by decide)
    · exact ⟨rfl, List.append_cancel_left same⟩

theorem writes_inj (leftWhole : ∀ token ∈ left, token.Whole) (rightWhole : ∀ token ∈ right, token.Whole)
    (leftSpaced : Spaced left) (rightSpaced : Spaced right)
    (same : left.flatMap Token.write = right.flatMap Token.write) : left = right := by
  induction left generalizing right with
  | nil =>
    cases right with
    | nil => rfl
    | cons token =>
      obtain ⟨_, _, text, _⟩ := token.write_first
      simp [text] at same
  | cons token left ih =>
    cases right with
    | nil =>
      obtain ⟨_, _, text, _⟩ := token.write_first
      simp [text] at same
    | cons =>
      rw [List.forall_mem_cons] at leftWhole rightWhole
      obtain ⟨heads, tails⟩ := Token.write_append_inj leftWhole.1 rightWhole.1 leftSpaced rightSpaced same
      rw [heads, ih leftWhole.2 rightWhole.2 leftSpaced.tail rightSpaced.tail tails]

/-- Two documents have the same text exactly when a reader sees the same in both. -/
theorem write_inj (leftSpaced : Spaced left) (rightSpaced : Spaced right) :
    write left = write right ↔ seen left = seen right := by
  constructor
  · exact writes_inj (seen_whole) (seen_whole) (spaced_map leftSpaced)
      (spaced_map rightSpaced)
  · intro same
    rw [write, write, same]

end Documents

end JsonText

import VgiWorker.Lib.Utf8
import Mathlib.Data.List.Nodup

/-! JSON texts as a decoder reads them: one value from the front of the input. Members keep their
order and repetitions, numbers their spelling. -/

/-- `gap` is the white space after the opening brace. -/
inductive Json where
  | null
  | bool (value : Bool)
  | number (literal : Bytes)
  | string (text : Bytes)
  | array (items : List Json)
  | object (gap : Bytes) (members : List (Bytes × Json))
deriving Repr

namespace Json

open Bytes

def isSpace (byte : UInt8) : Bool := byte = 0x20 || byte = 0x09 || byte = 0x0A || byte = 0x0D

def skipSpace (input : Bytes) : Bytes := input.dropWhile isSpace

def hexValue (byte : UInt8) : Option Nat :=
  if isDigit byte then some (byte.toNat - 0x30)
  else if Utf8.within 0x61 0x66 byte then some (byte.toNat - 0x57)
  else if Utf8.within 0x41 0x46 byte then some (byte.toNat - 0x37)
  else none

/-- The four hexadecimal digits of an escaped code unit. -/
def readUnit : Bytes → Option (Nat × Bytes)
  | a :: b :: c :: d :: rest => do
    return ((((← hexValue a) * 16 + (← hexValue b)) * 16 + (← hexValue c)) * 16 + (← hexValue d), rest)
  | _ => none

def isSurrogate (unit : Nat) : Bool := 0xD800 ≤ unit && unit < 0xE000

/-- The character of an escaped code unit: a surrogate stands for one only in a pair. -/
def readRune (unit : Nat) (rest : Bytes) : Bytes × Bytes :=
  if isSurrogate unit then
    match rest with
    | 0x5C :: 0x75 :: more =>
      match readUnit more with
      | some (low, after) =>
        if unit < 0xDC00 && 0xDC00 ≤ low && low < 0xE000 then
          (Utf8.encodeRune (0x10000 + (unit - 0xD800) * 0x400 + (low - 0xDC00)), after)
        else (Utf8.replacement, rest)
      | none => (Utf8.replacement, rest)
    | _ => (Utf8.replacement, rest)
  else (Utf8.encodeRune unit, rest)

def escaped (byte : UInt8) : Option UInt8 :=
  if byte = 0x22 || byte = 0x5C || byte = 0x2F then some byte
  else if byte = 0x62 then some 0x08
  else if byte = 0x66 then some 0x0C
  else if byte = 0x6E then some 0x0A
  else if byte = 0x72 then some 0x0D
  else if byte = 0x74 then some 0x09
  else none

/-- The rest of a string after its opening quote, unescaped; bytes that are not UTF-8 are replaced. -/
def readText : Nat → Bytes → Option (Bytes × Bytes)
  | 0, _ => none
  | _ + 1, [] => none
  | fuel + 1, byte :: rest =>
    if byte = 0x22 then some ([], rest)
    else if byte = 0x5C then
      match rest with
      | 0x75 :: digits => do
        let (unit, rest) ← readUnit digits
        let (rune, rest) := readRune unit rest
        let (text, rest) ← readText fuel rest
        return (rune ++ text, rest)
      | letter :: rest => do
        let character ← escaped letter
        let (text, rest) ← readText fuel rest
        return (character :: text, rest)
      | [] => none
    else if byte < 0x20 then none
    else
      match Utf8.leading (byte :: rest) with
      | some width => do
        let (text, after) ← readText fuel ((byte :: rest).drop width)
        return ((byte :: rest).take width ++ text, after)
      | none => do
        let (text, after) ← readText fuel rest
        return (Utf8.replacement ++ text, after)

/-- One or more digits. -/
def readDigits (input : Bytes) : Option (Bytes × Bytes) :=
  let digits := input.takeWhile isDigit
  if digits = [] then none else some (digits, input.dropWhile isDigit)

def readFraction : Bytes → Option (Bytes × Bytes)
  | 0x2E :: rest => do
    let (digits, rest) ← readDigits rest
    return (0x2E :: digits, rest)
  | input => some ([], input)

def readExponent : Bytes → Option (Bytes × Bytes)
  | mark :: rest =>
    if mark = 0x65 || mark = 0x45 then
      match rest with
      | 0x2B :: rest => (readDigits rest).map fun (digits, rest) => (mark :: 0x2B :: digits, rest)
      | 0x2D :: rest => (readDigits rest).map fun (digits, rest) => (mark :: 0x2D :: digits, rest)
      | rest => (readDigits rest).map fun (digits, rest) => (mark :: digits, rest)
    else some ([], mark :: rest)
  | [] => some ([], [])

def readUnsigned : Bytes → Option (Bytes × Bytes)
  | 0x30 :: rest => some ([0x30], rest)
  | input => readDigits input

def readNumber (input : Bytes) : Option (Bytes × Bytes) := do
  let (sign, rest) : Bytes × Bytes := match input with
    | 0x2D :: rest => ([0x2D], rest)
    | rest => ([], rest)
  let (whole, rest) ← readUnsigned rest
  let (fraction, rest) ← readFraction rest
  let (exponent, rest) ← readExponent rest
  return (sign ++ whole ++ fraction ++ exponent, rest)

def readWord (word : String) (value : Json) (input : Bytes) : Option (Json × Bytes) :=
  (input.dropPrefix? (Bytes.ofText word)).map fun rest => (value, rest)

mutual

/-- `depth` is how many more arrays and objects may be opened. -/
def readValue : Nat → Nat → Bytes → Option (Json × Bytes)
  | 0, _, _ => none
  | fuel + 1, depth, input =>
    match skipSpace input with
    | [] => none
    | byte :: rest =>
      if byte = 0x7B then
        match depth with
        | 0 => none
        | depth + 1 =>
          match skipSpace rest with
          | 0x7D :: after => some (.object (rest.takeWhile isSpace) [], after)
          | _ => (readMembers fuel depth rest).map fun (members, after) =>
            (.object (rest.takeWhile isSpace) members, after)
      else if byte = 0x5B then
        match depth with
        | 0 => none
        | depth + 1 =>
          match skipSpace rest with
          | 0x5D :: after => some (.array [], after)
          | _ => (readItems fuel depth rest).map fun (items, after) => (.array items, after)
      else if byte = 0x22 then
        (readText (rest.length + 1) rest).map fun (text, after) => (.string text, after)
      else if byte = 0x74 then readWord "true" (.bool true) (byte :: rest)
      else if byte = 0x66 then readWord "false" (.bool false) (byte :: rest)
      else if byte = 0x6E then readWord "null" .null (byte :: rest)
      else (readNumber (byte :: rest)).map fun (literal, after) => (.number literal, after)

def readItems : Nat → Nat → Bytes → Option (List Json × Bytes)
  | 0, _, _ => none
  | fuel + 1, depth, input =>
    match readValue fuel depth input with
    | none => none
    | some (item, rest) =>
      match skipSpace rest with
      | 0x2C :: rest => (readItems fuel depth rest).map fun (items, after) => (item :: items, after)
      | 0x5D :: after => some ([item], after)
      | _ => none

def readMembers : Nat → Nat → Bytes → Option (List (Bytes × Json) × Bytes)
  | 0, _, _ => none
  | fuel + 1, depth, input =>
    match skipSpace input with
    | 0x22 :: rest =>
      match readText (rest.length + 1) rest with
      | none => none
      | some (key, rest) =>
        match skipSpace rest with
        | 0x3A :: rest =>
          match readValue fuel depth rest with
          | none => none
          | some (value, rest) =>
            match skipSpace rest with
            | 0x2C :: rest =>
              (readMembers fuel depth rest).map fun (members, after) => ((key, value) :: members, after)
            | 0x7D :: after => some ([(key, value)], after)
            | _ => none
        | _ => none
    | _ => none

end

def maxNestingDepth : Nat := 10000

/-- The value at the front of the input and what follows it. -/
def read (input : Bytes) : Option (Json × Bytes) := readValue (2 * input.length + 2) maxNestingDepth input

def natOfDigits (digits : Bytes) : Nat := digits.foldl (fun value digit => value * 10 + (digit.toNat - 0x30)) 0

/-- An unsigned integer below 2^64, spelled in digits only. -/
def parseUint (literal : Bytes) : Option UInt64 :=
  if literal ≠ [] && literal.all isDigit && natOfDigits literal < 2 ^ 64 then some (.ofNat (natOfDigits literal))
  else none

/-- A signed 64-bit integer, spelled in digits with an optional minus. -/
def parseInt (literal : Bytes) : Option Int64 :=
  match literal with
  | 0x2D :: digits =>
    if digits ≠ [] && digits.all isDigit && natOfDigits digits ≤ 2 ^ 63 then
      some (.ofInt (-(natOfDigits digits : Int)))
    else none
  | digits =>
    if digits ≠ [] && digits.all isDigit && natOfDigits digits < 2 ^ 63 then some (.ofInt (natOfDigits digits))
    else none

/-- The literal is too large for a 64-bit float: it rounds to an infinity. -/
def overflowsFloat (literal : Bytes) : Bool :=
  let unsigned := literal.dropWhile (· = 0x2D)
  let whole := unsigned.takeWhile isDigit
  let (fraction, rest) := (readFraction (unsigned.dropWhile isDigit)).getD ([], [])
  let digits := (whole ++ fraction.drop 1).dropWhile (· = 0x30)
  let power : Int := (match rest.drop 1 with
    | 0x2D :: exponent => -(natOfDigits exponent : Int)
    | 0x2B :: exponent => natOfDigits exponent
    | exponent => natOfDigits exponent) - (fraction.drop 1).length
  let size := (digits.length : Int) + power
  -- The bound is a whole number of 309 digits, so only sizes near it need the exact comparison.
  if digits = [] || size < 309 then false
  else if 309 < size then true
  else if 0 ≤ power then 2 ^ 1024 - 2 ^ 970 ≤ natOfDigits digits * 10 ^ power.toNat
  else (2 ^ 1024 - 2 ^ 970) * 10 ^ (-power).toNat ≤ natOfDigits digits

/-- Decoding into a variable that holds `old`: null leaves it alone, another kind fails. -/
def intoText (old : Bytes) : Json → Option Bytes
  | string text => some text
  | null => some old
  | _ => none

def intoBool (old : Bool) : Json → Option Bool
  | bool value => some value
  | null => some old
  | _ => none

def intoUint64 (old : UInt64) : Json → Option UInt64
  | number literal => parseUint literal
  | null => some old
  | _ => none

def intoInt (old : Int64) : Json → Option Int64
  | number literal => parseInt literal
  | null => some old
  | _ => none

/-- Null decodes to the nil list. -/
def intoList : Json → Option (Option (List Json))
  | array items => some (some items)
  | null => some none
  | _ => none

def intoMap : Json → Option (Option (List (Bytes × Json)))
  | object _ members => some (some members)
  | null => some none
  | _ => none

/-- Names of record fields are matched exactly, or else without case; the long s and the Kelvin
sign fold to letters. -/
def foldName : Bytes → Bytes
  | 0xC5 :: 0xBF :: rest => 0x53 :: foldName rest
  | 0xE2 :: 0x84 :: 0xAA :: rest => 0x4B :: foldName rest
  | byte :: rest => (if Utf8.within 0x61 0x7A byte then byte - 0x20 else byte) :: foldName rest
  | [] => []

def fieldNamed (names : List Bytes) (key : Bytes) : Option Bytes :=
  if key ∈ names then some key else names.find? fun name => foldName name = foldName key

/-- When no two names fold alike, a key names the field it folds to. -/
theorem fieldNamed_eq_some_iff (distinct : (names.map foldName).Nodup) :
    fieldNamed names key = some name ↔ name ∈ names ∧ foldName name = foldName key := by
  have unique : ∀ first ∈ names, ∀ second ∈ names, foldName first = foldName second → first = second :=
    fun _ left _ right => List.inj_on_of_nodup_map distinct left right
  unfold fieldNamed
  split
  · rename_i member
    rw [Option.some.injEq]
    constructor
    · intro same
      subst same
      exact ⟨member, rfl⟩
    · rintro ⟨present, folds⟩
      exact (unique _ present _ member folds).symm
  · constructor
    · intro found
      exact ⟨List.mem_of_find?_eq_some found, by simpa using List.find?_some found⟩
    · rintro ⟨present, folds⟩
      cases found : names.find? fun name => decide (foldName name = foldName key) with
      | none => exact absurd folds (by simpa using List.find?_eq_none.mp found name present)
      | some other =>
        have same : foldName other = foldName key := by simpa using List.find?_some found
        rw [unique _ (List.mem_of_find?_eq_some found) _ present (same.trans folds.symm)]

mutual

/-- The check holds of a value and of every value in it. -/
def everywhere (check : Json → Bool) : Json → Bool
  | array items => check (array items) && everywhereItems check items
  | object gap members => check (object gap members) && everywhereMembers check members
  | value => check value

def everywhereItems (check : Json → Bool) : List Json → Bool
  | [] => true
  | item :: items => everywhere check item && everywhereItems check items

def everywhereMembers (check : Json → Bool) : List (Bytes × Json) → Bool
  | [] => true
  | (_, value) :: members => everywhere check value && everywhereMembers check members

end

theorem everywhereItems_iff :
    everywhereItems check items = true ↔ ∀ item ∈ items, item.everywhere check = true := by
  induction items with
  | nil => simp [everywhereItems]
  | cons item items ih => rw [everywhereItems, Bool.and_eq_true, ih, List.forall_mem_cons]

theorem everywhereMembers_iff :
    everywhereMembers check members = true ↔ ∀ member ∈ members, member.2.everywhere check = true := by
  induction members with
  | nil => simp [everywhereMembers]
  | cons member members ih => rw [everywhereMembers, Bool.and_eq_true, ih, List.forall_mem_cons]

/-- More input follows, as a streaming decoder sees it: a closing bracket counts as the end. -/
def hasMore (rest : Bytes) : Bool :=
  match skipSpace rest with
  | [] => false
  | byte :: _ => byte ≠ 0x5D && byte ≠ 0x7D

end Json

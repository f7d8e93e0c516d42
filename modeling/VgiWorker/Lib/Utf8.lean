import VgiWorker.Lib.Bytes

/-! Well-formed UTF-8: shortest forms only, no surrogates, nothing above U+10FFFF. -/

namespace Utf8

def within (low high byte : UInt8) : Bool := low ≤ byte && byte ≤ high

def continues (byte : UInt8) : Bool := within 0x80 0xBF byte

/-- The range the second byte of a longer character must lie in, given the first. -/
def secondRange (first : UInt8) : UInt8 × UInt8 :=
  if first = 0xE0 then (0xA0, 0xBF)
  else if first = 0xED then (0x80, 0x9F)
  else if first = 0xF0 then (0x90, 0xBF)
  else if first = 0xF4 then (0x80, 0x8F)
  else (0x80, 0xBF)

def secondOk (first second : UInt8) : Bool := within (secondRange first).1 (secondRange first).2 second

/-- Decide well-formedness with one step of fuel for each character. -/
def validFuel : Nat → Bytes → Bool
  | _, [] => true
  | 0, _ :: _ => false
  | fuel + 1, first :: rest =>
    if first < 0x80 then validFuel fuel rest
    else if within 0xC2 0xDF first then
      match rest with
      | second :: rest => secondOk first second && validFuel fuel rest
      | [] => false
    else if within 0xE0 0xEF first then
      match rest with
      | second :: third :: rest => secondOk first second && continues third && validFuel fuel rest
      | _ => false
    else if within 0xF0 0xF4 first then
      match rest with
      | second :: third :: fourth :: rest =>
        secondOk first second && continues third && continues fourth && validFuel fuel rest
      | _ => false
    else false

def valid (text : Bytes) : Bool := validFuel text.length text

/-- The number of bytes of the well-formed character at the front, if there is one. -/
def leading : Bytes → Option Nat
  | [] => none
  | first :: rest =>
    if first < 0x80 then some 1
    else if within 0xC2 0xDF first then
      match rest with
      | second :: _ => if secondOk first second then some 2 else none
      | [] => none
    else if within 0xE0 0xEF first then
      match rest with
      | second :: third :: _ => if secondOk first second && continues third then some 3 else none
      | _ => none
    else if within 0xF0 0xF4 first then
      match rest with
      | second :: third :: fourth :: _ =>
        if secondOk first second && continues third && continues fourth then some 4 else none
      | _ => none
    else none

/-- The bytes of a code point. -/
def encodeRune (rune : Nat) : Bytes :=
  let tail (shift : Nat) : UInt8 := UInt8.ofNat (0x80 + rune / 2 ^ shift % 0x40)
  if rune < 0x80 then [UInt8.ofNat rune]
  else if rune < 0x800 then [UInt8.ofNat (0xC0 + rune / 2 ^ 6), tail 0]
  else if rune < 0x10000 then [UInt8.ofNat (0xE0 + rune / 2 ^ 12), tail 6, tail 0]
  else [UInt8.ofNat (0xF0 + rune / 2 ^ 18), tail 12, tail 6, tail 0]

/-- U+FFFD. -/
def replacement : Bytes := [0xEF, 0xBF, 0xBD]

theorem validFuel_of_ascii (enough : text.length ≤ fuel) (ascii : ∀ byte ∈ text, byte < 0x80) :
    validFuel fuel text = true := by
  induction text generalizing fuel with
  | nil => cases fuel <;> rfl
  | cons first rest ih =>
    cases fuel with
    | zero => simp at enough
    | succ =>
      have small : first < 0x80 := ascii first List.mem_cons_self
      have others : ∀ byte ∈ rest, byte < 0x80 := fun byte member => ascii byte (List.mem_cons_of_mem _ member)
      simp only [validFuel, if_pos small]
      exact ih (by simpa using enough) others

theorem valid_of_ascii (ascii : ∀ byte ∈ text, byte < 0x80) : valid text = true :=
  validFuel_of_ascii le_rfl ascii

/-- A character at the front is read the same whatever follows it. -/
theorem leading_take (found : leading text = some width) (after : Bytes) :
    leading (text.take width ++ after) = some width := by
  rcases text with _ | ⟨_, _ | ⟨_, _ | ⟨_, _ | ⟨_⟩⟩⟩⟩ <;>
    (unfold leading at found ⊢; grind)

theorem leading_pos (found : leading text = some width) : 0 < width := by
  unfold leading at found
  grind

theorem leading_le_length (found : leading text = some width) : width ≤ text.length := by
  unfold leading at found
  grind

end Utf8

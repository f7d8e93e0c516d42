import Mathlib.Data.List.Lex
import Mathlib.Tactic.Ring

/-! Byte strings and their little-endian words. -/

abbrev Bytes := List UInt8

/-- Bytes are compared as numbers, byte strings one byte after the other. -/
instance byteLinearOrder : LinearOrder UInt8 where
  le_refl _ := UInt8.le_refl _
  le_trans _ _ _ := UInt8.le_trans
  le_antisymm _ _ := UInt8.le_antisymm
  le_total := UInt8.le_total
  lt_iff_le_not_ge left right := by
    rw [UInt8.lt_iff_toNat_lt, UInt8.le_iff_toNat_le, UInt8.le_iff_toNat_le]
    omega
  toDecidableLE := inferInstance

instance Bytes.lawfulBEq : LawfulBEq Bytes := inferInstance

instance Bytes.decidableBAll (holds : UInt8 → Prop) [DecidablePred holds] (bytes : Bytes) :
    Decidable (∀ byte ∈ bytes, holds byte) := List.decidableBAll holds bytes

namespace Bytes

/-- The UTF-8 bytes of a text. -/
def ofText (text : String) : Bytes := text.toByteArray.data.toList

theorem ofText_inj {first second : String} : ofText first = ofText second ↔ first = second := by
  constructor
  · intro same
    apply String.toByteArray_inj.mp
    exact ByteArray.ext (Array.toList_inj.mp same)
  · rintro rfl
    rfl

def isDigit (byte : UInt8) : Bool := 0x30 ≤ byte && byte ≤ 0x39

def hexDigit (value : UInt8) : UInt8 := if value < 10 then 0x30 + value else 0x57 + value

/-- Two lower-case hexadecimal digits for each byte. -/
def hexEncode (data : Bytes) : Bytes := data.flatMap fun byte => [hexDigit (byte / 16), hexDigit (byte % 16)]

def unhex (digit : UInt8) : UInt8 := if digit < 0x3A then digit - 0x30 else digit - 0x57

def hexDecode : Bytes → Bytes
  | high :: low :: rest => (16 * unhex high + unhex low) :: hexDecode rest
  | _ => []

theorem hexEncode_cons (byte : UInt8) (data : Bytes) :
    hexEncode (byte :: data) = hexEncode [byte] ++ hexEncode data := by
  simp [hexEncode]

theorem digit_of_mem_hexEncode {data : Bytes} {digit : UInt8} (member : digit ∈ hexEncode data) :
    (0x30 ≤ digit ∧ digit ≤ 0x39) ∨ (0x61 ≤ digit ∧ digit ≤ 0x66) := by
  have digits : ∀ value < 256, ((hexEncode [UInt8.ofNat value]).all fun digit =>
      (0x30 ≤ digit ∧ digit ≤ 0x39) ∨ (0x61 ≤ digit ∧ digit ≤ 0x66)) = true := by
    decide +kernel
  induction data with
  | nil => cases member
  | cons byte data ih =>
    rw [hexEncode_cons, List.mem_append] at member
    rcases member with first | later
    · have known := digits byte.toNat byte.toNat_lt
      rw [UInt8.ofNat_toNat, List.all_eq_true] at known
      exact of_decide_eq_true (known digit first)
    · exact ih later

theorem length_hexEncode (data : Bytes) : (hexEncode data).length = 2 * data.length := by
  induction data with
  | nil => rfl
  | cons byte data ih =>
    simp [hexEncode]
    omega

theorem hexDecode_hexEncode (data : Bytes) : hexDecode (hexEncode data) = data := by
  have digits : ∀ value : Fin 256, ∃ high low, hexEncode [UInt8.ofFin value] = [high, low] ∧
      16 * unhex high + unhex low = UInt8.ofFin value := by
    intro value
    refine ⟨_, _, rfl, ?_⟩
    revert value
    decide +kernel
  induction data with
  | nil => rfl
  | cons byte data ih =>
    obtain ⟨high, low, written, read⟩ := digits byte.toFin
    rw [hexEncode_cons, show hexEncode [byte] = [high, low] from written, List.cons_append, List.cons_append,
      hexDecode, read]
    exact congrArg (byte :: ·) ih

theorem hexEncode_injective : Function.Injective hexEncode := Function.LeftInverse.injective hexDecode_hexEncode

/-- The low `width` bytes of `value`, least significant first. -/
def littleEndian : Nat → Nat → Bytes
  | 0, _ => []
  | width + 1, value => UInt8.ofNat value :: littleEndian width (value / 256)

def readLittleEndian : Bytes → Nat
  | [] => 0
  | low :: rest => low.toNat + 256 * readLittleEndian rest

@[simp] theorem length_littleEndian (width value : Nat) :
    (littleEndian width value).length = width := by
  induction width generalizing value with
  | zero => rfl
  | succ width ih => simp [littleEndian, ih]

theorem readLittleEndian_littleEndian : readLittleEndian (littleEndian width value) = value % 256 ^ width := by
  induction width generalizing value with
  | zero => simp [littleEndian, readLittleEndian, Nat.mod_one]
  | succ width ih =>
    have low : (UInt8.ofNat value).toNat = value % 256 := by simp
    rw [littleEndian, readLittleEndian, ih, low, pow_succ', Nat.mod_mul]

theorem readLittleEndian_of_lt {width value : Nat} (small : value < 256 ^ width) :
    readLittleEndian (littleEndian width value) = value := by
  rw [readLittleEndian_littleEndian, Nat.mod_eq_of_lt small]

theorem readLittleEndian_lt (data : Bytes) : readLittleEndian data < 256 ^ data.length := by
  induction data with
  | nil => simp [readLittleEndian]
  | cons low =>
    have small := low.toNat_lt
    rw [readLittleEndian, List.length_cons]
    omega

/-- Every byte string is the word it reads as, written at its own width. -/
theorem littleEndian_readLittleEndian (data : Bytes) :
    littleEndian data.length (readLittleEndian data) = data := by
  induction data with
  | nil => rfl
  | cons low rest ih =>
    have small := low.toNat_lt
    have head : UInt8.ofNat (low.toNat + 256 * readLittleEndian rest) = low := by
      apply UInt8.toNat_inj.mp
      rw [UInt8.toNat_ofNat']
      omega
    have tail : (low.toNat + 256 * readLittleEndian rest) / 256 = readLittleEndian rest := by
      omega
    rw [readLittleEndian, List.length_cons, littleEndian, head, tail, ih]

/-- Words that fit are told apart by their bytes. -/
theorem littleEndian_injective {width left right : Nat} (leftSmall : left < 256 ^ width)
    (rightSmall : right < 256 ^ width)
    (same : littleEndian width left = littleEndian width right) : left = right := by
  rw [← readLittleEndian_of_lt leftSmall, same, readLittleEndian_of_lt rightSmall]

end Bytes

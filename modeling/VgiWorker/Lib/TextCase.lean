import VgiWorker.Lib.Bytes

/-! Unicode case mapping of byte texts. The character tables are a parameter; on ASCII they are
known. -/

def asciiLower (byte : UInt8) : UInt8 := if 0x41 ≤ byte && byte ≤ 0x5A then byte + 0x20 else byte

theorem asciiLower_asciiLower : asciiLower (asciiLower byte) = asciiLower byte := by
  simp only [asciiLower]
  split
  · rename_i upper
    rw [if_neg]
    simp only [Bool.and_eq_true, decide_eq_true_eq, UInt8.le_iff_toNat_le] at upper ⊢
    rw [UInt8.toNat_add]
    simp only [UInt8.reduceToNat] at upper ⊢
    omega
  · rfl

def Bytes.IsAscii (text : Bytes) : Prop := ∀ byte ∈ text, byte < 0x80

instance (text : Bytes) : Decidable text.IsAscii := List.decidableBAll (· < 0x80) text

/-- Texts are mapped character by character, and a zero byte is one. -/
structure TextCase where
  toLower : Bytes → Bytes
  equalFold : Bytes → Bytes → Bool
  toLower_ascii : ∀ {text : Bytes}, text.IsAscii → toLower text = text.map asciiLower
  toLower_ne_nil : ∀ {text : Bytes}, text ≠ [] → toLower text ≠ []
  toLower_toLower : ∀ text : Bytes, toLower (toLower text) = toLower text
  toLower_zero : ∀ left right : Bytes, toLower (left ++ 0 :: right) = toLower left ++ 0 :: toLower right
  equalFold_ascii : ∀ {left right : Bytes}, left.IsAscii → right.IsAscii →
    equalFold left right = decide (left.map asciiLower = right.map asciiLower)

/-- Tables that leave everything above ASCII alone. -/
def TextCase.ascii : TextCase where
  toLower text := text.map asciiLower
  equalFold left right := left.map asciiLower = right.map asciiLower
  toLower_ascii _ := rfl
  toLower_ne_nil := by simp
  toLower_toLower text := by
    rw [List.map_map]
    exact List.map_congr_left fun byte _ => asciiLower_asciiLower
  toLower_zero _ _ := by simp [asciiLower]
  equalFold_ascii _ _ := rfl

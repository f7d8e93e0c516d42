import VgiWorker.Lib.Bytes

/-! Base64 with the URL alphabet and no padding; the standard form of it has padding and two
other symbols. -/

namespace Base64

open Bytes

def alphabet : Bytes :=
  ofText "ABCDEFGHIJKLMNOPQRSTUVWXYZabcdefghijklmnopqrstuvwxyz0123456789-_"

def symbol (value : Nat) : UInt8 := alphabet.getD value 0

def value (symbol : UInt8) : Option Nat :=
  if alphabet.idxOf symbol < 64 then some (alphabet.idxOf symbol) else none

theorem value_symbol {digit : Nat} (small : digit < 64) : value (symbol digit) = some digit := by
  revert digit
  decide

theorem symbol_mem {digit : Nat} (small : digit < 64) : symbol digit ∈ alphabet := by
  revert digit
  decide

/-- Three bytes become four symbols; one or two left over become two or three. -/
def encode : Bytes → Bytes
  | first :: second :: third :: rest =>
    let group := first.toNat * 65536 + second.toNat * 256 + third.toNat
    symbol (group / 262144) :: symbol (group / 4096 % 64) :: symbol (group / 64 % 64) ::
      symbol (group % 64) :: encode rest
  | [first, second] =>
    let group := first.toNat * 1024 + second.toNat * 4
    [symbol (group / 4096), symbol (group / 64 % 64), symbol (group % 64)]
  | [first] =>
    let group := first.toNat * 16
    [symbol (group / 64), symbol (group % 64)]
  | [] => []

/-- Bits that do not fill a byte are dropped, whatever they are. -/
def decode : Bytes → Option Bytes
  | first :: second :: third :: fourth :: rest => do
    let group := (← value first) * 262144 + (← value second) * 4096 + (← value third) * 64 + (← value fourth)
    let others ← decode rest
    return UInt8.ofNat (group / 65536) :: UInt8.ofNat (group / 256 % 256) :: UInt8.ofNat (group % 256) :: others
  | [first, second, third] => do
    let group := (← value first) * 4096 + (← value second) * 64 + (← value third)
    return [UInt8.ofNat (group / 1024), UInt8.ofNat (group / 4 % 256)]
  | [first, second] => do
    let group := (← value first) * 64 + (← value second)
    return [UInt8.ofNat (group / 16)]
  | [_] => none
  | [] => some []

private theorem ofNat_eq {byte : UInt8} {number : Nat} (same : number = byte.toNat) :
    UInt8.ofNat number = byte := by
  rw [same, UInt8.ofNat_toNat]

/-- Decoding undoes encoding: each group of symbols spells the number its bytes do. -/
theorem decode_encode (data : Bytes) : decode (encode data) = some data := by
  induction data using encode.induct with
  | case1 first second third rest ih =>
    have high := first.toNat_lt
    have mid := second.toNat_lt
    have low := third.toNat_lt
    simp only [encode, decode]
    rw [value_symbol (by omega), value_symbol (by omega), value_symbol (by omega), value_symbol (by omega), ih]
    simp only [Option.bind_eq_bind, Option.bind_some, Option.pure_def]
    rw [@ofNat_eq first _ (by omega), @ofNat_eq second _ (by omega), @ofNat_eq third _ (by omega)]
  | case2 first second =>
    have high := first.toNat_lt
    have mid := second.toNat_lt
    simp only [encode, decode]
    rw [value_symbol (by omega), value_symbol (by omega), value_symbol (by omega)]
    simp only [Option.bind_eq_bind, Option.bind_some, Option.pure_def]
    rw [@ofNat_eq first _ (by omega), @ofNat_eq second _ (by omega)]
  | case3 first =>
    have high := first.toNat_lt
    simp only [encode, decode]
    rw [value_symbol (by omega), value_symbol (by omega)]
    simp only [Option.bind_eq_bind, Option.bind_some, Option.pure_def]
    rw [@ofNat_eq first _ (by omega)]
  | case4 => rfl

/-- Encoded text holds symbols of the alphabet only. -/
theorem mem_alphabet_of_mem_encode {data : Bytes} {byte : UInt8} (member : byte ∈ encode data) :
    byte ∈ alphabet := by
  induction data using encode.induct with
  | case1 first second third rest ih =>
    have high := first.toNat_lt
    have mid := second.toNat_lt
    have low := third.toNat_lt
    simp only [encode, List.mem_cons] at member
    rcases member with rfl | rfl | rfl | rfl | later
    any_goals exact symbol_mem (by omega)
    exact ih later
  | case2 first second =>
    have high := first.toNat_lt
    have mid := second.toNat_lt
    simp only [encode, List.mem_cons, List.not_mem_nil, or_false] at member
    rcases member with rfl | rfl | rfl
    all_goals exact symbol_mem (by omega)
  | case3 first =>
    have high := first.toNat_lt
    simp only [encode, List.mem_cons, List.not_mem_nil, or_false] at member
    rcases member with rfl | rfl
    all_goals exact symbol_mem (by omega)
  | case4 => simp [encode] at member

/-- No encoded text has a single symbol left over. -/
theorem length_encode_mod (data : Bytes) : (encode data).length % 4 ≠ 1 := by
  induction data using encode.induct with
  | case1 =>
    simp only [encode, List.length_cons]
    omega
  | case2 | case3 | case4 => simp [encode]

theorem encode_ne_nil {data : Bytes} (some : data ≠ []) : encode data ≠ [] := by
  cases data using encode.induct with
  | case1 | case2 | case3 => simp [encode]
  | case4 => exact absurd rfl some

def toStandard (symbol : UInt8) : UInt8 := if symbol = 45 then 43 else if symbol = 95 then 47 else symbol

def ofStandard (symbol : UInt8) : UInt8 := if symbol = 43 then 45 else if symbol = 47 then 95 else symbol

def padding : UInt8 := 61

def encodeStandard (data : Bytes) : Bytes :=
  (encode data).map toStandard ++ List.replicate ((3 - data.length % 3) % 3) padding

/-- At most two paddings, at the end. -/
def withoutPadding (text : Bytes) : Bytes :=
  (text.reverse.drop (min 2 (text.reverse.takeWhile (· = padding)).length)).reverse

/-- Line breaks are skipped wherever they are. -/
def decodeStandard (text : Bytes) : Option Bytes :=
  let symbols := text.filter fun symbol => symbol ≠ 10 ∧ symbol ≠ 13
  let content := withoutPadding symbols
  if symbols.length % 4 ≠ 0 ∨ content.any (· ∈ [padding, 45, 95]) then none else decode (content.map ofStandard)

example : decodeStandard (ofText "+/8=") = some [0xFB, 0xFF] ∧ encodeStandard [0xFB, 0xFF] = ofText "+/8=" ∧
    decodeStandard (ofText "A===") = none := by decide

/-- With its padding, encoded text has whole groups of four. -/
theorem length_encodeStandard_mod : (encodeStandard data).length % 4 = 0 := by
  simp only [encodeStandard, List.length_append, List.length_map, List.length_replicate]
  induction data using encode.induct with
  | case1 =>
    simp only [encode, List.length_cons]
    omega
  | case2 | case3 | case4 => simp [encode]

theorem ofStandard_toStandard {symbol : UInt8} (member : symbol ∈ alphabet) :
    ofStandard (toStandard symbol) = symbol := by
  have all : (alphabet.all fun symbol => ofStandard (toStandard symbol) = symbol) = true := by decide
  exact of_decide_eq_true (List.all_eq_true.mp all symbol member)

/-- The standard alphabet has no line breaks, no padding and no symbol of the URL alphabet. -/
theorem toStandard_ne {symbol : UInt8} (member : symbol ∈ alphabet) :
    toStandard symbol ∉ [10, 13, padding, 45, 95] := by
  have all : (alphabet.all fun symbol => toStandard symbol ∉ [10, 13, padding, 45, 95]) = true := by decide
  exact of_decide_eq_true (List.all_eq_true.mp all symbol member)

theorem withoutPadding_append {body : Bytes} {count : Nat} (few : count ≤ 2) (clean : padding ∉ body) :
    withoutPadding (body ++ List.replicate count padding) = body := by
  have paddings : ((body ++ List.replicate count padding).reverse.takeWhile (· = padding)).length = count := by
    rw [List.reverse_append]
    cases reversed : body.reverse with
    | nil => simp
    | cons last =>
      have other : last ≠ padding := by
        rintro rfl
        exact clean (List.mem_reverse.mp (reversed ▸ List.mem_cons_self))
      simp [other]
  rw [withoutPadding, paddings, Nat.min_eq_right few, List.reverse_append, List.reverse_replicate,
    List.drop_left' (by simp), List.reverse_reverse]

/-- Decoding undoes encoding in the standard alphabet too. -/
theorem decodeStandard_encodeStandard (data : Bytes) : decodeStandard (encodeStandard data) = some data := by
  have clean {symbol : UInt8} (member : symbol ∈ (encode data).map toStandard) :
      symbol ∉ [10, 13, padding, 45, 95] := by
    obtain ⟨_, isOriginal, rfl⟩ := List.mem_map.mp member
    exact toStandard_ne (mem_alphabet_of_mem_encode isOriginal)
  have unbroken : (encodeStandard data).filter (fun symbol => symbol ≠ 10 ∧ symbol ≠ 13) = encodeStandard data := by
    apply List.filter_eq_self.mpr
    intro symbol member
    rcases List.mem_append.mp member with body | pad
    · have := clean body
      simp only [List.mem_cons, not_or] at this
      simp [this.1, this.2.1]
    · rw [List.eq_of_mem_replicate pad]
      decide
  have content : withoutPadding (encodeStandard data) = (encode data).map toStandard :=
    withoutPadding_append (by omega) fun member => clean member (by simp)
  have plain : ((encode data).map toStandard).any (· ∈ [padding, 45, 95]) = false := by
    rw [List.any_eq_false]
    intro symbol member
    have := clean member
    simp only [List.mem_cons, not_or] at this
    simp [this.2.2]
  have undone : ((encode data).map toStandard).map ofStandard = encode data := by
    have same : ∀ symbol ∈ encode data, (ofStandard ∘ toStandard) symbol = id symbol :=
      fun symbol member => ofStandard_toStandard (mem_alphabet_of_mem_encode member)
    rw [List.map_map, List.map_congr_left same, List.map_id]
  simp only [decodeStandard, unbroken, content, plain, length_encodeStandard_mod, undone, decode_encode]
  simp

theorem encodeStandard_ne_nil {data : Bytes} (some : data ≠ []) : encodeStandard data ≠ [] := by
  intro empty
  have body := (List.append_eq_nil_iff.mp empty).1
  exact encode_ne_nil some (List.map_eq_nil_iff.mp body)

end Base64

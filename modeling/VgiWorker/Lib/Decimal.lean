import Mathlib.Data.List.Induction
import VgiWorker.Lib.Bytes

/-! Decimal texts: natural numbers, and floating-point numbers as the shortest decimal that rounds
to them. -/

namespace Decimal

open Bytes

def natOf (digits : Bytes) : Nat := digits.foldl (fun value digit => value * 10 + (digit.toNat - 0x30)) 0

/-- The decimal digits of a natural number, without leading zeros. -/
def digitsOf (value : Nat) : Bytes := (Nat.toDigits 10 value).map fun digit => UInt8.ofNat digit.toNat

theorem natOf_concat : natOf (digits ++ [digit]) = natOf digits * 10 + (digit.toNat - 0x30) := by
  simp [natOf]

theorem digitsOf_of_lt (small : value < 10) : digitsOf value = [UInt8.ofNat (0x30 + value)] := by
  rw [digitsOf, Nat.toDigits_of_lt_base small, List.map_singleton, Nat.toNat_digitChar_of_lt_ten small]

theorem digitsOf_of_le (large : 10 ≤ value) :
    digitsOf value = digitsOf (value / 10) ++ [UInt8.ofNat (0x30 + value % 10)] := by
  have split := Nat.toDigits_append_toDigits (b := 10) (n := value / 10) (d := value % 10) (by decide)
    (by omega) (by omega)
  rw [show 10 * (value / 10) + value % 10 = value by omega] at split
  rw [digitsOf, ← split, List.map_append]
  congr 1
  exact digitsOf_of_lt (by omega)

theorem toNat_digit (small : value < 10) : (UInt8.ofNat (0x30 + value)).toNat = 0x30 + value := by
  rw [UInt8.toNat_ofNat']
  omega

theorem natOf_digitsOf (value : Nat) : natOf (digitsOf value) = value := by
  induction value using Nat.strong_induction_on with
  | _ value ih =>
    by_cases small : value < 10
    · rw [digitsOf_of_lt small]
      simp only [natOf, List.foldl_cons, List.foldl_nil, toNat_digit small]
      omega
    · rw [digitsOf_of_le (by omega), natOf_concat, ih _ (by omega), toNat_digit (by omega)]
      omega

theorem isDigit_digit (small : value < 10) : isDigit (UInt8.ofNat (0x30 + value)) = true := by
  simp only [isDigit, Bool.and_eq_true, decide_eq_true_eq, UInt8.le_iff_toNat_le, toNat_digit small]
  constructor
  · exact Nat.le_add_right _ _
  · change 0x30 + value ≤ 0x39
    omega

theorem digitsOf_isDigit (value : Nat) : ∀ digit ∈ digitsOf value, isDigit digit = true := by
  induction value using Nat.strong_induction_on with
  | _ value ih =>
    intro digit member
    by_cases small : value < 10
    · rw [digitsOf_of_lt small, List.mem_singleton] at member
      rw [member]
      exact isDigit_digit small
    · rw [digitsOf_of_le (by omega), List.mem_append, List.mem_singleton] at member
      rcases member with before | rfl
      · exact ih _ (by omega) digit before
      · exact isDigit_digit (by omega)

theorem digitsOf_ne_nil (value : Nat) : digitsOf value ≠ [] := by
  simp [digitsOf]

/-- `%d` of an integer. -/
def intText (value : Int) : Bytes := (if value < 0 then [0x2D] else []) ++ digitsOf value.natAbs

/-- No digit at the front. -/
def Ended (text : Bytes) : Prop := ∀ first ∈ text.head?, isDigit first = false

theorem takeWhile_digits (isDecimal : ∀ digit ∈ digits, isDigit digit = true) (ended : Ended rest) :
    (digits ++ rest).takeWhile isDigit = digits := by
  rw [List.takeWhile_append_of_pos isDecimal]
  cases rest with
  | nil => simp
  | cons first => simp [ended first rfl]

/-- A number followed by something else than a digit is told by its text. -/
theorem digitsOf_append_inj (leftEnded : Ended leftRest) (rightEnded : Ended rightRest)
    (same : digitsOf left ++ leftRest = digitsOf right ++ rightRest) : left = right ∧ leftRest = rightRest := by
  have digits : digitsOf left = digitsOf right := by
    rw [← takeWhile_digits (digitsOf_isDigit left) leftEnded, same,
      takeWhile_digits (digitsOf_isDigit right) rightEnded]
  refine ⟨?_, List.append_cancel_left (digits ▸ same)⟩
  rw [← natOf_digitsOf left, digits, natOf_digitsOf]

theorem intText_append_inj (leftEnded : Ended leftRest) (rightEnded : Ended rightRest)
    (same : intText left ++ leftRest = intText right ++ rightRest) : left = right ∧ leftRest = rightRest := by
  have unsigned (value : Nat) (rest : Bytes) :
      ∃ first more, digitsOf value ++ rest = first :: more ∧ first ≠ 0x2D := by
    obtain ⟨first, more, digits⟩ := List.exists_cons_of_ne_nil (digitsOf_ne_nil value)
    refine ⟨first, more ++ rest, by simp [digits], ?_⟩
    rintro rfl
    exact absurd (digitsOf_isDigit value 0x2D (by simp [digits])) (by decide)
  obtain ⟨_, _, leftDigits, leftPlain⟩ := unsigned left.natAbs leftRest
  obtain ⟨_, _, rightDigits, rightPlain⟩ := unsigned right.natAbs rightRest
  simp only [intText] at same
  -- Without a sign on both sides or on neither the first bytes differ.
  split at same <;> split at same
  · obtain ⟨_, rests⟩ := digitsOf_append_inj leftEnded rightEnded (by simpa using same)
    exact ⟨by omega, rests⟩
  · simp [rightDigits, rightPlain.symm] at same
  · simp [leftDigits, leftPlain] at same
  · obtain ⟨_, rests⟩ := digitsOf_append_inj leftEnded rightEnded (by simpa using same)
    exact ⟨by omega, rests⟩

/-- A finite floating-point number, given by the shortest decimal that rounds to it: `0.d₁d₂…` times
ten to the `point`. Zero has no digits. -/
structure Shortest where
  negative : Bool
  digits : Bytes
  point : Int
  isDecimal : ∀ digit ∈ digits, isDigit digit = true
  short : digits.length ≤ 17
  zero : digits = [] → point = 0
deriving DecidableEq

inductive Float where
  | nan
  | infinite (negative : Bool)
  | finite (value : Shortest)
deriving DecidableEq

end Decimal

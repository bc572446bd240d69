import Whois.Number
import Whois.Text.Basic

/-!
Numbers in writing. Decimal numerals have ASCII digits only; leading zeros are allowed and a sign
is not, except where a signed integer is read.
-/
namespace Whois.Text

/-- The shortest decimal numeral of a number. -/
def decimal (n : Nat) : Text := Nat.toDigits 10 n

def isNumeral (t : Text) : Bool := !t.isEmpty && t.all Char.isDigit

/-- The number that a decimal numeral stands for. -/
def natural? (t : Text) : Option Nat :=
  if isNumeral t then some (Nat.ofDigitChars 10 t 0) else none

/-- A number smaller than `bound`. -/
def below? (bound : Nat) (t : Text) : Option (Fin bound) := do
  let n ← natural? t
  if h : n < bound then some ⟨n, h⟩ else none

/-- An integer: a numeral, with or without a sign before it. -/
def integer? : Text → Option Int
  | '-' :: digits => (natural? digits).map fun n => -(n : Int)
  | '+' :: digits => (natural? digits).map fun n => (n : Int)
  | digits => (natural? digits).map fun n => (n : Int)

/-- An integer that fits in 64 bits, sign included. -/
def wideInteger? (t : Text) : Option Int :=
  (integer? t).filter fun n => decide (-(2 ^ 63) ≤ n ∧ n < 2 ^ 63)

/-- The value of a hexadecimal digit of either case. -/
def hexDigit? (c : Char) : Option (Fin 16) :=
  let n := c.toNat
  if h : 48 ≤ n ∧ n ≤ 57 then some ⟨n - 48, by omega⟩
  else if h : 65 ≤ n ∧ n ≤ 70 then some ⟨n - 55, by omega⟩
  else if h : 97 ≤ n ∧ n ≤ 102 then some ⟨n - 87, by omega⟩
  else none

theorem isNumeral_decimal (n : Nat) : isNumeral (decimal n) = true := by
  have hne : Nat.toDigits 10 n ≠ [] := Nat.toDigits_ne_nil
  simp only [isNumeral, decimal, Bool.and_eq_true, Bool.not_eq_true', List.isEmpty_eq_false_iff,
    List.all_eq_true]
  exact ⟨hne, fun c hc => Nat.isDigit_of_mem_toDigits (by decide) (by decide) hc⟩

theorem natural?_decimal (n : Nat) : natural? (decimal n) = some n := by
  rw [natural?, if_pos (isNumeral_decimal n), decimal, Nat.ofDigitChars_ten_toDigits]

end Whois.Text

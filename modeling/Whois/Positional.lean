import Whois.Number

/-!
Numbers as digits in some base, most significant digit first.
-/
namespace Whois.Positional

/-- The number with the given digits. -/
def ofDigits {base : Nat} (digits : List (Fin base)) : Nat :=
  digits.foldl (fun n d => base * n + d.val) 0

/-- The last `count` digits of a number. -/
def toDigits (base : Nat) [@NeZero Nat Zero.ofOfNat0 base] : (count n : Nat) → List (Fin base)
  | 0, _ => []
  | count + 1, n => toDigits base count (n / base) ++ [Fin.ofNat base n]

theorem ofDigits_concat {base : Nat} (digits : List (Fin base)) (d : Fin base) :
    ofDigits (digits ++ [d]) = base * ofDigits digits + d.val := by
  simp [ofDigits]

theorem length_toDigits (base : Nat) [@NeZero Nat Zero.ofOfNat0 base] (count n : Nat) :
    (toDigits base count n).length = count := by
  induction count generalizing n with
  | zero => rfl
  | succ count ih => simp [toDigits, ih]

theorem ofDigits_toDigits (base : Nat) [@NeZero Nat Zero.ofOfNat0 base] (count n : Nat) :
    ofDigits (toDigits base count n) = n % base ^ count := by
  induction count generalizing n with
  | zero => simp [toDigits, ofDigits, Nat.mod_one]
  | succ count ih =>
    rw [toDigits, ofDigits_concat, ih, Nat.pow_succ, Nat.mul_comm (base ^ count), Nat.mod_mul]
    simp [Nat.add_comm]

theorem toDigits_add (base : Nat) [@NeZero Nat Zero.ofOfNat0 base] (first last n : Nat) :
    toDigits base (first + last) n =
      toDigits base first (n / base ^ last) ++ toDigits base last n := by
  induction last generalizing n with
  | zero => simp [toDigits]
  | succ last ih =>
    have hdiv : n / base / base ^ last = n / base ^ (last + 1) := by
      rw [Nat.div_div_eq_div_mul, Nat.pow_succ']
    rw [← Nat.add_assoc, toDigits, toDigits, ih, hdiv, List.append_assoc]

theorem toDigits_mod (base : Nat) [@NeZero Nat Zero.ofOfNat0 base] (count n : Nat) :
    toDigits base count (n % base ^ count) = toDigits base count n := by
  induction count generalizing n with
  | zero => rfl
  | succ count ih =>
    have hdiv : n % base ^ (count + 1) / base = n / base % base ^ count := by
      rw [Nat.pow_succ', Nat.mod_mul_right_div_self]
    have hlast : Fin.ofNat base (n % base ^ (count + 1)) = Fin.ofNat base n := by
      apply Fin.ext
      rw [Fin.val_ofNat, Fin.val_ofNat, Nat.pow_succ', Nat.mod_mul_right_mod]
    rw [toDigits, toDigits, hdiv, ih, hlast]

theorem foldl_lt {base : Nat} (digits : List (Fin base)) {n k : Nat} (h : n < base ^ k) :
    digits.foldl (fun n d => base * n + d.val) n < base ^ (k + digits.length) := by
  induction digits generalizing n k with
  | nil => simpa using h
  | cons d digits ih =>
    have hn : base * n + d.val < base ^ (k + 1) := by
      have : base * (n + 1) ≤ base * base ^ k := Nat.mul_le_mul_left base h
      rw [Nat.pow_succ, Nat.mul_comm (base ^ k)]
      have := d.isLt
      rw [Nat.mul_add] at *
      omega
    have := ih hn
    simpa [Nat.add_comm, Nat.add_left_comm, Nat.add_assoc] using this

/-- A number of `k` digits is smaller than the `k`th power of the base. -/
theorem ofDigits_lt {base : Nat} (digits : List (Fin base)) :
    ofDigits digits < base ^ digits.length := by
  simpa [ofDigits] using foldl_lt digits (n := 0) (k := 0) (by simp)

/-- Digits of `k` bits each make a number of as many bits as they have together. -/
theorem ofDigits_lt_two_pow {base k : Nat} (hbase : base = 2 ^ k) (digits : List (Fin base)) :
    ofDigits digits < 2 ^ (k * digits.length) := by
  subst hbase
  rw [Nat.pow_mul]
  exact ofDigits_lt digits

end Whois.Positional

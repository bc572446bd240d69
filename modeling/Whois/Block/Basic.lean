import Whois.Interval
import Whois.Number

/-!
Blocks of a number space, and the blocks that are prefixes: all numbers with the same leading
bits.
-/
namespace Whois

/-- A contiguous part of a number space. -/
abbrev Block (w : Nat) := Interval (Number w)

namespace Block

variable {w : Nat}

/-- The block of the numbers whose first `len` bits run from `low` to `high`. -/
def leading (len low high : Nat) (hlen : len ≤ w) (hle : low ≤ high) (hlt : high < 2 ^ len) :
    Block w :=
  have hsize : 0 < 2 ^ (w - len) := Nat.two_pow_pos _
  have hmul : (high + 1) * 2 ^ (w - len) ≤ 2 ^ w := by
    calc (high + 1) * 2 ^ (w - len) ≤ 2 ^ len * 2 ^ (w - len) := Nat.mul_le_mul_right _ hlt
      _ = 2 ^ w := by rw [← Nat.pow_add, Nat.add_sub_cancel' hlen]
  have hlow : low * 2 ^ (w - len) ≤ high * 2 ^ (w - len) := Nat.mul_le_mul_right _ hle
  have hadd : (high + 1) * 2 ^ (w - len) = high * 2 ^ (w - len) + 2 ^ (w - len) := by
    rw [Nat.add_mul, Nat.one_mul]
  { lo := ⟨low * 2 ^ (w - len), by omega⟩
    hi := ⟨high * 2 ^ (w - len) + (2 ^ (w - len) - 1), by omega⟩
    lo_le_hi := by simp only [Fin.mk_le_mk]; omega }

/-- `leading` for bounds that still have to be checked. -/
def leading? (len low high : Nat) : Option (Block w) :=
  if h : len ≤ w ∧ low ≤ high ∧ high < 2 ^ len then
    some (leading len low high h.1 h.2.1 h.2.2)
  else none

/-- The prefix of length `len` around `a`. The bits of `a` after the first `len` do not count. -/
def ofPrefix? (a : Number w) (len : Nat) : Option (Block w) :=
  leading? len (a.val / 2 ^ (w - len)) (a.val / 2 ^ (w - len))

/-- The whole number space. -/
def whole (w : Nat) : Block w :=
  leading 0 0 0 (Nat.zero_le w) (Nat.le_refl 0) (by simp)

def isWhole (b : Block w) : Bool := decide (b = whole w)

/-- How many numbers a block holds. -/
def size (b : Block w) : Nat := b.hi.val - b.lo.val + 1

/-- The length of the prefix that a block is. A block is a prefix if its size is a power of two and
divides its start. -/
def prefixLen? (b : Block w) : Option Nat :=
  let bits := b.size.log2
  if b.size = 2 ^ bits ∧ b.lo.val % b.size = 0 then some (w - bits) else none

theorem isWhole_iff (b : Block w) : b.isWhole = true ↔ b.lo.val = 0 ∧ b.hi.val = 2 ^ w - 1 := by
  unfold isWhole
  rw [decide_eq_true_eq, Interval.ext_iff, Fin.ext_iff, Fin.ext_iff]
  simp [whole, leading]

theorem leading?_eq_some_iff {len low high : Nat} {b : Block w} :
    leading? len low high = some b ↔
      ∃ h : len ≤ w ∧ low ≤ high ∧ high < 2 ^ len, leading len low high h.1 h.2.1 h.2.2 = b := by
  unfold leading?
  split
  next h => simp [h]
  next h =>
    constructor
    · simp
    · rintro ⟨h', _⟩
      exact absurd h' h

theorem div_two_pow_lt (a : Number w) {len : Nat} (h : len ≤ w) :
    a.val / 2 ^ (w - len) < 2 ^ len := by
  apply Nat.div_lt_of_lt_mul
  rw [← Nat.pow_add, Nat.sub_add_cancel h]
  exact a.isLt

theorem ofPrefix?_isSome_iff (a : Number w) (len : Nat) :
    (ofPrefix? a len).isSome = true ↔ len ≤ w := by
  unfold ofPrefix? leading?
  split
  next h => simp [h.1]
  next h =>
    simp only [Option.isSome_none, Bool.false_eq_true, false_iff]
    exact fun hle => h ⟨hle, Nat.le_refl _, div_two_pow_lt a hle⟩

end Block

end Whois

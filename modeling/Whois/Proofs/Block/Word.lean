import Whois.Proofs.Block.Prefix

/-!
Prefixes computed on machine words, with masks, a span and its set bits. Each step is checked, and
none ever leaves the range of the words: what comes out are the prefixes and lengths of blocks of
numbers.
-/
namespace Whois

/-- A number has no bit in common with its successor exactly if it is all ones. -/
theorem and_add_one_eq_zero_iff (n : Nat) : n &&& (n + 1) = 0 ↔ ∃ k, n = 2 ^ k - 1 := by
  constructor
  · intro h
    induction n using Nat.strongRecOn with
    | ind n ih =>
      by_cases hzero : n = 0
      · exact ⟨0, hzero⟩
      · have hhalf : n / 2 &&& (n + 1) / 2 = 0 := by
          rw [← Nat.and_div_two, h]
        by_cases hodd : n % 2 = 1
        · have hnext : (n + 1) / 2 = n / 2 + 1 := by omega
          rw [hnext] at hhalf
          obtain ⟨k, hk⟩ := ih (n / 2) (by omega) hhalf
          have hpos : 0 < 2 ^ k := Nat.two_pow_pos k
          have hpow : 2 ^ (k + 1) = 2 * 2 ^ k := Nat.pow_succ'
          exact ⟨k + 1, by omega⟩
        · -- An even number and its successor differ in the last bit only.
          have hnext : (n + 1) / 2 = n / 2 := by omega
          rw [hnext, Nat.and_self] at hhalf
          omega
  · rintro ⟨k, rfl⟩
    have hnext : 2 ^ k - 1 + 1 = 2 ^ k := Nat.sub_add_cancel Nat.one_le_two_pow
    rw [hnext, Nat.and_comm, Nat.and_two_pow_sub_one_eq_mod, Nat.mod_self]

namespace Word

variable {w : Nat}

/-- Why a computation on words has no result. -/
inductive Stop where
  /-- What is asked for does not exist. -/
  | refused
  /-- A step leaves the range of the words. -/
  | overflow
  deriving DecidableEq

def orRefused {α : Type} : Option α → Except Stop α
  | some a => .ok a
  | none => .error .refused

def orOverflow {α : Type} : Option α → Except Stop α
  | some a => .ok a
  | none => .error .overflow

theorem map_orRefused {α β : Type} (f : α → β) (x : Option α) :
    (orRefused x).map f = orRefused (x.map f) := by
  cases x <;> rfl

/-- A difference that is not negative. -/
def sub? (a b : BitVec w) : Option (BitVec w) := if b ≤ a then some (a - b) else none

/-- A difference of lengths. -/
def subLength? (m n : Nat) : Option Nat := if n ≤ m then some (m - n) else none

/-- A shift by less than the width. -/
def shiftRight? (a : BitVec w) (n : Nat) : Option (BitVec w) :=
  if n < w then some (a >>> n) else none

/-- The block with the given ends, if they are in order. -/
def block? (lo hi : BitVec w) : Option (Block w) := Interval.ofBounds? lo.toFin hi.toFin

theorem block?_eq_some_iff {lo hi : BitVec w} {b : Block w} :
    block? lo hi = some b ↔ b.lo.val = lo.toNat ∧ b.hi.val = hi.toNat := by
  unfold block?
  rw [Interval.ofBounds?_eq_some_iff, Fin.ext_iff, Fin.ext_iff]
  exact Iff.rfl

/-- All bits but the first `len` are set. -/
def hostMask (len : Nat) : BitVec w := (shiftRight? (BitVec.allOnes w) len).getD 0#w

/-- The prefix of length `len` around `a`. -/
def ofPrefix (a : Number w) (len : Nat) : Except Stop (Block w) :=
  if w < len then .error .refused
  else
    let mask := hostMask len
    let lo := BitVec.ofFin a &&& ~~~mask
    orOverflow (block? lo (lo ||| mask))

/-- The length of the prefix that a block is: the host bits are those set in the span. -/
def prefixLen (b : Block w) : Except Stop Nat := do
  let span ← orOverflow (sub? (BitVec.ofFin b.hi) (BitVec.ofFin b.lo))
  if span &&& (span + 1#w) = 0#w ∧ BitVec.ofFin b.lo &&& span = 0#w then
    orOverflow (subLength? w span.cpop.toNat)
  else .error .refused

theorem toNat_hostMask {len : Nat} (h : len ≤ w) :
    (hostMask len : BitVec w).toNat = 2 ^ (w - len) - 1 := by
  unfold hostMask shiftRight?
  by_cases hlt : len < w
  · have hpow : 2 ^ w = 2 ^ len * 2 ^ (w - len) := by
      rw [← Nat.pow_add, Nat.add_sub_cancel' h]
    have hpos : 0 < 2 ^ len * 2 ^ (w - len) := by
      rw [← hpow]
      exact Nat.two_pow_pos w
    have hdiv := Nat.mul_sub_div 0 (2 ^ len) (2 ^ (w - len)) hpos
    rw [if_pos hlt, Option.getD_some, BitVec.toNat_ushiftRight, BitVec.toNat_allOnes,
      Nat.shiftRight_eq_div_pow, hpow]
    simpa using hdiv
  · have hlen : w - len = 0 := by omega
    rw [if_neg hlt, hlen]
    rfl

/-- What is left of a word when its last `k` bits are cleared. -/
theorem toNat_and_not_mask {k : Nat} {a mask : BitVec w} (h : mask.toNat = 2 ^ k - 1) :
    (a &&& ~~~mask).toNat = a.toNat / 2 ^ k * 2 ^ k := by
  apply Nat.eq_of_testBit_eq
  intro i
  have hmask : mask.getLsbD i = decide (i < k) := by
    rw [← BitVec.testBit_toNat, h, Nat.testBit_two_pow_sub_one]
  rw [BitVec.testBit_toNat, BitVec.getLsbD_and, BitVec.getLsbD_not, hmask, Nat.testBit_mul_two_pow,
    Nat.testBit_div_two_pow, ← BitVec.testBit_toNat]
  by_cases hi : i < k
  · have hk : ¬ k ≤ i := by omega
    simp [hi, hk]
  · have hk : k ≤ i := by omega
    by_cases hw : i < w
    · simp [hi, hk, hw]
    · simp [hi, hk, hw, BitVec.testBit_toNat, BitVec.getLsbD_of_ge a i (by omega)]

/-- What becomes of a word whose last `k` bits are clear when these are set. -/
theorem toNat_or_mask {k n : Nat} {a mask : BitVec w} (ha : a.toNat = n * 2 ^ k)
    (h : mask.toNat = 2 ^ k - 1) : (a ||| mask).toNat = a.toNat + (2 ^ k - 1) := by
  have hlt : 2 ^ k - 1 < 2 ^ k := Nat.sub_lt (Nat.two_pow_pos k) (by decide)
  rw [BitVec.toNat_or, ha, h, Nat.mul_comm, ← Nat.two_pow_add_eq_or_of_lt hlt]

/-- On words a prefix comes out as it is, and no step overflows. -/
theorem ofPrefix_eq (a : Number w) (len : Nat) :
    ofPrefix a len = orRefused (Block.ofPrefix? a len) := by
  unfold ofPrefix
  by_cases hlen : len ≤ w
  · obtain ⟨p, hp⟩ := Option.isSome_iff_exists.mp ((Block.ofPrefix?_isSome_iff a len).mpr hlen)
    obtain ⟨_, hlo, hhi⟩ := Block.ofPrefix?_eq_some_iff.mp hp
    have hmask : (hostMask len : BitVec w).toNat = 2 ^ (w - len) - 1 := toNat_hostMask hlen
    have hfirst := toNat_and_not_mask (a := BitVec.ofFin a) hmask
    have hblock : block? (BitVec.ofFin a &&& ~~~hostMask len)
        ((BitVec.ofFin a &&& ~~~hostMask len) ||| hostMask len) = some p := by
      rw [block?_eq_some_iff, toNat_or_mask hfirst hmask, hfirst]
      exact ⟨hlo, hlo ▸ hhi⟩
    rw [if_neg (by omega), hp]
    dsimp only
    rw [hblock]
    rfl
  · have hnone : Block.ofPrefix? a len = none := by
      rw [← Option.not_isSome_iff_eq_none, Block.ofPrefix?_isSome_iff]
      exact hlen
    rw [if_pos (by omega), hnone]
    rfl

theorem toNat_cpop_of_toNat_eq {k : Nat} {a : BitVec w} (hk : k ≤ w) (h : a.toNat = 2 ^ k - 1) :
    a.cpop.toNat = k := by
  have hones : a = (BitVec.allOnes k).setWidth w := by
    apply BitVec.eq_of_toNat_eq
    rw [BitVec.toNat_setWidth_of_le hk, BitVec.toNat_allOnes, h]
  rw [hones, BitVec.toNat_cpop_setWidth_eq_of_le hk, BitVec.cpop_allOnes, BitVec.toNat_ofNat]
  exact Nat.mod_eq_of_lt Nat.lt_two_pow_self

theorem and_add_one_eq_zero_iff_exists (a : BitVec w) :
    a &&& (a + 1#w) = 0#w ↔ ∃ k ≤ w, a.toNat = 2 ^ k - 1 := by
  have hlt : a.toNat < 2 ^ w := a.isLt
  by_cases hall : a.toNat = 2 ^ w - 1
  · -- The successor of the last word is zero.
    have hones : a + 1#w = 0#w := by
      apply BitVec.eq_of_toNat_eq
      have hnext : a.toNat + 1 = 2 ^ w := by omega
      rw [BitVec.toNat_add, BitVec.toNat_ofNat, Nat.add_mod_mod, hnext, Nat.mod_self]
      rfl
    rw [hones, BitVec.and_zero]
    exact iff_of_true rfl ⟨w, Nat.le_refl w, hall⟩
  · have hnext : (a + 1#w).toNat = a.toNat + 1 := by
      rw [BitVec.toNat_add, BitVec.toNat_ofNat, Nat.add_mod_mod]
      exact Nat.mod_eq_of_lt (by omega)
    have hzero : a &&& (a + 1#w) = 0#w ↔ a.toNat &&& (a.toNat + 1) = 0 := by
      rw [← BitVec.toNat_inj, BitVec.toNat_and, hnext]
      exact Iff.rfl
    rw [hzero, and_add_one_eq_zero_iff]
    constructor
    · rintro ⟨k, hk⟩
      have hpos : 0 < 2 ^ k := Nat.two_pow_pos k
      have hpow : 2 ^ k ≤ 2 ^ w := by omega
      exact ⟨k, (Nat.pow_le_pow_iff_right (by decide)).mp hpow, hk⟩
    · rintro ⟨k, _, hk⟩
      exact ⟨k, hk⟩

theorem and_mask_eq_zero_iff {k : Nat} {a mask : BitVec w} (h : mask.toNat = 2 ^ k - 1) :
    a &&& mask = 0#w ↔ a.toNat % 2 ^ k = 0 := by
  rw [← BitVec.toNat_inj, BitVec.toNat_and, h, Nat.and_two_pow_sub_one_eq_mod]
  exact Iff.rfl

/-- On words the length of a prefix comes out as it is, and no step overflows. -/
theorem prefixLen_eq (b : Block w) : prefixLen b = orRefused b.prefixLen? := by
  have hle : BitVec.ofFin b.lo ≤ BitVec.ofFin b.hi := b.lo_le_hi
  have hsub : sub? (BitVec.ofFin b.hi) (BitVec.ofFin b.lo) =
      some (BitVec.ofFin b.hi - BitVec.ofFin b.lo) := if_pos hle
  generalize hspan : BitVec.ofFin b.hi - BitVec.ofFin b.lo = span at hsub
  have hsize : b.size = span.toNat + 1 := by
    rw [← hspan, BitVec.toNat_sub_of_le hle]
    rfl
  unfold prefixLen Block.prefixLen?
  rw [hsub]
  change (if span &&& (span + 1#w) = 0#w ∧ BitVec.ofFin b.lo &&& span = 0#w then
    orOverflow (subLength? w span.cpop.toNat) else .error .refused) = _
  dsimp only
  by_cases hones : ∃ k ≤ w, span.toNat = 2 ^ k - 1
  · obtain ⟨k, hk, hk'⟩ := hones
    have hpos : 0 < 2 ^ k := Nat.two_pow_pos k
    have hpow : b.size = 2 ^ k := by omega
    have hbits : (2 ^ k).log2 = k := Nat.log2_two_pow
    have hcount : subLength? w span.cpop.toNat = some (w - k) := by
      rw [toNat_cpop_of_toNat_eq hk hk']
      exact if_pos hk
    have hall := (and_add_one_eq_zero_iff_exists span).mpr ⟨k, hk, hk'⟩
    rw [hpow, hbits, hcount]
    simp only [hall, true_and, and_mask_eq_zero_iff hk']
    change (if b.lo.val % 2 ^ k = 0 then _ else _) = _
    by_cases hstart : b.lo.val % 2 ^ k = 0
    · rw [if_pos hstart, if_pos hstart]
      rfl
    · rw [if_neg hstart, if_neg hstart]
      rfl
  · have hspan' : ¬ span &&& (span + 1#w) = 0#w := mt (and_add_one_eq_zero_iff_exists span).mp hones
    have hsize' : ¬ b.size = 2 ^ b.size.log2 := by
      intro hpow
      have hle := Block.size_le b
      rw [hpow] at hle
      exact hones ⟨b.size.log2, (Nat.pow_le_pow_iff_right (by decide)).mp hle, by omega⟩
    rw [if_neg fun h => hspan' h.1, if_neg fun h => hsize' h.1]
    rfl

end Word

end Whois

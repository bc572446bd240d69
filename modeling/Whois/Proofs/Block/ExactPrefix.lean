import Mathlib.Order.Fin.Basic
import Whois.Block.Ip
import Whois.Proofs.Block.Word

/-!
The arithmetic of prefixes is exact. A prefix holds the addresses that have its first bits, its length
is told from its ends alone, and words are wide enough for all that is computed on the way.
-/
namespace Whois

namespace Block

variable {w n : Nat} {a b : Number w} {p : Block w}

/-- Whether two numbers have the same first `n` bits. -/
def AgreeOn (n : Nat) (a b : Number w) : Prop :=
  ∀ i < n, (BitVec.ofFin a).getMsbD i = (BitVec.ofFin b).getMsbD i

theorem agreeOn_iff_div_eq (hn : n ≤ w) :
    AgreeOn n a b ↔ a.val / 2 ^ (w - n) = b.val / 2 ^ (w - n) := by
  have hbit : ∀ (c : Number w) (i : Nat), i < n →
      (BitVec.ofFin c).getMsbD i = (c.val / 2 ^ (w - n)).testBit (n - 1 - i) := by
    intro c i hi
    have hplace : w - 1 - i = n - 1 - i + (w - n) := by omega
    rw [BitVec.getMsbD_eq_getLsbD, decide_eq_true (by omega : i < w), Bool.true_and, hplace,
      Nat.testBit_div_two_pow]
    rfl
  constructor
  · intro h
    apply Nat.eq_of_testBit_eq
    intro j
    by_cases hj : j < n
    · have hi := h (n - 1 - j) (by omega)
      have hback : n - 1 - (n - 1 - j) = j := by omega
      rwa [hbit a _ (by omega), hbit b _ (by omega), hback] at hi
    · -- Beyond the first `n` bits the quotients have none.
      have hpow : 2 ^ n ≤ 2 ^ j := Nat.pow_le_pow_right (by decide) (by omega)
      have ha := div_two_pow_lt a hn
      have hb := div_two_pow_lt b hn
      rw [Nat.testBit_lt_two_pow (by omega), Nat.testBit_lt_two_pow (by omega)]
  · intro h i hi
    rw [hbit a i hi, hbit b i hi, h]

/-- A prefix holds the numbers with the same first bits. -/
theorem contains_single_iff (h : ofPrefix? a n = some p) :
    p.contains (.single b) = true ↔ AgreeOn n a b := by
  obtain ⟨hn, hlo, hhi⟩ := ofPrefix?_eq_some_iff.mp h
  have hpos : 0 < 2 ^ (w - n) := Nat.two_pow_pos _
  have hends : p.contains (.single b) = true ↔ p.lo.val ≤ b.val ∧ b.val ≤ p.hi.val :=
    Interval.contains_iff
  rw [agreeOn_iff_div_eq hn, hends, hhi, hlo, eq_comm (b := b.val / _), Nat.div_eq_iff hpos]
  omega

theorem prefixLen?_eq_none_iff :
    p.prefixLen? = none ↔ ∀ (a : Number w) (n : Nat), ofPrefix? a n ≠ some p := by
  constructor
  · intro hnone a n h
    rw [prefixLen?_of_ofPrefix? h] at hnone
    cases hnone
  · intro h
    cases hlen : p.prefixLen? with
    | none => rfl
    | some n => exact absurd (prefixLen?_eq_some_iff.mp hlen) (h p.lo n)

theorem isWhole_iff_prefixLen? : p.isWhole = true ↔ p.prefixLen? = some 0 := by
  rw [isWhole_iff, prefixLen?_eq_some_iff, ofPrefix?_eq_some_iff, Nat.sub_zero,
    Nat.div_eq_of_lt p.lo.isLt, Nat.zero_mul]
  constructor
  · rintro ⟨hlo, hhi⟩
    exact ⟨Nat.zero_le w, hlo, by rw [hlo, hhi, Nat.zero_add]⟩
  · rintro ⟨_, hlo, hhi⟩
    exact ⟨hlo, by rw [hhi, hlo, Nat.zero_add]⟩

/-- What the arithmetic of prefixes promises in a number space. -/
structure ExactPrefixes (w : Nat) : Prop where
  ofPrefix?_eq_none_iff : ∀ (a : Number w) (n : Nat), ofPrefix? a n = none ↔ w < n
  contains_iff : ∀ (a : Number w) (n : Nat) (p : Block w), ofPrefix? a n = some p →
    ∀ b : Number w, p.contains (.single b) = true ↔ AgreeOn n a b
  prefixLen?_eq_some_iff : ∀ (b : Block w) (n : Nat),
    b.prefixLen? = some n ↔ ofPrefix? b.lo n = some b
  prefixLen?_eq_none_iff : ∀ b : Block w,
    b.prefixLen? = none ↔ ∀ (a : Number w) (n : Nat), ofPrefix? a n ≠ some b
  prefixLen?_ofPrefix? : ∀ (a : Number w) (n : Nat) (p : Block w),
    ofPrefix? a n = some p → p.prefixLen? = some n
  isWhole_iff : ∀ b : Block w, b.isWhole = true ↔ b.prefixLen? = some 0
  /-- Masks of words give the same prefixes. -/
  ofPrefix_onWords : ∀ (a : Number w) (n : Nat),
    Word.ofPrefix a n = Word.orRefused (ofPrefix? a n)
  /-- The set bits of the span give the same lengths. -/
  prefixLen_onWords : ∀ b : Block w, Word.prefixLen b = Word.orRefused b.prefixLen?

theorem exactPrefixes_width (w : Nat) : ExactPrefixes w where
  ofPrefix?_eq_none_iff a n := by
    rw [← Option.not_isSome_iff_eq_none, ofPrefix?_isSome_iff, Nat.not_le]
  contains_iff _ _ _ h _ := contains_single_iff h
  prefixLen?_eq_some_iff _ _ := Block.prefixLen?_eq_some_iff
  prefixLen?_eq_none_iff _ := Block.prefixLen?_eq_none_iff
  prefixLen?_ofPrefix? _ _ _ := prefixLen?_of_ofPrefix?
  isWhole_iff _ := isWhole_iff_prefixLen?
  ofPrefix_onWords := Word.ofPrefix_eq
  prefixLen_onWords := Word.prefixLen_eq

end Block

/-- The arithmetic of IPv4 and IPv6 prefixes is exact: there is a prefix of a length exactly if the
family has so many bits, and it holds the addresses that agree with one of them on so many first bits.
A block has a length exactly if it is the prefix of this length around its first address, and none if
it is no prefix at all; a block has the length zero if it is all of its family. On words of 32 and 128
bits the same comes out, and no step overflows. -/
theorem IpBlock.prefixes_exact : Block.ExactPrefixes 32 ∧ Block.ExactPrefixes 128 ∧
    ∀ b : IpBlock, b.isWhole = true ↔ b.prefixLen? = some 0 := by
  refine ⟨Block.exactPrefixes_width 32, Block.exactPrefixes_width 128, ?_⟩
  intro b
  cases b with
  | v4 b => exact Block.isWhole_iff_prefixLen?
  | v6 b => exact Block.isWhole_iff_prefixLen?

end Whois

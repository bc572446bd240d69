import Whois.Block.Basic

/-!
Prefixes. A block has the length of the one prefix that it is, if it is one.
-/
namespace Whois.Block

variable {w : Nat} {a : Number w} {b : Block w} {len : Nat}

theorem ofPrefix?_eq_some_iff : ofPrefix? a len = some b ↔
    len ≤ w ∧ b.lo.val = a.val / 2 ^ (w - len) * 2 ^ (w - len) ∧
      b.hi.val = b.lo.val + (2 ^ (w - len) - 1) := by
  unfold ofPrefix?
  rw [leading?_eq_some_iff]
  constructor
  · rintro ⟨h, rfl⟩
    exact ⟨h.1, rfl, rfl⟩
  · intro ⟨hlen, hlo, hhi⟩
    refine ⟨⟨hlen, Nat.le_refl _, div_two_pow_lt a hlen⟩, ?_⟩
    apply Interval.ext
    · exact Fin.ext hlo.symm
    · rw [hlo] at hhi
      exact Fin.ext hhi.symm

/-- The block of some first bits is told by its ends. -/
theorem leading?_eq_some_iff_ends {low high : Nat} (hlen : len ≤ w) (hhigh : high < 2 ^ len) :
    leading? len low high = some b ↔ b.lo.val = low * 2 ^ (w - len) ∧
      b.hi.val = high * 2 ^ (w - len) + (2 ^ (w - len) - 1) := by
  rw [leading?_eq_some_iff]
  constructor
  · rintro ⟨_, rfl⟩
    exact ⟨rfl, rfl⟩
  · intro ⟨hlo, hhi⟩
    have hpos : 0 < 2 ^ (w - len) := Nat.two_pow_pos _
    have hle : b.lo.val ≤ b.hi.val := b.lo_le_hi
    have hbound : low * 2 ^ (w - len) < (high + 1) * 2 ^ (w - len) := by
      rw [Nat.add_mul, Nat.one_mul]
      omega
    have hlow : low ≤ high := Nat.le_of_lt_succ (Nat.lt_of_mul_lt_mul_right hbound)
    exact ⟨⟨hlen, hlow, hhigh⟩, Interval.ext (Fin.ext hlo.symm) (Fin.ext hhi.symm)⟩

theorem hi_eq_add_size (b : Block w) : b.hi.val = b.lo.val + (b.size - 1) := by
  have hle : b.lo.val ≤ b.hi.val := b.lo_le_hi
  unfold size
  omega

theorem size_le (b : Block w) : b.size ≤ 2 ^ w := by
  have hlt : b.hi.val < 2 ^ w := b.hi.isLt
  unfold size
  omega

/-- A block has a prefix length exactly if it is the prefix of that length around its start. -/
theorem prefixLen?_eq_some_iff : b.prefixLen? = some len ↔ ofPrefix? b.lo len = some b := by
  rw [ofPrefix?_eq_some_iff]
  unfold prefixLen?
  dsimp only
  constructor
  · intro h
    obtain ⟨⟨hsize, hstart⟩, hlen⟩ := Option.ite_none_right_eq_some.mp h
    have hbits : b.size.log2 ≤ w := by
      have hle := size_le b
      rw [hsize] at hle
      exact (Nat.pow_le_pow_iff_right (by decide)).mp hle
    have hlen : w - b.size.log2 = len := Option.some.inj hlen
    have hrest : w - len = b.size.log2 := by omega
    have hdvd : b.size ∣ b.lo.val := Nat.dvd_of_mod_eq_zero hstart
    rw [hrest, ← hsize]
    exact ⟨by omega, (Nat.div_mul_cancel hdvd).symm, hi_eq_add_size b⟩
  · intro ⟨hlen, hlo, hhi⟩
    have hpos : 0 < 2 ^ (w - len) := Nat.two_pow_pos _
    have hsize : b.size = 2 ^ (w - len) := by
      unfold size
      omega
    have hbits : b.size.log2 = w - len := by rw [hsize, Nat.log2_two_pow]
    have hstart : b.lo.val % b.size = 0 := by
      rw [hsize, hlo]
      exact Nat.mul_mod_left ..
    rw [if_pos ⟨by rw [hbits, hsize], hstart⟩, hbits]
    congr 1
    omega

/-- A prefix keeps its length, whichever of its addresses it was given by. -/
theorem prefixLen?_of_ofPrefix? (h : ofPrefix? a len = some b) : b.prefixLen? = some len := by
  have hblock := ofPrefix?_eq_some_iff.mp h
  rw [prefixLen?_eq_some_iff, ofPrefix?_eq_some_iff]
  refine ⟨hblock.1, ?_, hblock.2.2⟩
  rw [hblock.2.1, Nat.mul_div_cancel _ (Nat.two_pow_pos _)]

theorem prefixLen?_of_leading? {n : Nat} (h : leading? len n n = some b) :
    b.prefixLen? = some len := by
  have hlo : b.lo.val = n * 2 ^ (w - len) := by
    obtain ⟨_, rfl⟩ := leading?_eq_some_iff.mp h
    rfl
  rw [prefixLen?_eq_some_iff]
  unfold ofPrefix?
  rwa [hlo, Nat.mul_div_cancel _ (Nat.two_pow_pos _)]

/-- A block of one number is a prefix of full length. -/
theorem prefixLen?_of_lo_eq_hi (h : b.lo = b.hi) : b.prefixLen? = some w := by
  rw [prefixLen?_eq_some_iff, ofPrefix?_eq_some_iff, Nat.sub_self, Nat.pow_zero, Nat.div_one,
    Nat.mul_one, h]
  exact ⟨Nat.le_refl w, rfl, rfl⟩

end Whois.Block

import Whois.Text.Case

/-!
Texts that are equal but for case hold the same letters, each in one of its two cases.
-/
namespace Whois.Text

variable {s t : Text} {c : Char}

theorem toLower_of_le (h : 128 ≤ c.toNat) : c.toLower = c := by
  have hupper : ¬ c.val ≤ 'Z'.val := by
    have : ¬ c.toNat ≤ 90 := by omega
    simpa [UInt32.le_iff_toNat_le] using this
  exact dif_neg fun hc => hupper hc.2

theorem eq_toLower_or_of_lt : ∀ n : Fin 128,
    Char.ofNat n = (Char.ofNat n).toLower ∨ Char.ofNat n = (Char.ofNat n).toLower.toUpper := by
  decide

/-- A character is the lower or the upper case of its lower case. -/
theorem eq_toLower_or (c : Char) : c = c.toLower ∨ c = c.toLower.toUpper := by
  by_cases h : c.toNat < 128
  · have hascii := eq_toLower_or_of_lt ⟨c.toNat, h⟩
    rwa [Char.ofNat_toNat] at hascii
  · exact .inl (toLower_of_le (by omega)).symm

theorem lower_eq_of_alike (h : alike s t = true) : lower s = lower t := by
  simpa [alike] using h

theorem mem_of_alike (h : alike s t = true) (hc : c ∈ s) : c ∈ lower t ∨ c ∈ upper (lower t) := by
  have hlower : c.toLower ∈ lower t := by
    rw [← lower_eq_of_alike h]
    exact List.mem_map_of_mem hc
  rcases eq_toLower_or c with heq | heq
  · left
    rwa [heq]
  · right
    rw [heq]
    exact List.mem_map_of_mem hlower

theorem mem_or_toUpper_mem_of_alike (h : alike s t = true) (hc : c ∈ lower t) :
    c ∈ s ∨ c.toUpper ∈ s := by
  rw [← lower_eq_of_alike h] at hc
  obtain ⟨d, hd, rfl⟩ := List.mem_map.mp hc
  rcases eq_toLower_or d with heq | heq
  · exact .inl (heq ▸ hd)
  · exact .inr (heq ▸ hd)

/-- What precedes a tail, and the tail as it is written. -/
theorem beforeTail?_eq_some {tail rest : Text} (h : beforeTail? tail t = some rest) :
    ∃ written, t = rest ++ written ∧ alike written tail = true := by
  obtain ⟨rest', hrest, rfl⟩ := Option.map_eq_some_iff.mp h
  obtain ⟨start, hstart, halike⟩ := afterLead?_eq_some hrest
  refine ⟨start.reverse, ?_, ?_⟩
  · rw [← List.reverse_append, ← hstart, List.reverse_reverse]
  · have hlower := lower_eq_of_alike halike
    unfold alike lower at *
    rw [List.map_reverse, hlower, ← List.map_reverse, List.reverse_reverse]
    exact beq_self_eq_true _

theorem afterLead?_append {lead start : Text} (h : alike start lead = true) (rest : Text) :
    afterLead? lead (start ++ rest) = some rest := by
  induction lead generalizing start with
  | nil =>
    have hstart : start = [] := List.map_eq_nil_iff.mp (lower_eq_of_alike h)
    rw [hstart]
    rfl
  | cons c lead ih =>
    cases start with
    | nil => cases lower_eq_of_alike h
    | cons d start =>
      have hlower := lower_eq_of_alike h
      unfold lower at hlower
      rw [List.map_cons, List.map_cons, List.cons.injEq] at hlower
      have hstart : alike start lead = true := beq_iff_eq.mpr hlower.2
      rw [List.cons_append, afterLead?, if_pos hlower.1.symm, ih hstart]

theorem beforeTail?_append {tail written : Text} (h : alike written tail = true) (rest : Text) :
    beforeTail? tail (rest ++ written) = some rest := by
  have hreverse : alike written.reverse tail.reverse = true := by
    have hlower := lower_eq_of_alike h
    unfold alike lower at *
    rw [List.map_reverse, List.map_reverse, hlower]
    exact beq_self_eq_true _
  unfold beforeTail?
  rw [List.reverse_append, afterLead?_append hreverse, Option.map_some, List.reverse_reverse]

end Whois.Text

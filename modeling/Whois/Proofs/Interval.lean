import Whois.Interval

/-!
Containment of intervals and their listing order. Listing is a strict order, any two different
intervals are listed one before the other, and an interval is listed before all that it contains.
-/
namespace Whois.Interval

variable {α : Type} [LE α]

section Listing
variable [LT α] [DecidableLT α] [DecidableEq α]

theorem cmp_eq_lt_iff {a b : Interval α} : a.cmp b = .lt ↔ a.before b = true := by
  unfold cmp
  split
  next h => simp [h]
  next h => split <;> simp [h]

theorem not_before_self [Std.LawfulOrderLT α] (a : Interval α) : ¬ a.before a = true := by
  rw [before_iff]
  rintro (h | ⟨_, h⟩) <;> exact Std.not_lt_of_ge (Std.le_of_lt h) h

theorem ne_of_before [Std.LawfulOrderLT α] {a b : Interval α} (h : a.before b = true) : a ≠ b := by
  rintro rfl
  exact not_before_self a h

variable [Std.IsLinearOrder α] [Std.LawfulOrderLT α]

theorem before_trans {a b c : Interval α} (hab : a.before b = true) (hbc : b.before c = true) :
    a.before c = true := by
  rw [before_iff] at *
  grind

theorem not_before_of_before {a b : Interval α} (h : a.before b = true) :
    ¬ b.before a = true :=
  fun h' => not_before_self a (before_trans h h')

theorem cmp_eq_gt_iff {a b : Interval α} : a.cmp b = .gt ↔ b.before a = true := by
  unfold cmp
  split
  next h => simp [not_before_of_before h]
  next h => split <;> simp_all

theorem before_or_eq_or_before (a b : Interval α) :
    a.before b = true ∨ a = b ∨ b.before a = true := by
  have heq : a.lo = b.lo → a.hi = b.hi → a = b := Interval.ext
  rw [before_iff, before_iff]
  grind

end Listing

section Containment
variable [DecidableLE α] [Std.IsLinearOrder α]

theorem contains_self (a : Interval α) : a.contains a = true :=
  contains_iff.mpr ⟨Std.le_refl _, Std.le_refl _⟩

theorem contains_trans {a b c : Interval α} (hab : a.contains b = true)
    (hbc : b.contains c = true) : a.contains c = true := by
  rw [contains_iff] at *
  exact ⟨Std.le_trans hab.1 hbc.1, Std.le_trans hbc.2 hab.2⟩

end Containment

section Both
variable [LT α] [DecidableLE α] [DecidableLT α] [DecidableEq α]
  [Std.IsLinearOrder α] [Std.LawfulOrderLT α]

theorem before_of_contains {a b : Interval α} (h : a.contains b = true) (hne : a ≠ b) :
    a.before b = true := by
  rcases before_or_eq_or_before a b with hab | rfl | hba
  · exact hab
  · exact absurd rfl hne
  · rw [contains_iff] at h
    rw [before_iff] at hba
    grind

/-- Of two intervals, neither in the other, the one listed later ends later. So what is listed after
both and lies in the first lies in the second too. -/
theorem contains_of_before_of_not_contains {a b c : Interval α} (hab : a.before b = true)
    (hnot : ¬ a.contains b = true) (hbc : b.before c = true) (hac : a.contains c = true) :
    b.contains c = true := by
  rw [before_iff] at hab hbc
  rw [contains_iff] at *
  have hlo : a.lo ≤ b.lo := by grind
  have hhi : a.hi < b.hi := by grind
  grind

end Both

end Whois.Interval

/-!
Closed intervals, and the order in which the blocks of a hierarchy are listed: an interval comes
before the intervals that it contains.
-/
namespace Whois

/-- The values from `lo` to `hi`, both included. -/
@[ext]
structure Interval (α : Type) [LE α] where
  lo : α
  hi : α
  lo_le_hi : lo ≤ hi
  deriving DecidableEq

namespace Interval

variable {α : Type} [LE α]

/-- The interval with the given ends, unless they are in the wrong order. -/
def ofBounds? [DecidableLE α] (lo hi : α) : Option (Interval α) :=
  if h : lo ≤ hi then some ⟨lo, hi, h⟩ else none

/-- The interval that holds one value. -/
def single [Std.IsPreorder α] (a : α) : Interval α := ⟨a, a, Std.IsPreorder.le_refl a⟩

/-- Whether every value of `b` lies in `a`. -/
def contains [DecidableLE α] (a b : Interval α) : Bool :=
  decide (a.lo ≤ b.lo) && decide (b.hi ≤ a.hi)

/-- Whether `a` contains `b` and is not `b`. -/
def strictlyContains [DecidableLE α] [DecidableEq α] (a b : Interval α) : Bool :=
  a.contains b && decide (a ≠ b)

/-- Listing order: the earlier start first, and of two with one start the longer. -/
def before [LT α] [DecidableLT α] [DecidableEq α] (a b : Interval α) : Bool :=
  decide (a.lo < b.lo) || (decide (a.lo = b.lo) && decide (b.hi < a.hi))

/-- The listing order as a three-way comparison. -/
def cmp [LT α] [DecidableLT α] [DecidableEq α] (a b : Interval α) : Ordering :=
  if a.before b then .lt else if b.before a then .gt else .eq

theorem contains_iff [DecidableLE α] {a b : Interval α} :
    a.contains b = true ↔ a.lo ≤ b.lo ∧ b.hi ≤ a.hi := by
  simp [contains]

theorem strictlyContains_iff [DecidableLE α] [DecidableEq α] {a b : Interval α} :
    a.strictlyContains b = true ↔ a.contains b = true ∧ a ≠ b := by
  simp [strictlyContains]

theorem before_iff [LT α] [DecidableLT α] [DecidableEq α] {a b : Interval α} :
    a.before b = true ↔ a.lo < b.lo ∨ a.lo = b.lo ∧ b.hi < a.hi := by
  simp [before]

theorem ofBounds?_eq_some_iff [DecidableLE α] {lo hi : α} {a : Interval α} :
    ofBounds? lo hi = some a ↔ a.lo = lo ∧ a.hi = hi := by
  unfold ofBounds?
  split
  next h =>
    constructor
    · rintro ⟨⟩
      exact ⟨rfl, rfl⟩
    · rintro ⟨rfl, rfl⟩
      rfl
  next h =>
    constructor
    · simp
    · rintro ⟨rfl, rfl⟩
      exact absurd a.lo_le_hi h

end Interval

end Whois

import Whois.Proofs.Index.ListingOrder

/-!
Listing order and containment of keys. Listing puts all keys of the three number spaces in one row, and
a key before every other key that it contains. So in a sorted list whatever a key contains follows it,
and is reached before the first block that starts past its end.
-/
namespace Whois

/-- The laws of a comparison that puts all values in one row. -/
structure IsLinearComparison {α : Type} (cmp : α → α → Ordering) : Prop where
  eq_iff : ∀ a b, cmp a b = .eq ↔ a = b
  gt_iff : ∀ a b, cmp a b = .gt ↔ cmp b a = .lt
  total : ∀ a b, cmp a b ≠ .gt ∨ cmp b a ≠ .gt
  trans : ∀ a b c, cmp a b ≠ .gt → cmp b c ≠ .gt → cmp a c ≠ .gt
  antisymm : ∀ a b, cmp a b ≠ .gt → cmp b a ≠ .gt → a = b

/-- The laws of a containment. -/
structure IsContainment {α : Type} (contains : α → α → Bool) : Prop where
  refl : ∀ a, contains a a = true
  trans : ∀ a b c, contains a b = true → contains b c = true → contains a c = true
  antisymm : ∀ a b, contains a b = true → contains b a = true → a = b

namespace ResourceKey

variable {a b c key : ResourceKey}

theorem notAfter_iff_ne_gt : a.notAfter b = true ↔ a.cmp b ≠ .gt := bne_iff_ne

/-- Only a key and itself compare as equal. -/
theorem cmp_eq_eq_iff : a.cmp b = .eq ↔ a = b := by
  constructor
  · intro h
    rcases cmp_lt_or_eq_or_lt a b with hlt | heq | hgt
    · rw [h] at hlt
      cases hlt
    · exact heq
    · rw [← cmp_eq_gt_iff, h] at hgt
      cases hgt
  · rintro rfl
    cases h : a.cmp a with
    | eq => rfl
    | lt => exact absurd h (not_cmp_of_cmp h)
    | gt => exact absurd (cmp_eq_gt_iff.mp h) (not_cmp_of_cmp (cmp_eq_gt_iff.mp h))

theorem isLinearComparison_cmp : IsLinearComparison cmp where
  eq_iff _ _ := cmp_eq_eq_iff
  gt_iff _ _ := cmp_eq_gt_iff
  total a b := by
    have htotal := notAfter_total a b
    rwa [Bool.or_eq_true, notAfter_iff_ne_gt, notAfter_iff_ne_gt] at htotal
  trans a b c hab hbc := by
    rw [← notAfter_iff_ne_gt] at *
    exact notAfter_trans a b c hab hbc
  antisymm a b hab hba := by
    rw [← notAfter_iff_ne_gt] at hab hba
    exact notAfter_antisymm hab hba

/-- Of two keys that contain each other, each would come first. -/
theorem contains_antisymm (hab : a.contains b = true) (hba : b.contains a = true) : a = b := by
  by_contra hne
  exact not_cmp_of_cmp (cmp_of_contains hab hne) (cmp_of_contains hba (Ne.symm hne))

theorem isContainment_contains : IsContainment contains where
  refl := contains_self
  trans _ _ _ := contains_trans
  antisymm _ _ := contains_antisymm

theorem start_le_end (a : ResourceKey) : a.place.2.1 ≤ a.place.2.2 := by
  obtain ⟨s, a, rfl⟩ := a.exists_eq_ofBlock
  rw [place_ofBlock]
  exact a.lo_le_hi

theorem contains_iff_place : a.contains b = true ↔ a.place.1 = b.place.1 ∧
    a.place.2.1 ≤ b.place.2.1 ∧ b.place.2.2 ≤ a.place.2.2 := by
  obtain ⟨s, a, rfl⟩ := a.exists_eq_ofBlock
  obtain ⟨s', b, rfl⟩ := b.exists_eq_ofBlock
  rw [place_ofBlock_eq_iff, place_ofBlock, place_ofBlock]
  by_cases hs : s = s'
  · subst hs
    rw [contains_ofBlock, Interval.contains_iff, Fin.le_def, Fin.le_def]
    simp
  · simp [contains_ofBlock_of_ne hs, hs]

/-- Whether a block starts past the end of a key: in the same number space, or by being of one that is
listed later. -/
def startsPast (key b : ResourceKey) : Bool :=
  decide (key.place.1 < b.place.1 ∨ key.place.1 = b.place.1 ∧ key.place.2.2 < b.place.2.1)

/-- From a block on that starts past the end of a key, the key contains none. -/
theorem not_contains_of_startsPast (hpast : key.startsPast b = true) (hbc : b.notAfter c = true) :
    key.contains c = false := by
  have hpast := of_decide_eq_true hpast
  have hle := start_le_end c
  rw [Bool.eq_false_iff, ne_eq, contains_iff_place]
  rw [notAfter_iff, cmp_eq_lt_iff] at hbc
  rcases hbc with hlt | rfl <;> omega

variable {keys back : List ResourceKey}

theorem perm_sort (keys : List ResourceKey) : (sort keys).Perm keys := List.mergeSort_perm keys _

theorem pairwise_sort (keys : List ResourceKey) :
    (sort keys).Pairwise fun a b => a.notAfter b = true :=
  pairwise_inListingOrder id keys

/-- In a sorted list a key stands before every other key that it contains. -/
theorem lt_of_contains_sort {i j : Nat} (hi : i < (sort keys).length) (hj : j < (sort keys).length)
    (h : (sort keys)[i].contains (sort keys)[j] = true) (hne : (sort keys)[i] ≠ (sort keys)[j]) :
    i < j := by
  by_contra hnot
  rcases Nat.lt_or_eq_of_le (Nat.le_of_not_lt hnot) with hji | rfl
  · have hafter := List.pairwise_iff_getElem.mp (pairwise_sort keys) j i hj hi hji
    rw [notAfter_iff_ne_gt, ne_eq, cmp_eq_gt_iff] at hafter
    exact hafter (cmp_of_contains h hne)
  · exact hne rfl

/-- What a key contains and follows it is reached before the first block past its end. -/
theorem mem_takeWhile_of_contains (hsorted : back.Pairwise fun a b => a.notAfter b = true)
    (hb : b ∈ back) (h : key.contains b = true) :
    b ∈ back.takeWhile fun c => !key.startsPast c := by
  have hfilter : (back.takeWhile fun c => !key.startsPast c).filter key.contains =
      back.filter key.contains := by
    apply Layer.filter_takeWhile hsorted
    · intro c hc
      exact not_contains_of_startsPast (by simpa using hc) (notAfter_self c)
    · intro c d hc hcd
      exact not_contains_of_startsPast (by simpa using hc) hcd
  have hmem : b ∈ back.filter key.contains := List.mem_filter.mpr ⟨hb, h⟩
  rw [← hfilter] at hmem
  exact List.mem_of_mem_filter hmem

/-- Listing order is a linear order of the keys of all number spaces and extends their containment,
which is a partial order within each space. Hence sorting puts a key before every other key that it
contains, and a walk on from a key reaches all that it contains before the first block that starts past
its end. -/
theorem sort_extends_containment :
    IsLinearComparison cmp ∧ IsContainment contains ∧
    (∀ a b : ResourceKey, a.contains b = true → a.space = b.space) ∧
    (∀ a b : ResourceKey, a.contains b = true → a ≠ b → a.cmp b = .lt) ∧
    ∀ keys : List ResourceKey, (sort keys).Perm keys ∧
      ((sort keys).Pairwise fun a b => a.cmp b ≠ .gt) ∧
      (∀ (i j : Nat) (hi : i < (sort keys).length) (hj : j < (sort keys).length),
        (sort keys)[i].contains (sort keys)[j] = true → (sort keys)[i] ≠ (sort keys)[j] → i < j) ∧
      ∀ (front back : List ResourceKey) (key : ResourceKey), sort keys = front ++ key :: back →
        ∀ b ∈ back, key.contains b = true → b ∈ back.takeWhile fun c => !key.startsPast c := by
  refine ⟨isLinearComparison_cmp, isContainment_contains, fun _ _ => space_eq_of_contains,
    fun _ _ => cmp_of_contains, ?_⟩
  intro keys
  refine ⟨perm_sort keys, (pairwise_sort keys).imp notAfter_iff_ne_gt.mp,
    fun _ _ => lt_of_contains_sort, ?_⟩
  intro front back key hsplit b hb h
  have hsorted := pairwise_sort keys
  rw [hsplit, List.pairwise_append, List.pairwise_cons] at hsorted
  exact mem_takeWhile_of_contains hsorted.2.1.2 hb h

/-- `10.0.0.0/8` is listed before `10.0.0.0/9`, and a walk on from it reaches `10.255.255.255` before
`11.0.0.0` and before all AS numbers. -/
theorem sort_extends_containment_nested :
    ∃ outer inner last next number : ResourceKey,
      (read? "10.0.0.0/8" = some outer ∧ read? "10.0.0.0/9" = some inner ∧
        read? "10.255.255.255" = some last ∧ read? "11.0.0.0" = some next ∧
        read? "AS1 - AS5" = some number) ∧
      (outer.contains inner = true ∧ outer ≠ inner ∧ outer.cmp inner = .lt) ∧
      (outer.startsPast next = true ∧ outer.startsPast number = true) ∧
      sort [outer, inner, last, next, number] = [] ++ outer :: [inner, last, next, number] ∧
      outer.contains last = true ∧
      last ∈ [inner, last, next, number].takeWhile fun c => !outer.startsPast c := by
  obtain ⟨_, _, _, hlt, hsort⟩ := sort_extends_containment
  refine ⟨_, _, _, _, _, ⟨rfl, rfl, rfl, rfl, rfl⟩, ?_, by decide +kernel, ?_⟩
  · have hboth : ∀ a b : ResourceKey, a.contains b = true ∧ a ≠ b →
        a.contains b = true ∧ a ≠ b ∧ a.cmp b = .lt :=
      fun a b h => ⟨h.1, h.2, hlt a b h.1 h.2⟩
    exact hboth _ _ (by decide +kernel)
  · have hlisted : ∀ (key last : ResourceKey) (back : List ResourceKey),
        (key :: back).Pairwise (fun a b => a.notAfter b = true) ∧ last ∈ back ∧
          key.contains last = true → sort (key :: back) = [] ++ key :: back ∧
          key.contains last = true ∧ last ∈ back.takeWhile fun c => !key.startsPast c := by
      intro key last back h
      have hsorted : sort (key :: back) = [] ++ key :: back := List.mergeSort_of_pairwise h.1
      exact ⟨hsorted, h.2.2, (hsort _).2.2.2 _ _ _ hsorted _ h.2.1 h.2.2⟩
    exact hlisted _ _ _ (by decide +kernel)

end ResourceKey

end Whois

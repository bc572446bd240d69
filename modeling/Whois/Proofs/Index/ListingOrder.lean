import Whois.Proofs.Index.LessSpecific

/-!
Items in the listing order of their keys. Items that have one key stay in the order in which they
are, so that a list in listing order is known from what it has under each key.
-/
namespace Whois

namespace ResourceKey

variable {a b c : ResourceKey}

/-- Whether `a` is at or before `b` in listing order. -/
def notAfter (a b : ResourceKey) : Bool := a.cmp b != .gt

theorem notAfter_iff : a.notAfter b = true ↔ a.cmp b = .lt ∨ a = b := by
  unfold notAfter
  rw [bne_iff_ne, ne_eq, cmp_eq_gt_iff]
  constructor
  · intro h
    have hcases := cmp_lt_or_eq_or_lt a b
    exact hcases.imp_right (Or.resolve_right · h)
  · rintro (h | rfl)
    · exact not_cmp_of_cmp h
    · exact fun h => not_cmp_of_cmp h h

theorem notAfter_self (a : ResourceKey) : a.notAfter a = true := notAfter_iff.mpr (.inr rfl)

theorem notAfter_total (a b : ResourceKey) : (a.notAfter b || b.notAfter a) = true := by
  rw [Bool.or_eq_true, notAfter_iff, notAfter_iff]
  have hcases := cmp_lt_or_eq_or_lt a b
  tauto

theorem notAfter_trans (a b c : ResourceKey) (hab : a.notAfter b = true)
    (hbc : b.notAfter c = true) : a.notAfter c = true := by
  rw [notAfter_iff] at *
  rcases hab with hab | rfl
  · rcases hbc with hbc | rfl
    · exact .inl (cmp_trans hab hbc)
    · exact .inl hab
  · exact hbc

theorem notAfter_antisymm (hab : a.notAfter b = true) (hba : b.notAfter a = true) : a = b := by
  rw [notAfter_iff] at *
  rcases hab with hab | heq
  · rcases hba with hba | heq
    · exact absurd hba (not_cmp_of_cmp hab)
    · exact heq.symm
  · exact heq

end ResourceKey

section Items
variable {α β : Type} {keyOf : α → ResourceKey} {items : List α}

/-- Items in listing order. Items with one key stay in the order in which they are. -/
def inListingOrder (keyOf : α → ResourceKey) (items : List α) : List α :=
  items.mergeSort fun a b => (keyOf a).notAfter (keyOf b)

theorem mem_inListingOrder {a : α} : a ∈ inListingOrder keyOf items ↔ a ∈ items :=
  List.mem_mergeSort

theorem map_inListingOrder {keyOf : β → ResourceKey} (f : α → β) (items : List α) :
    (inListingOrder (fun a => keyOf (f a)) items).map f = inListingOrder keyOf (items.map f) :=
  List.map_mergeSort fun _ _ _ _ => rfl

theorem pairwise_inListingOrder (keyOf : α → ResourceKey) (items : List α) :
    (inListingOrder keyOf items).Pairwise fun a b => (keyOf a).notAfter (keyOf b) = true :=
  List.pairwise_mergeSort (fun a b c => ResourceKey.notAfter_trans (keyOf a) (keyOf b) (keyOf c))
    (fun a b => ResourceKey.notAfter_total (keyOf a) (keyOf b)) items

theorem pairwise_filter_key (keyOf : α → ResourceKey) (items : List α) (key : ResourceKey) :
    (items.filter fun a => decide (keyOf a = key)).Pairwise
      fun a b => (keyOf a).notAfter (keyOf b) = true := by
  apply List.pairwise_of_forall_mem_list
  intro a ha b hb
  rw [List.mem_filter, decide_eq_true_iff] at ha hb
  rw [ha.2, hb.2]
  exact ResourceKey.notAfter_self key

/-- The items with one key stay in the order in which they are. -/
theorem filter_inListingOrder (keyOf : α → ResourceKey) (items : List α) (key : ResourceKey) :
    ((inListingOrder keyOf items).filter fun a => decide (keyOf a = key)) =
      items.filter fun a => decide (keyOf a = key) := by
  have hsub : (items.filter fun a => decide (keyOf a = key)).Sublist (inListingOrder keyOf items) :=
    List.sublist_mergeSort
      (fun a b c => ResourceKey.notAfter_trans (keyOf a) (keyOf b) (keyOf c))
      (fun a b => ResourceKey.notAfter_total (keyOf a) (keyOf b))
      (pairwise_filter_key keyOf items key) List.filter_sublist
  have hlength := ((List.mergeSort_perm items fun a b => (keyOf a).notAfter (keyOf b)).filter
    fun a => decide (keyOf a = key)).length_eq
  have hfiltered := hsub.filter fun a => decide (keyOf a = key)
  simp only [List.filter_filter, Bool.and_self] at hfiltered
  exact (hfiltered.eq_of_length hlength.symm).symm

section Uniqueness
variable {l l' : List α}

theorem mem_iff_of_filter_eq (h : ∀ key, (l.filter fun a => decide (keyOf a = key)) =
    l'.filter fun a => decide (keyOf a = key)) (a : α) : a ∈ l ↔ a ∈ l' := by
  have ha : a ∈ l.filter (fun b => decide (keyOf b = keyOf a)) ↔
      a ∈ l'.filter (fun b => decide (keyOf b = keyOf a)) := by rw [h]
  simpa [List.mem_filter] using ha

/-- A list in listing order is known from what it has under each key. -/
theorem eq_of_filter_eq (hl : l.Pairwise fun a b => (keyOf a).notAfter (keyOf b) = true)
    (hl' : l'.Pairwise fun a b => (keyOf a).notAfter (keyOf b) = true)
    (h : ∀ key, (l.filter fun a => decide (keyOf a = key)) =
      l'.filter fun a => decide (keyOf a = key)) : l = l' := by
  have hmem := mem_iff_of_filter_eq h
  induction l generalizing l' with
  | nil =>
    cases l' with
    | nil => rfl
    | cons b l' => exact absurd ((hmem b).mpr List.mem_cons_self) List.not_mem_nil
  | cons a l ih =>
    cases l' with
    | nil => exact absurd ((hmem a).mp List.mem_cons_self) List.not_mem_nil
    | cons b l' =>
      obtain ⟨ha, hrest⟩ := List.pairwise_cons.mp hl
      obtain ⟨hb, hrest'⟩ := List.pairwise_cons.mp hl'
      have hkeys : keyOf a = keyOf b := by
        apply ResourceKey.notAfter_antisymm
        · rcases List.mem_cons.mp ((hmem b).mpr List.mem_cons_self) with rfl | hbl
          · exact ResourceKey.notAfter_self _
          · exact ha b hbl
        · rcases List.mem_cons.mp ((hmem a).mp List.mem_cons_self) with rfl | hal
          · exact ResourceKey.notAfter_self _
          · exact hb a hal
      have hfirst := h (keyOf a)
      rw [List.filter_cons_of_pos (by simp), List.filter_cons_of_pos (by simp [hkeys])] at hfirst
      obtain ⟨rfl, _⟩ := List.cons.inj hfirst
      have hfilter : ∀ key, (l.filter fun a => decide (keyOf a = key)) =
          l'.filter fun a => decide (keyOf a = key) := by
        intro key
        have hkey := h key
        by_cases hakey : keyOf a = key <;> simpa [List.filter_cons, hakey] using hkey
      exact congrArg (List.cons a) (ih hrest hrest' hfilter (mem_iff_of_filter_eq hfilter))

end Uniqueness

section Blocks
variable {blocks : List ResourceKey}

theorem filter_flatMap_key {key : ResourceKey} (hnodup : blocks.Nodup)
    (hmem : ∀ a ∈ items, keyOf a = key → key ∈ blocks) :
    ((blocks.flatMap fun b => items.filter fun a => decide (keyOf a = b)).filter
      fun a => decide (keyOf a = key)) = items.filter fun a => decide (keyOf a = key) := by
  induction blocks with
  | nil =>
    rw [List.flatMap_nil, List.filter_nil, eq_comm, List.filter_eq_nil_iff]
    intro a ha hkey
    exact absurd (hmem a ha (of_decide_eq_true hkey)) List.not_mem_nil
  | cons b rest ih =>
    obtain ⟨hb, hrest⟩ := List.nodup_cons.mp hnodup
    rw [List.flatMap_cons, List.filter_append, List.filter_filter]
    by_cases hbkey : b = key
    · subst hbkey
      have hothers : ((rest.flatMap fun c => items.filter fun a => decide (keyOf a = c)).filter
          fun a => decide (keyOf a = b)) = [] := by
        rw [List.filter_eq_nil_iff]
        intro a ha hab
        obtain ⟨c, hc, hac⟩ := List.mem_flatMap.mp ha
        have hac := of_decide_eq_true (List.mem_filter.mp hac).2
        exact hb (of_decide_eq_true hab ▸ hac ▸ hc)
      simp [hothers]
    · have hnone : (items.filter fun a => decide (keyOf a = key) && decide (keyOf a = b)) = [] := by
        rw [List.filter_eq_nil_iff]
        intro a _ hab
        rw [Bool.and_eq_true, decide_eq_true_iff, decide_eq_true_iff] at hab
        exact hbkey (hab.2.symm.trans hab.1)
      rw [hnone, List.nil_append, ih hrest]
      intro a ha hkey
      exact (List.mem_cons.mp (hmem a ha hkey)).resolve_left (Ne.symm hbkey)

/-- Items in listing order are the items of one block after those of another. -/
theorem inListingOrder_eq_flatMap (hsorted : blocks.Pairwise fun a b => a.cmp b = .lt)
    (hmem : ∀ a ∈ items, keyOf a ∈ blocks) :
    inListingOrder keyOf items =
      blocks.flatMap fun b => items.filter fun a => decide (keyOf a = b) := by
  apply eq_of_filter_eq (pairwise_inListingOrder keyOf items)
  · refine List.pairwise_flatMap.mpr ⟨fun b _ => pairwise_filter_key keyOf items b, ?_⟩
    refine hsorted.imp ?_
    intro b c hbc a ha a' ha'
    rw [List.mem_filter, decide_eq_true_iff] at ha ha'
    rw [ha.2, ha'.2, ResourceKey.notAfter_iff]
    exact .inl hbc
  · intro key
    rw [filter_inListingOrder, filter_flatMap_key (ResourceKey.nodup_of_sorted hsorted)]
    intro a ha hkey
    exact hkey ▸ hmem a ha

end Blocks

end Items

end Whois

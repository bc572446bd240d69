import Mathlib.Data.List.Induction
import Mathlib.Data.List.Nodup

/-!
Lists without later repetitions, lists put together from parts, and lists that are at once filtered
and mapped.
-/
namespace Whois

variable {α β : Type}

theorem nodup_eraseDups [BEq α] [LawfulBEq α] (l : List α) : l.eraseDups.Nodup := by
  induction l using List.reverseRecOn with
  | nil => exact List.nodup_nil
  | append_singleton l a ih =>
    rw [List.eraseDups_append]
    by_cases h : a ∈ l
    · have hrest : ([a].removeAll l).eraseDups = [] := by simp [List.removeAll, h]
      rwa [hrest, List.append_nil]
    · have hrest : ([a].removeAll l).eraseDups = [a] := by
        simp [List.removeAll, List.eraseDups_cons, h]
      rw [hrest, List.nodup_append]
      refine ⟨ih, List.nodup_singleton a, ?_⟩
      rintro b hb c hc rfl
      rw [List.mem_eraseDups] at hb
      rw [List.mem_singleton] at hc
      exact h (hc ▸ hb)

theorem eraseDups_of_nodup [BEq α] [LawfulBEq α] {l : List α} (h : l.Nodup) :
    l.eraseDups = l := by
  induction l with
  | nil => rfl
  | cons a l ih =>
    obtain ⟨ha, hl⟩ := List.nodup_cons.mp h
    have hrest : l.filter (fun b => !b == a) = l := by
      rw [List.filter_eq_self]
      intro b hb
      have hne : b ≠ a := fun heq => ha (heq ▸ hb)
      simpa using hne
    rw [List.eraseDups_cons, hrest, ih hl]

theorem eraseDups_filter [BEq α] [LawfulBEq α] (p : α → Bool) (l : List α) :
    (l.filter p).eraseDups = l.eraseDups.filter p := by
  induction l using List.reverseRecOn with
  | nil => rfl
  | append_singleton l a ih =>
    rw [List.filter_append, List.eraseDups_append, List.eraseDups_append, List.filter_append, ih]
    congr 1
    cases hp : p a with
    | true => by_cases h : a ∈ l <;> simp [List.removeAll, List.eraseDups_cons, h, hp]
    | false => by_cases h : a ∈ l <;> simp [List.removeAll, List.eraseDups_cons, h, hp]

/-- Repetitions within the parts of a list are repetitions in it. -/
theorem eraseDups_flatMap_eraseDups [BEq β] [LawfulBEq β] (parts : List α) (f : α → List β) :
    (parts.flatMap fun a => (f a).eraseDups).eraseDups = (parts.flatMap f).eraseDups := by
  induction parts with
  | nil => rfl
  | cons a rest ih =>
    have hremove : ∀ l : List β, l.removeAll (f a).eraseDups = l.removeAll (f a) := by
      intro l
      simp [List.removeAll, List.mem_eraseDups]
    rw [List.flatMap_cons, List.flatMap_cons, List.eraseDups_append, List.eraseDups_append,
      eraseDups_of_nodup (nodup_eraseDups (f a)), hremove]
    unfold List.removeAll
    rw [eraseDups_filter, eraseDups_filter, ih]

/-- What comes of a repetition repeats what came of the first. -/
theorem eraseDups_flatMap_of_eraseDups [BEq α] [LawfulBEq α] [BEq β] [LawfulBEq β] (l : List α)
    (f : α → List β) : (l.eraseDups.flatMap f).eraseDups = (l.flatMap f).eraseDups := by
  induction l using List.reverseRecOn with
  | nil => rfl
  | append_singleton l a ih =>
    rw [List.eraseDups_append, List.flatMap_append, List.flatMap_append, List.eraseDups_append,
      List.eraseDups_append, ih]
    rw [List.flatMap_singleton]
    congr 1
    by_cases ha : a ∈ l
    · have hleft : [a].removeAll l = [] := by simp [List.removeAll, ha]
      have hright : (f a).removeAll (l.flatMap f) = [] := by
        unfold List.removeAll
        rw [List.filter_eq_nil_iff]
        intro b hb
        simpa using ⟨a, ha, hb⟩
      rw [hleft, hright]
      rfl
    · have hleft : [a].removeAll l = [a] := by simp [List.removeAll, ha]
      have hmem : (f a).removeAll (l.eraseDups.flatMap f) = (f a).removeAll (l.flatMap f) := by
        simp [List.removeAll]
      rw [hleft, eraseDups_of_nodup (List.nodup_singleton a), List.flatMap_singleton, hmem]

theorem eraseDups_map_of_eraseDups [BEq α] [LawfulBEq α] [BEq β] [LawfulBEq β] (l : List α)
    (f : α → β) : (l.eraseDups.map f).eraseDups = (l.map f).eraseDups := by
  rw [List.map_eq_flatMap, List.map_eq_flatMap, eraseDups_flatMap_of_eraseDups]

/-- The last item of a selection is the last of a narrower one, if it is in that. -/
theorem getLast?_filter_of_imp {p q : α → Bool} {l : List α} (himp : ∀ a, q a = true → p a = true)
    (hlast : ∀ a, (l.filter p).getLast? = some a → q a = true) :
    (l.filter q).getLast? = (l.filter p).getLast? := by
  have hfilter : l.filter q = (l.filter p).filter q := by
    rw [List.filter_filter]
    apply List.filter_congr
    intro a _
    cases hq : q a with
    | true => rw [himp a hq, Bool.and_self]
    | false => rw [Bool.false_and]
  rw [hfilter]
  rcases List.eq_nil_or_concat (l.filter p) with hnil | ⟨rest, a, hconcat⟩
  · rw [hnil, List.filter_nil]
  · rw [List.concat_eq_append] at hconcat
    have ha : q a = true := hlast a (by rw [hconcat, List.getLast?_concat])
    rw [hconcat, List.filter_append, List.filter_cons_of_pos ha, List.filter_nil,
      List.getLast?_concat, List.getLast?_concat]

/-- A list with one item at most is its last item. -/
theorem toList_getLast?_of_forall_eq {l : List α} (hnodup : l.Nodup)
    (h : ∀ a ∈ l, ∀ b ∈ l, a = b) : l.getLast?.toList = l := by
  match l, hnodup, h with
  | [], _, _ => rfl
  | [_], _, _ => rfl
  | a :: b :: rest, hnodup, h =>
    have hab : a = b := h a (by simp) b (by simp)
    simp [hab] at hnodup

/-- A list is mapped onto what another is mapped onto if each of its items is. -/
theorem exists_map_eq_map {γ : Type} {f : α → γ} {g : β → γ} {l : List α}
    (h : ∀ a ∈ l, ∃ b, f a = g b) : ∃ l' : List β, l.map f = l'.map g := by
  induction l with
  | nil => exact ⟨[], rfl⟩
  | cons a l ih =>
    obtain ⟨⟨b, hb⟩, hl⟩ := List.forall_mem_cons.mp h
    obtain ⟨l', hl'⟩ := ih hl
    exact ⟨b :: l', by rw [List.map_cons, List.map_cons, hb, hl']⟩

/-- Two lists in a strict order are equal if they have the same members. -/
theorem eq_of_pairwise_of_mem_iff {r : α → α → Prop} {l l' : List α}
    (hasymm : ∀ a b, r a b → ¬ r b a) (hl : l.Pairwise r) (hl' : l'.Pairwise r)
    (hmem : ∀ a, a ∈ l ↔ a ∈ l') : l = l' := by
  have hnodup : ∀ {k : List α}, k.Pairwise r → k.Nodup := by
    intro k hk
    rw [List.nodup_iff_pairwise_ne]
    refine hk.imp ?_
    rintro a b hab rfl
    exact hasymm a a hab hab
  have hperm := (List.perm_ext_iff_of_nodup (hnodup hl) (hnodup hl')).mpr hmem
  apply hperm.eq_of_pairwise _ hl hl'
  intro a b _ _ hab hba
  exact absurd hba (hasymm a b hab)

theorem mem_of_mem_intercalate {a : α} {sep : List α} {parts : List (List α)}
    (h : a ∈ sep.intercalate parts) : a ∈ sep ∨ ∃ part ∈ parts, a ∈ part := by
  induction parts with
  | nil => cases h
  | cons part rest ih =>
    by_cases hrest : rest = []
    · rw [hrest, List.intercalate_singleton] at h
      exact .inr ⟨part, List.mem_cons_self, h⟩
    · rw [List.intercalate_cons_of_ne_nil hrest, List.mem_append, List.mem_append] at h
      rcases h with (h | h) | h
      · exact .inr ⟨part, List.mem_cons_self, h⟩
      · exact .inl h
      · refine (ih h).imp_right ?_
        rintro ⟨part', hpart', ha⟩
        exact ⟨part', List.mem_cons_of_mem _ hpart', ha⟩

theorem filterMap_eq_map_filter {f : α → Option β} {p : α → Bool} {g : α → β} {l : List α}
    (h : ∀ a ∈ l, f a = if p a then some (g a) else none) :
    l.filterMap f = (l.filter p).map g := by
  induction l with
  | nil => rfl
  | cons a l ih =>
    have ha := h a List.mem_cons_self
    have hl := ih fun b hb => h b (List.mem_cons_of_mem _ hb)
    cases hp : p a <;> simp_all

end Whois

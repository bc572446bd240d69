import Mathlib.Data.List.Induction
import Whois.Proofs.Flag.Registry
import Whois.Options.Basic

/-!
The values that flags end up with, as a function of all their occurrences at once. They can be
collected exactly if all values of a flag that is not repeatable are equal.
-/
namespace Whois.Given

/-- The values given for a flag, in order. -/
def valuesOf (os : List Occurrence) (f : Flag) : List Text :=
  os.filterMap fun o => if o.spec.flag = f then o.value else Option.none

theorem valuesOf_append (os os' : List Occurrence) (f : Flag) :
    valuesOf (os ++ os') f = valuesOf os f ++ valuesOf os' f := by
  unfold valuesOf
  exact List.filterMap_append

theorem valuesOf_singleton_self (o : Occurrence) :
    valuesOf [o] o.spec.flag = o.value.toList := by
  cases h : o.value <;> simp [valuesOf, h]

theorem valuesOf_singleton_of_ne {o : Occurrence} {f : Flag} (h : f ≠ o.spec.flag) :
    valuesOf [o] f = [] := by
  simp [valuesOf, Ne.symm h]

theorem valuesOf_eq_nil {os : List Occurrence} {f : Flag} (h : ¬ ∃ o ∈ os, o.spec.flag = f) :
    valuesOf os f = [] := by
  unfold valuesOf
  rw [List.filterMap_eq_nil_iff]
  intro o ho
  rw [if_neg (fun hf => h ⟨o, ho, hf⟩)]

theorem mem_valuesOf {os : List Occurrence} {f : Flag} {v : Text} :
    v ∈ valuesOf os f ↔ ∃ o ∈ os, o.spec.flag = f ∧ o.value = some v := by
  unfold valuesOf
  simp only [List.mem_filterMap, Option.ite_none_right_eq_some]

variable (r : Registry)

/-- Of a flag that is not repeatable only the first value is kept. -/
def kept (f : Flag) (values : List Text) : List Text :=
  if r.isRepeatable f then values else values.take 1

/-- The flags that occur, with the values kept of each. -/
def collected (os : List Occurrence) : Given := fun f =>
  if ∃ o ∈ os, o.spec.flag = f then some (kept r f (valuesOf os f)) else Option.none

/-- Whether a flag that is not repeatable always has the same value. -/
def Consistent (os : List Occurrence) : Prop :=
  ∀ f, r.isRepeatable f = false → ∀ v ∈ valuesOf os f, ∀ v' ∈ valuesOf os f, v = v'

variable {r} {os os' : List Occurrence} {f : Flag}

theorem kept_nil : kept r f [] = [] := by
  unfold kept
  split <;> rfl

theorem collected_isSome : (collected r os f).isSome = true ↔ ∃ o ∈ os, o.spec.flag = f := by
  unfold collected
  split <;> simp [*]

theorem getD_collected : (collected r os f).getD [] = kept r f (valuesOf os f) := by
  unfold collected
  split
  next => rfl
  next h => rw [valuesOf_eq_nil h, kept_nil, Option.getD_none]

theorem mem_kept {values : List Text} {v : Text}
    (h : r.isRepeatable f = false → ∀ v ∈ values, ∀ v' ∈ values, v = v') :
    v ∈ kept r f values ↔ v ∈ values := by
  unfold kept
  cases hf : r.isRepeatable f with
  | true => rfl
  | false =>
    cases values with
    | nil => rfl
    | cons first rest =>
      simp only [Bool.false_eq_true, if_false, List.take_succ_cons, List.take_zero,
        List.mem_singleton]
      constructor
      · rintro rfl
        exact List.mem_cons_self
      · intro hv
        exact h hf v hv first List.mem_cons_self

/-- The first of all values is the first of the earlier ones, if there are any. -/
theorem kept_append (values values' : List Text) :
    kept r f (values ++ values') =
      if r.isRepeatable f then kept r f values ++ kept r f values'
      else if kept r f values = [] then kept r f values' else kept r f values := by
  unfold kept
  cases r.isRepeatable f <;> cases values <;> simp

theorem collected_append : collected r (os ++ os') f =
    if (collected r os f).isSome || (collected r os' f).isSome then
      some (kept r f (valuesOf os f ++ valuesOf os' f))
    else Option.none := by
  have hocc : ((collected r os f).isSome || (collected r os' f).isSome) = true ↔
      ∃ o ∈ os ++ os', o.spec.flag = f := by
    rw [Bool.or_eq_true, collected_isSome, collected_isSome]
    simp only [List.mem_append, or_and_right, exists_or]
  conv => lhs; unfold collected
  rw [valuesOf_append]
  simp only [hocc]

theorem consistent_append : Consistent r (os ++ os') ↔
    Consistent r os ∧ Consistent r os' ∧
      ∀ f, r.isRepeatable f = false → ∀ v ∈ valuesOf os f, ∀ v' ∈ valuesOf os' f, v = v' := by
  unfold Consistent
  simp only [valuesOf_append, List.mem_append]
  constructor
  · intro h
    refine ⟨?_, ?_, ?_⟩
    · exact fun f hf v hv v' hv' => h f hf v (.inl hv) v' (.inl hv')
    · exact fun f hf v hv v' hv' => h f hf v (.inr hv) v' (.inr hv')
    · exact fun f hf v hv v' hv' => h f hf v (.inl hv) v' (.inr hv')
  · rintro ⟨hleft, hright, hboth⟩ f hf v (hv | hv) v' (hv' | hv')
    · exact hleft f hf v hv v' hv'
    · exact hboth f hf v hv v' hv'
    · exact (hboth f hf v' hv' v hv).symm
    · exact hright f hf v hv v' hv'

variable {o : Occurrence}

theorem collected_concat : collected r (os ++ [o]) =
    (collected r os).set o.spec.flag
      (kept r o.spec.flag (valuesOf os o.spec.flag ++ o.value.toList)) := by
  funext f
  by_cases hf : f = o.spec.flag
  · subst hf
    rw [set_self]
    unfold collected
    rw [if_pos ⟨o, by simp⟩, valuesOf_append, valuesOf_singleton_self]
  · rw [set_of_ne _ _ hf]
    unfold collected
    rw [valuesOf_append, valuesOf_singleton_of_ne hf, List.append_nil]
    have hocc : (∃ o' ∈ os ++ [o], o'.spec.flag = f) ↔ ∃ o' ∈ os, o'.spec.flag = f := by
      simp [or_and_right, exists_or, Ne.symm hf]
    simp only [hocc]

theorem mem_valuesOf_singleton {v : Text} :
    v ∈ valuesOf [o] f ↔ o.spec.flag = f ∧ o.value = some v := by
  simp [mem_valuesOf]

theorem consistent_concat (h : Consistent r os) : Consistent r (os ++ [o]) ↔
    (r.isRepeatable o.spec.flag = false →
      ∀ v ∈ valuesOf os o.spec.flag, ∀ v', o.value = some v' → v = v') := by
  rw [consistent_append]
  constructor
  · rintro ⟨_, _, hboth⟩ hf v hv v' hv'
    exact hboth o.spec.flag hf v hv v' (mem_valuesOf_singleton.mpr ⟨rfl, hv'⟩)
  · intro hvalues
    refine ⟨h, ?_, ?_⟩
    · intro f _ v hv v' hv'
      obtain ⟨_, hv⟩ := mem_valuesOf_singleton.mp hv
      obtain ⟨_, hv'⟩ := mem_valuesOf_singleton.mp hv'
      exact Option.some.inj (hv.symm.trans hv')
    · intro f hf v hv v' hv'
      obtain ⟨rfl, hvalue⟩ := mem_valuesOf_singleton.mp hv'
      exact hvalues hf v hv v' hvalue

/-- One more occurrence is added to what has been collected, unless it has a second value. -/
theorem add_collected (hcons : Consistent r os) (ho : o.spec ∈ r.specs) (g : Given) :
    (collected r os).add o = .ok g ↔
      Consistent r (os ++ [o]) ∧ collected r (os ++ [o]) = g := by
  have hrep := Registry.isRepeatable_flag ho
  have hcons' := hcons o.spec.flag
  rw [consistent_concat hcons, collected_concat]
  unfold add
  simp only [getD_collected]
  -- From here on only the earlier values of this one flag matter.
  generalize valuesOf os o.spec.flag = values at hcons' ⊢
  cases hvalue : o.value with
  | none => simp
  | some value =>
    cases values with
    | nil => simp [kept]
    | cons first rest =>
      cases hr : o.spec.repeatable with
      | true => simp [kept, hrep, hr]
      | false =>
        rw [hr] at hrep
        have hall : (∀ v ∈ first :: rest, v = value) ↔ first = value := by
          constructor
          · intro h
            exact h first List.mem_cons_self
          · rintro rfl v hv
            exact hcons' hrep v hv first List.mem_cons_self
        simp only [kept, hrep, Bool.false_eq_true, if_false, List.take_succ_cons, List.take_zero,
          List.cons_append, Option.toList_some, forall_const, Option.some.injEq, forall_eq', hall]
        by_cases heq : first = value <;> simp [heq]

theorem ofOccurrences_concat (os : List Occurrence) (o : Occurrence) :
    ofOccurrences (os ++ [o]) = (ofOccurrences os).bind (·.add o) := by
  unfold ofOccurrences
  rw [List.foldlM_append]
  simp only [List.foldlM_cons, List.foldlM_nil, bind_pure]
  rfl

/-- Occurrences have values for each flag exactly if they are consistent. -/
theorem ofOccurrences_eq_ok_iff (hos : ∀ o ∈ os, o.spec ∈ r.specs) (g : Given) :
    ofOccurrences os = .ok g ↔ Consistent r os ∧ collected r os = g := by
  induction os using List.reverseRecOn generalizing g with
  | nil =>
    have hcons : Consistent r [] := by simp [Consistent, valuesOf]
    have hnone : collected r [] = none := by
      funext f
      simp [collected, none]
    rw [hnone]
    simp [ofOccurrences, hcons, pure, Except.pure]
  | append_singleton os o ih =>
    have ho : o.spec ∈ r.specs := hos o (by simp)
    have ih := ih fun o' ho' => hos o' (by simp [ho'])
    rw [ofOccurrences_concat]
    constructor
    · intro h
      cases hfirst : ofOccurrences os with
      | error f => simp [hfirst, Except.bind] at h
      | ok g' =>
        obtain ⟨hcons, rfl⟩ := (ih g').mp hfirst
        rw [hfirst] at h
        exact (add_collected hcons ho g).mp h
    · rintro ⟨hcons, hg⟩
      have hcons' := (consistent_append.mp hcons).1
      rw [(ih _).mpr ⟨hcons', rfl⟩]
      exact (add_collected hcons' ho g).mpr ⟨hcons, hg⟩

end Whois.Given

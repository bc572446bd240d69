import Whois.Proofs.Query.Outcome

/-!
Queries for abuse contacts. Only address space and AS numbers have them, so such a query is refused
if the key finds none of these, or none among the types that are selected.
-/
namespace Whois

theorem Fault.issue_eq_abuseContact {r : Request} {f : Fault} :
    f.issue r = .abuseContactNotApplicable ↔ f = .abuseContact := by
  cases f <;> simp [issue]

namespace Request

variable {r : Request} {t : ObjectType}

/-- No flag rules out a type with an abuse contact. -/
theorem isAllowed_of_withAbuseContact (h : t ∈ ObjectType.withAbuseContact) :
    r.isAllowed t = true := by
  have hcontact : ObjectType.contacts.contains t = false := by
    revert t
    decide
  have hresource : ObjectType.resources.contains t = true := by
    revert t
    decide
  unfold isAllowed
  rw [hcontact, hresource, List.contains_iff_mem.mpr h]
  simp

theorem withAbuseContact_of_isAllowed (habuse : r.has .abuseContact = true)
    (h : r.isAllowed t = true) : t ∈ ObjectType.withAbuseContact := by
  unfold isAllowed at h
  rw [habuse, Bool.not_true, Bool.false_or, Bool.and_eq_true] at h
  exact List.contains_iff_mem.mp h.2

/-- A query for abuse contacts that is not inverse searches nothing if the key finds no selected type
that has them. -/
theorem objectTypes_eq_nil_iff (habuse : r.has .abuseContact = true)
    (hdirect : r.has .inverse = false) : r.objectTypes = [] ↔
      ∀ t ∈ ObjectType.withAbuseContact, r.isSelected t = true → r.target.canFind t = false := by
  rw [List.eq_nil_iff_forall_not_mem]
  constructor
  · intro hnil t ht hselected
    rw [Bool.eq_false_iff]
    intro hfind
    apply hnil t
    rw [mem_objectTypes]
    exact ⟨⟨hselected, isAllowed_of_withAbuseContact ht⟩, .inr hfind⟩
  · intro hnone t ht
    obtain ⟨⟨hselected, hallowed⟩, hfind⟩ := mem_objectTypes.mp ht
    have hcan := hnone t (withAbuseContact_of_isAllowed habuse hallowed) hselected
    rw [hdirect, hcan] at hfind
    simp at hfind

end Request

/-- Each type with an abuse contact is looked up through the attribute that it is named for. -/
theorem Target.forall_canFind_eq_false_iff (target : Target) :
    (∀ t ∈ ObjectType.withAbuseContact, target.canFind t = false) ↔
      ∀ a ∈ [AttributeType.inetnum, .inet6num, .autNum], target.canUse a = false := by
  simp [ObjectType.withAbuseContact, canFind, ObjectType.lookupAttributes]

namespace Query

variable {raw : Text} {o : Options} {origin : Origin} {credentials : Option Credentials}

/-- Whether a query is refused and the refusal lists an issue. -/
def RefusedFor (raw : Text) (origin : Origin) (credentials : Option Credentials) (i : Issue) :
    Prop :=
  ∃ e, resolve raw origin credentials = .error e ∧ i ∈ e.errors

/-- A refusal lists the issues of all faults that are present. -/
theorem refusedFor_iff {i : Issue} (h : Options.read raw = .ok o) :
    RefusedFor raw origin credentials i ↔
      ∃ f : Fault, f.Present ⟨Text.trim raw, o⟩ ∧ f.issue ⟨Text.trim raw, o⟩ = i := by
  obtain ⟨faults, hmem, _, _, hissues⟩ := reports_of_read h
  have herrors : (∃ f : Fault, f.Present ⟨Text.trim raw, o⟩ ∧ f.issue ⟨Text.trim raw, o⟩ = i) ↔
      i ∈ Request.errors ⟨Text.trim raw, o⟩ := by
    unfold Request.errors
    rw [← hissues, List.mem_map]
    simp only [hmem]
  rw [herrors]
  constructor
  · rintro ⟨e, he, hi⟩
    rwa [(resolve_eq_error_iff h).mp he]
  · intro hi
    cases hlist : Request.errors ⟨Text.trim raw, o⟩ with
    | nil =>
      rw [hlist] at hi
      cases hi
    | cons first others =>
      rw [hlist] at hi
      exact ⟨⟨first, others⟩, (resolve_eq_error_iff h).mpr hlist, hi⟩

theorem refusedFor_abuseContact_iff (h : Options.read raw = .ok o)
    (habuse : o.has .abuseContact = true) :
    RefusedFor raw origin credentials .abuseContactNotApplicable ↔
      Request.objectTypes ⟨Text.trim raw, o⟩ = [] := by
  rw [refusedFor_iff h]
  simp only [Fault.issue_eq_abuseContact, exists_eq_right]
  rw [Fault.present_iff_applies rfl]
  exact and_iff_right habuse

/-- A query for abuse contacts is refused for it if the key finds no selected type that has them.
Unless types are selected by name or by a lookup in both directions, that is if the key finds neither
address space nor AS numbers. -/
theorem resolve_abuseContact (h : Options.read raw = .ok o) (habuse : o.has .abuseContact = true)
    (hdirect : o.has .inverse = false) (origin : Origin) (credentials : Option Credentials) :
    (RefusedFor raw origin credentials .abuseContactNotApplicable ↔
      ∀ t ∈ ObjectType.withAbuseContact, Request.isSelected ⟨Text.trim raw, o⟩ t = true →
        (Request.target ⟨Text.trim raw, o⟩).canFind t = false) ∧
    ((∀ a ∈ [AttributeType.inetnum, .inet6num, .autNum],
        (Request.target ⟨Text.trim raw, o⟩).canUse a = false) →
      RefusedFor raw origin credentials .abuseContactNotApplicable) ∧
    (o.has .selectTypes = false → o.has .reverseDomain = false →
      (RefusedFor raw origin credentials .abuseContactNotApplicable ↔
        ∀ a ∈ [AttributeType.inetnum, .inet6num, .autNum],
          (Request.target ⟨Text.trim raw, o⟩).canUse a = false)) := by
  have hrefused : RefusedFor raw origin credentials .abuseContactNotApplicable ↔
      ∀ t ∈ ObjectType.withAbuseContact, Request.isSelected ⟨Text.trim raw, o⟩ t = true →
        (Request.target ⟨Text.trim raw, o⟩).canFind t = false :=
    (refusedFor_abuseContact_iff h habuse).trans (Request.objectTypes_eq_nil_iff habuse hdirect)
  refine ⟨hrefused, ?_, ?_⟩
  · intro hnone
    rw [← Target.forall_canFind_eq_false_iff] at hnone
    exact hrefused.mpr fun t ht _ => hnone t ht
  · intro htypes hboth
    have hselected : ∀ t, Request.isSelected ⟨Text.trim raw, o⟩ t = true := fun t =>
      Request.isSelected_of_not_has hboth htypes
    rw [hrefused, ← Target.forall_canFind_eq_false_iff]
    simp only [hselected, true_implies]

theorem resolve_abuseContact_objectName : ∃ o,
    (Options.read "-b --resource EXAMPLE-MNT" = .ok o ∧ o.has .abuseContact = true ∧
      o.has .inverse = false ∧ o.has .selectTypes = false ∧ o.has .reverseDomain = false) ∧
    RefusedFor "-b --resource EXAMPLE-MNT" .direct none .abuseContactNotApplicable := by
  have hread : Options.read "-b --resource EXAMPLE-MNT" = .ok _ := rfl
  obtain ⟨_, _, hunselected⟩ := resolve_abuseContact hread rfl rfl .direct none
  refine ⟨_, ⟨hread, rfl, rfl, rfl, rfl⟩, ?_⟩
  rw [hunselected rfl rfl]
  decide +kernel

/-- What is wrong with the query is the type selected and not the key, which finds address space. -/
theorem resolve_abuseContact_otherType : ∃ o,
    (Options.read "-b -T route 10.0.0.0/8" = .ok o ∧ o.has .abuseContact = true ∧
      o.has .inverse = false) ∧
    RefusedFor "-b -T route 10.0.0.0/8" .direct none .abuseContactNotApplicable ∧
    ¬ ∀ a ∈ [AttributeType.inetnum, .inet6num, .autNum],
      (Request.target ⟨Text.trim "-b -T route 10.0.0.0/8", o⟩).canUse a = false := by
  refine ⟨_, ⟨rfl, rfl, rfl⟩, ⟨_, rfl, List.mem_singleton.mpr rfl⟩, ?_⟩
  decide +kernel

end Query

end Whois

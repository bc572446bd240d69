import Whois.Proofs.Query.Report

/-!
Queries that are refused although their flags can be read: exactly those with a fault, and the
refusal lists all of their faults.
-/
namespace Whois.Query

variable {raw : Text} {o : Options} {origin : Origin} {credentials : Option Credentials}

theorem request_read (h : Options.read raw = .ok o) :
    Request.read raw = .ok ⟨Text.trim raw, o⟩ := by
  unfold Request.read
  dsimp only
  rw [Options.read_trim, h]
  rfl

/-- What is wrong with the information asked for is reported as it was given. -/
theorem reports_of_read (h : Options.read raw = .ok o) :
    Reports ⟨Text.trim raw, o⟩ (Request.issues ⟨Text.trim raw, o⟩)
      (Fault.Present ⟨Text.trim raw, o⟩) := by
  apply Request.reports_issues
  intro v hv
  exact Options.trim_of_mem_values h (Options.mem_values_of_value? hv)

/-- The resolution of a query whose flags can be read: the checks decide, and the channel has no part
in what they find. -/
theorem resolution_of_read (h : Options.read raw = .ok o) (origin : Origin)
    (credentials : Option Credentials) :
    resolution raw origin credentials =
      match Request.errors ⟨Text.trim raw, o⟩ with
      | [] =>
        let q : Query := ⟨⟨Text.trim raw, o⟩, origin, origin.keep credentials⟩
        (.ok q, o.parsed :: (dropped origin credentials ++ [q.resolved]))
      | first :: others =>
        (.error ⟨first, others⟩, [o.parsed, invalid (Text.trim raw) ⟨first, others⟩]) := by
  unfold resolution
  rw [request_read h]
  dsimp only
  rw [issues_eq]
  rfl

theorem resolution_of_fault {f : OptionFault} (h : Options.read raw = .error f) :
    resolution raw origin credentials =
      (.error (.ofFault f), [malformed (Text.trim raw) f]) := by
  have hrequest : Request.read raw = .error f := by
    unfold Request.read
    dsimp only
    rw [Options.read_trim, h]
    rfl
  unfold resolution
  rw [hrequest]

theorem resolve_eq_error_iff (h : Options.read raw = .ok o) {e : Rejection} :
    resolve raw origin credentials = .error e ↔
      Request.errors ⟨Text.trim raw, o⟩ = e.errors := by
  unfold resolve
  rw [resolution_of_read h]
  split
  next herrors =>
    rw [herrors]
    constructor
    · intro hok
      cases hok
    · intro hnil
      cases hnil
  next first others herrors =>
    rw [herrors]
    constructor
    · rintro ⟨⟩
      rfl
    · intro heq
      obtain ⟨first', others'⟩ := e
      cases heq
      rfl

theorem resolve_of_fault {f : OptionFault} (h : Options.read raw = .error f) :
    resolve raw origin credentials = .error (.ofFault f) := by
  unfold resolve
  rw [resolution_of_fault h]

theorem resolve_eq_ok {q : Query} (h : resolve raw origin credentials = .ok q) :
    ∃ o, Options.read raw = .ok o ∧ q.toRequest = ⟨Text.trim raw, o⟩ ∧ q.toRequest.errors = [] := by
  cases hread : Options.read raw with
  | error fault =>
    rw [resolve_of_fault hread] at h
    cases h
  | ok o =>
    unfold resolve at h
    rw [resolution_of_read hread] at h
    split at h
    next herrors =>
      cases h
      exact ⟨o, rfl, rfl, herrors⟩
    next => cases h

/-- A query without errors is accepted, and keeps the credentials that its origin allows. -/
theorem resolve_of_errors_eq_nil (h : Options.read raw = .ok o)
    (herrors : Request.errors ⟨Text.trim raw, o⟩ = []) : resolve raw origin credentials =
      .ok ⟨⟨Text.trim raw, o⟩, origin, origin.keep credentials⟩ := by
  unfold resolve
  rw [resolution_of_read h, herrors]

end Whois.Query

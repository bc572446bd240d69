import Mathlib.Data.List.Count
import Whois.Proofs.Query.Rejection

/-!
Reports of flags that cannot be used together. Two such flags are reported once, the pair in one
order only, and nothing counts but which flags are given.
-/
namespace Whois

namespace Flag

/-- The flags that make a query one for versions. -/
def ofVersions : List Flag := [.listVersions, .diffVersions, .showVersion]

/-- The flags that cannot be used in a query for versions, those aside that ask for versions too. -/
def notWithVersions : List Flag :=
  [.exact, .oneLess, .allLess, .oneMore, .allMore, .reverseDomain, .inverse, .brief, .abuseContact,
    .primaryKeys, .template, .verbose, .resource, .sources, .allSources]

/-- The flags that cannot be used with a flag, each pair told by one of its flags at least. -/
def conflicts : Flag → List Flag
  | .abuseContact => [.brief, .primaryKeys, .inverse, .template, .verbose]
  | .primaryKeys => [.brief]
  | .noPersonal => [.showPersonal]
  | .noTagInfo => [.showTagInfo, .filterTagInclude, .filterTagExclude]
  | .validSyntax => [.noValidSyntax]
  | .allSources => [.sources]
  | .listVersions | .diffVersions | .showVersion => ofVersions ++ notWithVersions
  | _ => []

/-- Whether two flags cannot be used together. -/
def Incompatible (a b : Flag) : Prop := a ≠ b ∧ (b ∈ a.conflicts ∨ a ∈ b.conflicts)

instance (a b : Flag) : Decidable (Incompatible a b) := by
  unfold Incompatible
  infer_instance

theorem incompatible_comm {a b : Flag} : Incompatible a b ↔ Incompatible b a := by
  unfold Incompatible
  rw [ne_comm, or_comm]

end Flag

namespace Issue

/-- Whether an issue is about two flags and what they do to each other. -/
def isCombination : Issue → Bool
  | .invalidCombination _ _ | .ignoredFlag _ _ => true
  | _ => false

end Issue

namespace Request

variable {r : Request} {q : Query} {i : Issue}

theorem isCombination_of_mem_valueIssues (h : i ∈ q.valueIssues) : i.isCombination = false := by
  simp only [Query.valueIssues, List.mem_append, List.mem_filterMap, typeIssue?_eq, attributeIssue?_eq,
    Option.ite_none_right_eq_some, Option.some.injEq] at h
  rcases h with ((⟨_, _, _, rfl⟩ | ⟨_, _, _, rfl⟩) | ⟨_, _, _, rfl⟩) | ⟨v, _, hv⟩
  · rfl
  · rfl
  · rfl
  · unfold informationIssue? at hv
    split at hv <;> cases hv
    rfl

theorem isCombination_of_mem_operationIssues (h : i ∈ q.operationIssues) :
    i.isCombination = false := by
  unfold Query.operationIssues at h
  split at h
  next => rw [List.mem_singleton.mp h]; rfl
  next => rw [List.mem_singleton.mp h]; rfl
  next =>
    split at h
    · rw [List.mem_singleton.mp h]; rfl
    · split at h
      · rw [List.mem_singleton.mp h]; rfl
      · cases h

theorem isCombination_of_versionIssue? {α : Type} {x : Except VersionFault α}
    (h : versionIssue? x = some i) : i.isCombination = false := by
  cases x with
  | ok a => cases h
  | error fault =>
    cases h
    rfl

theorem isCombination_of_mem_versionIssues (h : i ∈ q.versionIssues) : i.isCombination = false := by
  simp only [Query.versionIssues, List.mem_append, List.mem_filterMap] at h
  rcases h with ⟨_, _, hi⟩ | ⟨_, _, hi⟩
  · exact isCombination_of_versionIssue? hi
  · exact isCombination_of_versionIssue? hi

theorem isCombination_of_mem_combinationIssues (h : i ∈ q.combinationIssues) :
    i.isCombination = true := by
  rcases List.mem_append.mp h with h | h
  · obtain ⟨_, _, rfl⟩ := List.mem_map.mp h
    rfl
  · obtain ⟨_, _, rfl⟩ := List.mem_map.mp h
    rfl

/-- What two flags do to each other is reported by one check only. -/
theorem filter_isCombination_query (q : Query) :
    q.issues.filter Issue.isCombination = q.combinationIssues := by
  have hnone : ∀ {issues : List Issue}, (∀ i ∈ issues, i.isCombination = false) →
      issues.filter Issue.isCombination = [] := fun h =>
    List.filter_eq_nil_iff.mpr fun i hi => by simp [h i hi]
  have hproxy : ∀ i ∈ q.proxyIssues, i.isCombination = false := by
    intro i hi
    obtain ⟨_, _, rfl⟩ := List.mem_map.mp hi
    rfl
  have hcontact : ∀ i ∈ q.abuseContactIssues, i.isCombination = false := by
    intro i hi
    unfold Query.abuseContactIssues at hi
    split at hi
    · rw [List.mem_singleton.mp hi]; rfl
    · cases hi
  have hkey : ∀ i ∈ q.keyIssues, i.isCombination = false := by
    intro i hi
    rcases List.mem_append.mp hi with hi | hi
    · split at hi
      · rw [List.mem_singleton.mp hi]; rfl
      · cases hi
    · obtain ⟨_, _, rfl⟩ := List.mem_map.mp hi
      rfl
  have htags : ∀ i ∈ q.tagIssues, i.isCombination = false := by
    intro i hi
    unfold Query.tagIssues at hi
    split at hi
    · cases hi
    · rw [List.mem_singleton.mp hi]; rfl
  have hall : q.combinationIssues.filter Issue.isCombination = q.combinationIssues :=
    List.filter_eq_self.mpr fun _ => isCombination_of_mem_combinationIssues
  unfold Query.issues Query.checks
  simp only [List.flatMap_cons, List.flatMap_nil, List.filter_append, hall,
    hnone fun _ => isCombination_of_mem_valueIssues,
    hnone fun _ => isCombination_of_mem_operationIssues, hnone hproxy, hnone hcontact, hnone hkey,
    hnone htags, hnone fun _ => isCombination_of_mem_versionIssues, List.append_nil,
    List.nil_append]

theorem filter_isCombination_issues (r : Request) :
    r.issues.filter Issue.isCombination = r.combinationIssues :=
  filter_isCombination_query _

theorem mem_combinationIssues_iff (hi : i.isCombination = true) :
    i ∈ r.combinationIssues ↔ i ∈ r.issues := by
  rw [← filter_isCombination_issues, List.mem_filter, and_iff_left hi]

variable {a b : Flag}

theorem incompatible_of_mem_pairs (h : (a, b) ∈ pairs (incompatible ++ versionTable)) :
    a.Incompatible b := by
  have hall : ∀ pair ∈ pairs (incompatible ++ versionTable), pair.1.Incompatible pair.2 := by
    decide +kernel
  exact hall (a, b) h

theorem mem_pairs_of_mem_conflicts (h : b ∈ a.conflicts) (hne : a ≠ b) :
    (a, b) ∈ pairs (incompatible ++ versionTable) ∨
      (b, a) ∈ pairs (incompatible ++ versionTable) := by
  have hall : ∀ a ∈ Flag.all, ∀ b ∈ a.conflicts, a ≠ b →
      (a, b) ∈ pairs (incompatible ++ versionTable) ∨
        (b, a) ∈ pairs (incompatible ++ versionTable) := by
    decide +kernel
  exact hall a a.mem_all b h hne

theorem mem_pairs_or_swap : ((a, b) ∈ pairs (incompatible ++ versionTable) ∨
    (b, a) ∈ pairs (incompatible ++ versionTable)) ↔ a.Incompatible b := by
  constructor
  · rintro (h | h)
    · exact incompatible_of_mem_pairs h
    · exact Flag.incompatible_comm.mp (incompatible_of_mem_pairs h)
  · rintro ⟨hne, h | h⟩
    · exact mem_pairs_of_mem_conflicts h hne
    · exact (mem_pairs_of_mem_conflicts h hne.symm).symm

/-- No pair stands in the tables in both orders. -/
theorem swap_not_mem_pairs : ∀ pair ∈ pairs (incompatible ++ versionTable),
    pair.swap ∉ pairs (incompatible ++ versionTable) := by
  decide +kernel

theorem count_pairs_add_swap (a b : Flag) :
    (pairs (incompatible ++ versionTable)).count (a, b) +
        (pairs (incompatible ++ versionTable)).count (b, a) =
      if a.Incompatible b then 1 else 0 := by
  simp only [nodup_pairs.count, ← mem_pairs_or_swap]
  by_cases hab : (a, b) ∈ pairs (incompatible ++ versionTable)
  · have hba : (b, a) ∉ pairs (incompatible ++ versionTable) := swap_not_mem_pairs _ hab
    simp [hab, hba]
  · simp [hab]

/-- A pair is reported as often as it stands in the tables, if both flags are given. -/
theorem count_invalidCombination (r : Request) (a b : Flag) :
    r.combinationIssues.count (.invalidCombination a b) =
      if r.has a = true ∧ r.has b = true then
        (pairs (incompatible ++ versionTable)).count (a, b)
      else 0 := by
  have hinj : Function.Injective fun pair : Flag × Flag =>
      Issue.invalidCombination pair.1 pair.2 := by
    rintro ⟨a, b⟩ ⟨a', b'⟩ h
    cases h
    rfl
  have hwarnings : ∀ warning : Flag × Flag → Issue,
      (∀ pair, warning pair ≠ .invalidCombination a b) →
        ((r.pairsGiven overridden).map warning).count (.invalidCombination a b) = 0 := by
    intro warning hne
    rw [List.count_eq_zero]
    intro h
    obtain ⟨pair, _, hpair⟩ := List.mem_map.mp h
    exact hne pair hpair
  unfold combinationIssues Query.combinationIssues
  rw [Query.toRequest_build, List.count_append, hwarnings _ fun _ h => Issue.noConfusion h,
    Nat.add_zero, pairsGiven_eq, List.count_map_of_injective _ _ hinj (a, b)]
  split
  next hgiven => exact List.count_filter (by simp [hgiven])
  next hgiven =>
    rw [List.count_eq_zero, List.mem_filter]
    simpa using fun _ => hgiven

/-- The check looks at nothing but which flags are given. -/
theorem combinationIssues_of_has {q q' : Query} (h : ∀ f, q.has f = q'.has f) :
    q.combinationIssues = q'.combinationIssues := by
  unfold Query.combinationIssues
  simp only [pairsGiven_eq, h]

theorem count_invalidCombination_add_swap (r : Request) (a b : Flag) :
    r.combinationIssues.count (.invalidCombination a b) +
        r.combinationIssues.count (.invalidCombination b a) =
      if r.has a = true ∧ r.has b = true ∧ a.Incompatible b then 1 else 0 := by
  rw [count_invalidCombination, count_invalidCombination]
  by_cases ha : r.has a = true
  · by_cases hb : r.has b = true
    · simp only [ha, hb, and_self, true_and, if_true]
      exact count_pairs_add_swap a b
    · simp [hb]
  · simp [ha]

/-- The errors of a request hold the reports of the check and no others of their kind. -/
theorem count_errors_invalidCombination (r : Request) (a b : Flag) :
    r.errors.count (.invalidCombination a b) =
      r.combinationIssues.count (.invalidCombination a b) := by
  unfold errors
  rw [List.count_filter rfl, ← filter_isCombination_issues, List.count_filter rfl]

end Request

namespace Query

variable {raw : Text} {o : Options} {origin : Origin} {credentials : Option Credentials}

/-- Two flags that cannot be used together are reported once, in one order, if both are given, and no
other pair is reported. A refusal lists these reports, an accepted query has no two such flags, and
any query with the same flags has the same reports. -/
theorem resolve_combinations (h : Options.read raw = .ok o) (origin : Origin)
    (credentials : Option Credentials) :
    (∀ a b : Flag,
      (Request.combinationIssues ⟨Text.trim raw, o⟩).count (.invalidCombination a b) +
          (Request.combinationIssues ⟨Text.trim raw, o⟩).count (.invalidCombination b a) =
        if o.has a = true ∧ o.has b = true ∧ a.Incompatible b then 1 else 0) ∧
    (∀ e, resolve raw origin credentials = .error e → ∀ a b : Flag,
      e.errors.count (.invalidCombination a b) =
        (Request.combinationIssues ⟨Text.trim raw, o⟩).count (.invalidCombination a b)) ∧
    (∀ q, resolve raw origin credentials = .ok q → ∀ a b : Flag, a.Incompatible b →
      ¬ (o.has a = true ∧ o.has b = true)) ∧
    ∀ (raw' : Text) (o' : Options), Options.read raw' = .ok o' → (∀ f, o.has f = o'.has f) →
      Request.combinationIssues ⟨Text.trim raw, o⟩ =
        Request.combinationIssues ⟨Text.trim raw', o'⟩ := by
  refine ⟨Request.count_invalidCombination_add_swap _, ?_, ?_,
    fun _ _ _ hhas => Request.combinationIssues_of_has hhas⟩
  · intro e he a b
    rw [← (resolve_eq_error_iff h).mp he]
    exact Request.count_errors_invalidCombination _ a b
  · rintro q hq a b hexcl ⟨ha, hb⟩
    obtain ⟨o', hread', hrequest, herrors⟩ := resolve_eq_ok hq
    cases h.symm.trans hread'
    have hcount := Request.count_invalidCombination_add_swap ⟨Text.trim raw, o⟩ a b
    rw [← Request.count_errors_invalidCombination, ← Request.count_errors_invalidCombination,
      ← hrequest, herrors, hrequest] at hcount
    have hgiven : Request.has ⟨Text.trim raw, o⟩ a = true ∧
        Request.has ⟨Text.trim raw, o⟩ b = true ∧ a.Incompatible b := ⟨ha, hb, hexcl⟩
    simp [hgiven] at hcount

theorem resolve_combinations_versions :
    ∃ o o' e, (Options.read "-bK --list-versions word" = .ok o ∧
        resolve "-bK --list-versions word" .direct none = .error e ∧
        Options.read "--LIST-VERSIONS AS1 -K -b" = .ok o' ∧ ∀ f, o.has f = o'.has f) ∧
      e.errors.count (.invalidCombination .abuseContact .primaryKeys) +
          e.errors.count (.invalidCombination .primaryKeys .abuseContact) = 1 ∧
      Request.combinationIssues ⟨Text.trim "-bK --list-versions word", o⟩ =
        Request.combinationIssues ⟨Text.trim "--LIST-VERSIONS AS1 -K -b", o'⟩ := by
  let given : Given := ((Given.none.set .abuseContact []).set .primaryKeys []).set .listVersions []
  let given' : Given := ((Given.none.set .listVersions []).set .primaryKeys []).set .abuseContact []
  have hread : Options.read "-bK --list-versions word" = .ok ⟨given, "word"⟩ := rfl
  have hread' : Options.read "--LIST-VERSIONS AS1 -K -b" = .ok ⟨given', "AS1"⟩ := rfl
  have hhas : ∀ f, Options.has ⟨given, "word"⟩ f = Options.has ⟨given', "AS1"⟩ f := fun f => by
    cases f <;> rfl
  have he : resolve "-bK --list-versions word" .direct none = .error _ := rfl
  obtain ⟨hcount, herrors, _, hsame⟩ := resolve_combinations hread .direct none
  refine ⟨_, _, _, ⟨hread, he, hread', hhas⟩, ?_, hsame _ _ hread' hhas⟩
  rw [herrors _ he, herrors _ he, hcount]
  decide +kernel

end Query

end Whois

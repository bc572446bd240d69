import Whois.Proofs.List
import Whois.Proofs.Query.Operation

/-!
What can be wrong with a request, said of the values of its flags and not of the order of its
checks, and lists of issues that report such faults.
-/
namespace Whois

inductive Fault where
  | typeName (name : Text)
  | attributeName (name : Text)
  | templateName (f : Flag) (name : Text)
  | information (value : Text)
  | severalOperations
  | operationWithoutKey (f : Flag)
  | reverseWithoutKey
  | wholeSpace
  | proxy (value : Text)
  | abuseContact
  | combination (a b : Flag)
  | missingKey
  | attributeNotSearchable (a : AttributeType)
  | conflictingTags
  | version (fault : VersionFault)
  | versionPair (fault : VersionFault)

namespace Request

/-- Whether the first of two flags rules the second out. -/
def Excludes (a b : Flag) : Prop :=
  (∃ row ∈ incompatible, row.1 = a ∧ b ∈ row.2) ∨ (a.group = .version ∧ isNotWithVersions b = true)

end Request

namespace Fault

open Request in
/-- Whether a fault is in a request, other faults aside. -/
def Applies (r : Request) : Fault → Prop
  | .typeName name =>
    (∃ v ∈ r.options.values .selectTypes, name ∈ Text.pieces v) ∧ ∀ t, ObjectType.read name ≠ .ok t
  | .attributeName name =>
    (∃ v ∈ r.options.values .inverse, name ∈ Text.pieces v) ∧ ∀ a, AttributeType.read name ≠ .ok a
  | .templateName f name =>
    (f = .template ∨ f = .verbose) ∧ r.options.value? f = some name ∧
      ∀ t, ObjectType.read name ≠ .ok t
  | .information v =>
    r.options.value? .listSourcesOrVersion = some v ∧
      ¬ (Text.alike v "version" = true ∨ Text.alike v "types" = true ∨
        Text.alike v "sources" = true)
  | .severalOperations =>
    ∃ f ∈ operationChoices, ∃ f' ∈ operationChoices, f ≠ f' ∧ r.has f = true ∧ r.has f' = true
  | .operationWithoutKey f =>
    f ∈ operationChoices ∧ r.has f = true ∧ r.target.resource? = none
  | .reverseWithoutKey =>
    r.has .reverseDomain = true ∧ r.key.ipBlock? = none ∧ r.key.reverseBlock? = none
  | .wholeSpace =>
    (r.has .oneMore = true ∨ r.has .allMore = true) ∧
      ∃ key, r.target.resource? = some key ∧ key.isWhole = true
  | .proxy v =>
    r.options.value? .client = some v ∧
      (2 < (Text.pieces v).length ∨
        ∃ second, (Text.pieces v)[1]? = some second ∧ ¬ isAddress second = true)
  | .abuseContact => r.has .abuseContact = true ∧ r.objectTypes = []
  | .combination a b => r.has a = true ∧ r.has b = true ∧ Excludes a b
  | .missingKey => r.needsKey = true ∧ r.key.term = []
  | .attributeNotSearchable a => a ∈ r.attributeTypes ∧ ¬ a.isInverseKey = true
  | .conflictingTags =>
    ∃ t ∈ r.tagsIncluded, ∃ t' ∈ r.tagsExcluded, Text.alike t t' = true
  | .version fault =>
    ∃ v, r.options.value? .showVersion = some v ∧ Version.read v = .error fault
  | .versionPair fault =>
    ∃ v, r.options.value? .diffVersions = some v ∧ Version.readPair v = .error fault

/-- The faults with operations are alternatives, numbered from 1. -/
def alternative : Fault → Nat
  | .severalOperations => 1
  | .operationWithoutKey _ => 2
  | .reverseWithoutKey => 3
  | .wholeSpace => 4
  | _ => 0

/-- Only an earlier alternative hides a fault. -/
def Hides (f f' : Fault) : Prop := 0 < f.alternative ∧ f.alternative < f'.alternative

/-- Whether a fault applies and nothing hides it. -/
def Present (r : Request) (f : Fault) : Prop :=
  f.Applies r ∧ ∀ f' : Fault, f'.Hides f → ¬ f'.Applies r

/-- The place of a fault in reports: the values of flags come first, then the checks in their
order. -/
def rank : Fault → Nat
  | .typeName _ => 0
  | .attributeName _ => 1
  | .templateName _ _ => 2
  | .information _ => 3
  | .severalOperations | .operationWithoutKey _ | .reverseWithoutKey | .wholeSpace => 4
  | .proxy _ => 5
  | .abuseContact => 6
  | .combination _ _ => 7
  | .missingKey => 8
  | .attributeNotSearchable _ => 9
  | .conflictingTags => 10
  | .version _ => 11
  | .versionPair _ => 12

theorem rank_lt (f : Fault) : f.rank < 13 := by
  cases f <;> simp [rank]

def issue (r : Request) : Fault → Issue
  | .typeName name | .templateName _ name => .unknownObjectType name
  | .attributeName name => .unknownAttribute name
  | .information v => .unknownInformation v
  | .severalOperations => .duplicateIpFlags
  | .operationWithoutKey f => .uselessIpFlag f
  | .reverseWithoutKey => .uselessIpFlag .reverseDomain
  | .wholeSpace => .illegalRange
  | .proxy v => .invalidProxy v
  | .abuseContact => .abuseContactNotApplicable
  | .combination a b => .invalidCombination a b
  | .missingKey => .noSearchKey
  | .attributeNotSearchable a => .attributeNotSearchable a
  | .conflictingTags => .conflictingTags r.conflictingTags
  | .version fault | .versionPair fault => .invalidVersion fault

theorem isError_issue (r : Request) (f : Fault) : (f.issue r).isError = true := by
  cases f <;> rfl

variable {r : Request} {f f' : Fault}

theorem present_iff_applies (h : f.alternative = 0) : f.Present r ↔ f.Applies r := by
  constructor
  · exact fun hf => hf.1
  · intro hf
    refine ⟨hf, ?_⟩
    rintro f' ⟨_, hlt⟩
    omega

/-- No two alternatives are present at once. -/
theorem alternative_eq_of_present (hf : f.Present r) (hf' : f'.Present r)
    (h : 0 < f.alternative) (h' : 0 < f'.alternative) : f.alternative = f'.alternative := by
  by_contra hne
  rcases Nat.lt_or_gt_of_ne hne with hlt | hlt
  · exact hf'.2 f ⟨h, hlt⟩ hf.1
  · exact hf.2 f' ⟨h', hlt⟩ hf'.1

/-- A fault is hidden only by one that is there too, so the first of them is present. -/
theorem exists_present_of_applies (h : f.Applies r) : ∃ f' : Fault, f'.Present r := by
  induction hn : f.alternative using Nat.strongRecOn generalizing f with
  | ind n ih =>
    -- What hides an alternative has a smaller number.
    by_cases hhidden : ∃ f' : Fault, f'.Hides f ∧ f'.Applies r
    · obtain ⟨f', hhides, hf'⟩ := hhidden
      exact ih f'.alternative (hn ▸ hhides.2) hf' rfl
    · exact ⟨f, h, fun f' hhides hf' => hhidden ⟨f', hhides, hf'⟩⟩

theorem not_hides_severalOperations : ¬ f.Hides .severalOperations := by
  cases f <;> simp [Hides, alternative]

theorem hides_operationWithoutKey {flag : Flag} :
    f.Hides (.operationWithoutKey flag) ↔ f = .severalOperations := by
  cases f <;> simp [Hides, alternative]

theorem hides_reverseWithoutKey : f.Hides .reverseWithoutKey ↔
    f = .severalOperations ∨ ∃ flag, f = .operationWithoutKey flag := by
  cases f <;> simp [Hides, alternative]

theorem hides_wholeSpace : f.Hides .wholeSpace ↔
    f = .severalOperations ∨ (∃ flag, f = .operationWithoutKey flag) ∨ f = .reverseWithoutKey := by
  cases f <;> simp [Hides, alternative]

theorem alternative_pos_iff : 0 < f.alternative ↔ f.rank = 4 := by
  cases f <;> simp [alternative, rank]

end Fault

/-- Whether the errors among some issues are those of the faults that satisfy `P`, each once and in
order. -/
def Reports (r : Request) (issues : List Issue) (P : Fault → Prop) : Prop :=
  ∃ faults : List Fault, (∀ f, f ∈ faults ↔ P f) ∧ faults.Nodup ∧
    faults.Pairwise (fun f f' => f.rank ≤ f'.rank) ∧
    faults.map (·.issue r) = issues.filter Issue.isError

namespace Reports

variable {r : Request} {issues issues' : List Issue} {k : Nat}

theorem append {P P' : Fault → Prop} (h : Reports r issues P) (h' : Reports r issues' P')
    (hlt : ∀ f f', P f → P' f' → f.rank < f'.rank) :
    Reports r (issues ++ issues') fun f => P f ∨ P' f := by
  obtain ⟨faults, hmem, hnodup, hsorted, hissues⟩ := h
  obtain ⟨faults', hmem', hnodup', hsorted', hissues'⟩ := h'
  have hranks : ∀ f ∈ faults, ∀ f' ∈ faults', f.rank < f'.rank :=
    fun f hf f' hf' => hlt f f' ((hmem f).mp hf) ((hmem' f').mp hf')
  refine ⟨faults ++ faults', ?_, ?_, ?_, ?_⟩
  · intro f
    rw [List.mem_append, hmem, hmem']
  · rw [List.nodup_append]
    refine ⟨hnodup, hnodup', ?_⟩
    rintro f hf f' hf' rfl
    exact Nat.lt_irrefl _ (hranks f hf f hf')
  · rw [List.pairwise_append]
    exact ⟨hsorted, hsorted', fun f hf f' hf' => Nat.le_of_lt (hranks f hf f' hf')⟩
  · rw [List.map_append, List.filter_append, hissues, hissues']

/-- Reports of the faults of one rank and of all smaller ones go together. -/
theorem append_rank (h : Reports r issues fun f => f.rank < k ∧ f.Present r)
    (h' : Reports r issues' fun f => f.rank = k ∧ f.Present r) :
    Reports r (issues ++ issues') fun f => f.rank < k + 1 ∧ f.Present r := by
  obtain ⟨faults, hmem, hrest⟩ := h.append h' (by
    rintro f f' ⟨hf, _⟩ ⟨hf', _⟩
    omega)
  refine ⟨faults, ?_, hrest⟩
  intro f
  rw [hmem]
  dsimp only
  rw [← or_and_right, Nat.lt_succ_iff_lt_or_eq]

theorem of_rank (faults : List Fault) (hmem : ∀ f, f ∈ faults ↔ f.rank = k ∧ f.Present r)
    (hnodup : faults.Nodup) (hissues : faults.map (·.issue r) = issues.filter Issue.isError) :
    Reports r issues fun f => f.rank = k ∧ f.Present r := by
  refine ⟨faults, hmem, hnodup, ?_, hissues⟩
  apply List.pairwise_of_forall_mem_list
  intro f hf f' hf'
  have hrank := ((hmem f).mp hf).1
  have hrank' := ((hmem f').mp hf').1
  omega

theorem append_warnings {P : Fault → Prop} (h : Reports r issues P)
    (hwarnings : ∀ i ∈ issues', i.isError = false) : Reports r (issues ++ issues') P := by
  obtain ⟨faults, hmem, hnodup, hsorted, hissues⟩ := h
  have hnone : issues'.filter Issue.isError = [] := by
    rw [List.filter_eq_nil_iff]
    intro i hi
    simp [hwarnings i hi]
  exact ⟨faults, hmem, hnodup, hsorted, by rw [hissues, List.filter_append, hnone, List.append_nil]⟩

theorem nil (h : ∀ f : Fault, f.rank = k → ¬ f.Present r) :
    Reports r [] fun f => f.rank = k ∧ f.Present r :=
  of_rank [] (by simpa using h) List.nodup_nil rfl

theorem single {f : Fault} (hrank : f.rank = k) (hf : f.Present r)
    (hunique : ∀ f' : Fault, f'.rank = k → f'.Present r → f' = f) :
    Reports r [f.issue r] fun f' => f'.rank = k ∧ f'.Present r := by
  apply of_rank [f]
  · intro f'
    rw [List.mem_singleton]
    constructor
    · rintro rfl
      exact ⟨hrank, hf⟩
    · rintro ⟨hrank', hf'⟩
      exact hunique f' hrank' hf'
  · exact List.nodup_singleton f
  · simp [Fault.isError_issue]

/-- Reports of a fault that is the only one of its rank. -/
theorem of_ite {f : Fault} {c : Prop} [Decidable c] (hrank : ∀ f' : Fault, f'.rank = k ↔ f' = f)
    (halternative : f.alternative = 0) (happlies : f.Applies r ↔ c) :
    Reports r (if c then [f.issue r] else []) fun f' => f'.rank = k ∧ f'.Present r := by
  have hpresent : f.Present r ↔ c := (Fault.present_iff_applies halternative).trans happlies
  split
  next hc => exact single ((hrank f).mpr rfl) (hpresent.mpr hc) fun f' hf' _ => (hrank f').mp hf'
  next hc =>
    apply nil
    intro f' hf' hpresent'
    rw [(hrank f').mp hf'] at hpresent'
    exact hc (hpresent.mp hpresent')

/-- Reports of one fault for each bad item of a list. -/
theorem of_filter {α : Type} {items : List α} (bad : α → Bool) (fault : α → Fault)
    (hnodup : items.Nodup) (hinj : Function.Injective fault)
    (hrank : ∀ f : Fault, f.rank = k ↔ ∃ a, fault a = f)
    (halternative : ∀ a, (fault a).alternative = 0)
    (happlies : ∀ a, (fault a).Applies r ↔ a ∈ items ∧ bad a = true) :
    Reports r ((items.filter bad).map fun a => (fault a).issue r)
      fun f => f.rank = k ∧ f.Present r := by
  apply of_rank ((items.filter bad).map fault)
  · intro f
    rw [hrank, List.mem_map]
    constructor
    · rintro ⟨a, ha, rfl⟩
      refine ⟨⟨a, rfl⟩, (Fault.present_iff_applies (halternative a)).mpr ?_⟩
      exact (happlies a).mpr (List.mem_filter.mp ha)
    · rintro ⟨⟨a, rfl⟩, hf⟩
      exact ⟨a, List.mem_filter.mpr ((happlies a).mp hf.1), rfl⟩
  · exact (hnodup.filter _).map hinj
  · rw [List.map_map]
    symm
    apply List.filter_eq_self.mpr
    intro i hi
    obtain ⟨a, _, rfl⟩ := List.mem_map.mp hi
    exact Fault.isError_issue r _

end Reports

end Whois

import Whois.Proofs.Index.Space
import Whois.Proofs.Query.Rejection
import Whois.Proofs.Text.Parts

/-!
What can be relied on in a query that has passed all checks, whatever its text was.
-/
namespace Whois

namespace Request

/-- What the flags of a request ask for is there, and what is there was asked for. -/
structure Coherent (r : Request) : Prop where
  operation_isSome : r.operation?.isSome = true ↔ ∃ f ∈ operationChoices, r.has f = true
  operation_flag : ∀ op, r.operation? = some op → ∃ f ∈ operationChoices, op.flag? = some f ∧
    ∀ f' ∈ operationChoices, r.has f' = true ↔ f' = f
  operation_key : ∀ op, r.operation? = some op →
    r.target.resource?.isSome = true ∧ r.effectiveOperation? = some op
  default_operation : (∀ f ∈ operationChoices, ¬ r.has f = true) →
    (r.effectiveOperation? = some .exactOrOneLess ↔ r.target.resource?.isSome = true)
  not_whole : ∀ op, r.operation? = some op → op.isMoreSpecific = true →
    ∀ (s : NumberSpace) (b : Block s.width), r.target.resource? = some (.ofBlock s b) →
      ¬ (b.lo.val = 0 ∧ b.hi.val = 2 ^ s.width - 1)
  both_directions : r.has .reverseDomain = true →
    ∃ b, r.target.ipBlock? = some b ∧ r.target.reverseBlock? = some b
  version_isSome : r.version?.isSome = true ↔ r.has .showVersion = true
  version_pos : ∀ n, r.version? = some n → 1 ≤ n
  versionPair_isSome : r.versionPair?.isSome = true ↔ r.has .diffVersions = true
  versionPair_ne : ∀ m n, r.versionPair? = some (m, n) → 1 ≤ m ∧ 1 ≤ n ∧ m ≠ n
  template_isSome : (r.templateOf? .template).isSome = true ↔ r.has .template = true
  verbose_isSome : (r.templateOf? .verbose).isSome = true ↔ r.has .verbose = true
  information_isSome : r.information?.isSome = true ↔ r.isSystemInfo = true
  attribute_isInverseKey : ∀ a ∈ r.attributeTypes, a.isInverseKey = true
  attributes_nodup : r.attributeTypes.Nodup
  attributes_inverse : ∀ a ∈ r.attributeTypes, r.has .inverse = true
  proxy_valid : r.hasValidProxy = true
  no_error : ∀ i ∈ r.issues, i.isError = false

section Operations
variable {r : Request} (h : ∀ f : Fault, ¬ f.Applies r)
include h

theorem operationFlags_eq_of_mem {f : Flag} (hf : f ∈ operationChoices) (hhas : r.has f = true) :
    r.operationFlags = [f] :=
  operationFlags_eq_singleton (h .severalOperations) (mem_operationFlags.mpr ⟨hf, hhas⟩)

theorem isSome_operation?_iff :
    r.operation?.isSome = true ↔ ∃ f ∈ operationChoices, r.has f = true := by
  rw [Option.isSome_iff_exists]
  constructor
  · rintro ⟨op, hop⟩
    obtain ⟨f, _, hflags⟩ := operation?_eq_some_iff.mp hop
    have hmem : f ∈ r.operationFlags := by simp [hflags]
    exact ⟨f, mem_operationFlags.mp hmem⟩
  · rintro ⟨f, hf, hhas⟩
    obtain ⟨op, hop⟩ := exists_operation_of_mem hf
    exact ⟨op, operation?_eq_some_iff.mpr ⟨f, hop, operationFlags_eq_of_mem h hf hhas⟩⟩

theorem isSome_resource?_of_operation? {op : MatchOperation} (hop : r.operation? = some op) :
    r.target.resource?.isSome = true := by
  obtain ⟨f, hf, _, hgiven⟩ := exists_flag_of_operation? hop
  have hnot := h (.operationWithoutKey f)
  rw [Option.isSome_iff_ne_none]
  exact fun hnone => hnot ⟨hf, (hgiven f hf).mpr rfl, hnone⟩

theorem not_isWhole_of_isMoreSpecific {op : MatchOperation} (hop : r.operation? = some op)
    (hspecific : op.isMoreSpecific = true) {key : ResourceKey}
    (hkey : r.target.resource? = some key) : ¬ key.isWhole = true := by
  intro hwhole
  have hany : r.operation?.any MatchOperation.isMoreSpecific = true := by
    rw [hop, Option.any_some, hspecific]
  exact h .wholeSpace ⟨(any_isMoreSpecific_iff (h .severalOperations)).mp hany, key, hkey, hwhole⟩

theorem exists_block_of_bothDirections (hboth : r.has .reverseDomain = true) :
    ∃ b, r.target.ipBlock? = some b ∧ r.target.reverseBlock? = some b := by
  have hnot := h .reverseWithoutKey
  rw [applies_reverseWithoutKey_iff] at hnot
  have hdirections : r.target.bothDirections = true := hboth
  cases hblock : r.target.ipBlock? with
  | none => exact absurd (by simp [hblock, bothDirections, hboth]) hnot
  | some b =>
    refine ⟨b, rfl, ?_⟩
    rw [Target.reverseBlock?_of_bothDirections hdirections, hblock]

theorem hasValidProxy_of_not_applies : r.hasValidProxy = true := by
  unfold hasValidProxy
  cases hv : r.proxy? with
  | none => rfl
  | some v =>
    dsimp only
    by_contra hnot
    exact h (.proxy v) ⟨hv, isProxy_eq_false_iff.mp (Bool.eq_false_iff.mpr hnot)⟩

end Operations

section Values
variable {text : Text} {o : Options} (hread : Options.read text = .ok o)
  (h : ∀ f : Fault, ¬ f.Applies ⟨text, o⟩)
include hread h

theorem isSome_version?_iff :
    (version? ⟨text, o⟩).isSome = true ↔ o.has .showVersion = true := by
  refine Options.isSome_bind_value?_iff hread rfl ?_
  intro v hv
  cases hversion : Version.read v with
  | ok n => rfl
  | error fault => exact absurd ⟨v, hv, hversion⟩ (h (.version fault))

theorem isSome_versionPair?_iff :
    (versionPair? ⟨text, o⟩).isSome = true ↔ o.has .diffVersions = true := by
  refine Options.isSome_bind_value?_iff hread rfl ?_
  intro v hv
  cases hpair : Version.readPair v with
  | ok pair => rfl
  | error fault => exact absurd ⟨v, hv, hpair⟩ (h (.versionPair fault))

theorem isSome_templateOf?_iff {f : Flag} (hf : f = .template ∨ f = .verbose) :
    (templateOf? ⟨text, o⟩ f).isSome = true ↔ o.has f = true := by
  have harity : f.standardSpec.arity = .required := by rcases hf with rfl | rfl <;> rfl
  refine Options.isSome_bind_value?_iff hread harity ?_
  intro name hname
  cases htype : ObjectType.read name with
  | ok t => rfl
  | error misread =>
    refine absurd ⟨hf, hname, ?_⟩ (h (.templateName f name))
    intro t ht
    cases htype.symm.trans ht

theorem isSome_information?_iff :
    (information? ⟨text, o⟩).isSome = true ↔ isSystemInfo ⟨text, o⟩ = true := by
  unfold information? isSystemInfo has
  cases hvalue : o.value? .listSourcesOrVersion with
  | none =>
    have hnot : o.has .listSourcesOrVersion = false := by
      rw [Bool.eq_false_iff]
      intro hhas
      obtain ⟨v, hv⟩ := Options.exists_value?_of_has hread rfl hhas
      cases hvalue.symm.trans hv
    cases h1 : o.has .listSources <;> cases h2 : o.has .version <;> cases h3 : o.has .types <;>
      simp [hnot, h1, h2, h3]
  | some v =>
    have hmem := Options.mem_values_of_value? hvalue
    have hhas := Options.has_of_mem_values hmem
    have hinformation : isInformation v = true := by
      have hnot := h (.information v)
      simp only [Fault.Applies, hvalue, true_and, not_not] at hnot
      simpa [isInformation, or_assoc] using hnot
    have htrim := Options.trim_of_mem_values hread hmem
    have hsome := (isSome_read?_information htrim).trans hinformation
    simp [hsome, hhas]

end Values

theorem not_applies_of_errors_eq_nil {raw : Text} {o : Options} (hread : Options.read raw = .ok o)
    (herrors : errors ⟨Text.trim raw, o⟩ = []) (f : Fault) : ¬ f.Applies ⟨Text.trim raw, o⟩ := by
  intro happlies
  obtain ⟨f', hpresent⟩ := Fault.exists_present_of_applies happlies
  obtain ⟨faults, hmem, _, _, hissues⟩ := Query.reports_of_read hread
  have hnil : faults = [] := List.map_eq_nil_iff.mp (hissues.trans herrors)
  have hf' := (hmem f').mpr hpresent
  simp [hnil] at hf'

theorem errors_eq_nil_of_not_applies {raw : Text} {o : Options} (hread : Options.read raw = .ok o)
    (h : ∀ f : Fault, ¬ f.Applies ⟨Text.trim raw, o⟩) : errors ⟨Text.trim raw, o⟩ = [] := by
  obtain ⟨faults, hmem, _, _, hissues⟩ := Query.reports_of_read hread
  have hnil : faults = [] :=
    List.eq_nil_iff_forall_not_mem.mpr fun f hf => h f ((hmem f).mp hf).1
  rw [hnil] at hissues
  exact hissues.symm

theorem coherent_of_errors_eq_nil {raw : Text} {o : Options} (hread : Options.read raw = .ok o)
    (herrors : errors ⟨Text.trim raw, o⟩ = []) : Coherent ⟨Text.trim raw, o⟩ := by
  have happlies := not_applies_of_errors_eq_nil hread herrors
  have htrim : Options.read (Text.trim raw) = .ok o := by rw [Options.read_trim, hread]
  have hselected := isSome_operation?_iff happlies
  constructor
  case operation_isSome => exact hselected
  case operation_flag => exact fun op hop => exists_flag_of_operation? hop
  case operation_key =>
    intro op hop
    have hkey := isSome_resource?_of_operation? happlies hop
    refine ⟨hkey, ?_⟩
    obtain ⟨key, hkey⟩ := Option.isSome_iff_exists.mp hkey
    unfold effectiveOperation?
    rw [hkey, hop]
    rfl
  case default_operation =>
    intro hnone
    have hop : operation? ⟨Text.trim raw, o⟩ = none := by
      rw [← Option.not_isSome_iff_eq_none, hselected]
      rintro ⟨f, hf, hhas⟩
      exact hnone f hf hhas
    unfold effectiveOperation?
    rw [hop]
    cases (target ⟨Text.trim raw, o⟩).resource? <;> simp
  case not_whole =>
    intro op hop hspecific s b hkey
    rw [← Block.isWhole_iff, ← ResourceKey.isWhole_ofBlock]
    exact not_isWhole_of_isMoreSpecific happlies hop hspecific hkey
  case both_directions => exact exists_block_of_bothDirections happlies
  case version_isSome => exact isSome_version?_iff htrim happlies
  case version_pos =>
    intro n hn
    obtain ⟨v, _, hv⟩ := Option.bind_eq_some_iff.mp hn
    exact (Version.read_eq_ok (eq_ok_of_toOption hv)).1
  case versionPair_isSome => exact isSome_versionPair?_iff htrim happlies
  case versionPair_ne =>
    intro m n hmn
    obtain ⟨v, _, hv⟩ := Option.bind_eq_some_iff.mp hmn
    exact Version.readPair_eq_ok (eq_ok_of_toOption hv)
  case template_isSome => exact isSome_templateOf?_iff htrim happlies (.inl rfl)
  case verbose_isSome => exact isSome_templateOf?_iff htrim happlies (.inr rfl)
  case information_isSome => exact isSome_information?_iff htrim happlies
  case attribute_isInverseKey =>
    intro a ha
    by_contra hnot
    exact happlies (.attributeNotSearchable a) ⟨ha, hnot⟩
  case attributes_nodup => exact nodup_eraseDups _
  case attributes_inverse =>
    intro a ha
    obtain ⟨name, hname, _⟩ := List.mem_flatMap.mp (List.mem_eraseDups.mp ha)
    obtain ⟨v, hv, _⟩ := mem_list.mp hname
    exact Options.has_of_mem_values hv
  case proxy_valid => exact hasValidProxy_of_not_applies happlies
  case no_error =>
    intro i hi
    rw [Bool.eq_false_iff]
    exact List.filter_eq_nil_iff.mp herrors i hi

end Request

/-- A query that has passed all checks is coherent. -/
theorem Query.resolve_coherent {raw : Text} {origin : Origin} {credentials : Option Credentials}
    {q : Query} (h : resolve raw origin credentials = .ok q) : q.toRequest.Coherent := by
  obtain ⟨o, hread, hrequest, herrors⟩ := resolve_eq_ok h
  rw [hrequest] at herrors ⊢
  exact Request.coherent_of_errors_eq_nil hread herrors

theorem Query.resolve_coherent_bothDirections :
    ∃ q, resolve "-d -m 10.in-addr.arpa" .direct none = .ok q ∧ q.toRequest.Coherent := by
  have hok : (resolve "-d -m 10.in-addr.arpa" .direct none).isOk = true := by decide +kernel
  cases hq : resolve "-d -m 10.in-addr.arpa" .direct none with
  | error e =>
    rw [hq] at hok
    cases hok
  | ok q => exact ⟨q, rfl, resolve_coherent hq⟩

end Whois

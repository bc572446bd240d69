import Whois.Proofs.Query.Coherence
import Whois.Proofs.Query.Combination
import Whois.Proofs.Query.Outcome

/-!
Warnings that a flag is ignored. Such a flag can be left out: the query is still accepted, and
nothing else that can be asked of it changes.
-/
namespace Whois

namespace Options

variable {o : Options} {f f' : Flag}

/-- The options without a flag. -/
def without (o : Options) (f : Flag) : Options :=
  ⟨fun f' => if f' = f then none else o.given f', o.searchTerm⟩

theorem given_without_of_ne (h : f' ≠ f) : (o.without f).given f' = o.given f' := if_neg h

theorem has_without_of_ne (h : f' ≠ f) : (o.without f).has f' = o.has f' := by
  unfold has
  rw [given_without_of_ne h]

theorem has_of_has_without (h : (o.without f).has f' = true) : o.has f' = true := by
  by_cases hf : f' = f
  · simp [has, without, hf] at h
  · rwa [has_without_of_ne hf] at h

theorem mem_flags : f ∈ o.flags ↔ o.has f = true := by
  unfold flags
  rw [List.mem_filter, and_iff_right f.mem_all]

theorem isEmpty_of_has (h : o.has f = true) : o.isEmpty = false := by
  unfold isEmpty
  rw [List.isEmpty_eq_false_iff]
  exact List.ne_nil_of_mem (mem_flags.mpr h)

end Options

namespace Request

/-- The flags that a predicate of a request asks for. -/
def askedFlags : List Flag :=
  [.primaryKeys, .allSources, .resource, .reverseDomain, .abuseContact, .brief, .inverse, .template,
    .verbose, .listVersions, .diffVersions, .showVersion, .validSyntax, .noValidSyntax, .client,
    .persistentConnection, .selectTypes, .sources, .showPersonal, .noPersonal, .showTagInfo,
    .noTagInfo]

/-- Whether two requests agree on everything that can be asked of them but a flag, their texts and
warnings aside. -/
structure AgreesBeside (f : Flag) (r r' : Request) : Prop extends r.SearchesAlike r' where
  given : ∀ f', f' ≠ f → r.options.given f' = r'.options.given f'
  asked : ∀ f' ∈ askedFlags, r.has f' = r'.has f'
  isEmpty : r.options.isEmpty = r'.options.isEmpty
  key : r.key = r'.key
  canFindBy : ∀ o a, r.target.canFindBy o a = r'.target.canFindBy o a
  suppliedTypes : r.suppliedTypes = r'.suppliedTypes
  attributeTypes : r.attributeTypes = r'.attributeTypes
  sources : r.sources = r'.sources
  tagsIncluded : r.tagsIncluded = r'.tagsIncluded
  tagsExcluded : r.tagsExcluded = r'.tagsExcluded
  isSystemInfo : r.isSystemInfo = r'.isSystemInfo
  information : r.information? = r'.information?
  template : r.templateOf? .template = r'.templateOf? .template
  verbose : r.templateOf? .verbose = r'.templateOf? .verbose
  version : r.version? = r'.version?
  versionPair : r.versionPair? = r'.versionPair?
  isHelp : r.isHelp = r'.isHelp
  returnsIrt : r.returnsIrt = r'.returnsIrt
  isGrouping : r.isGrouping = r'.isGrouping
  returnsReferenced : r.returnsReferenced = r'.returnsReferenced
  isPrimaryOnly : r.isPrimaryOnly = r'.isPrimaryOnly
  isFiltered : r.isFiltered = r'.isFiltered
  hasIpFlags : r.hasIpFlags = r'.hasIpFlags
  proxy : r.proxy? = r'.proxy?
  hasValidProxy : r.hasValidProxy = r'.hasValidProxy
  proxyAddress : r.proxyAddress? = r'.proxyAddress?
  isOnlyKeepAlive : r.isOnlyKeepAlive = r'.isOnlyKeepAlive

variable {r : Request} {because ignored : Flag}

theorem mem_warnings_ignoredFlag {q : Query} : .ignoredFlag ignored because ∈ q.warnings ↔
    (because, ignored) ∈ pairs overridden ∧ q.has because = true ∧ q.has ignored = true := by
  rw [q.warnings_eq, List.mem_filter, and_iff_left (by rfl), ← mem_combinationIssues_iff rfl]
  unfold combinationIssues Query.combinationIssues
  simp [pairsGiven_eq]

theorem pairs_overridden (h : (because, ignored) ∈ pairs overridden) :
    because = .primaryKeys ∧ ignored = .noReferenced ∨
      because = .primaryKeys ∧ ignored = .noGrouping ∨
      because = .brief ∧ ignored = .noReferenced := by
  simpa [pairs, overridden] using h

/-- A connection is not only kept open if there is a flag for anything else. -/
theorem isOnlyKeepAlive_of_has {f : Flag} (h : r.has f = true) (hf : f ≠ .persistentConnection) :
    r.isOnlyKeepAlive = false := by
  rw [Bool.eq_false_iff]
  intro honly
  simp only [isOnlyKeepAlive, Bool.and_eq_true, beq_iff_eq] at honly
  obtain ⟨⟨hkeep, hlength⟩, _⟩ := honly
  obtain ⟨f', hflags⟩ := List.length_eq_one_iff.mp hlength
  have hmem := Options.mem_flags.mpr h
  have hmem' := Options.mem_flags.mpr hkeep
  rw [hflags, List.mem_singleton] at hmem hmem'
  exact hf (hmem.trans hmem'.symm)

section Without
variable {text text' : Text} {o : Options} (hpair : (because, ignored) ∈ pairs overridden)
  (hhas : o.has because = true)
include hpair

theorem because_ne_ignored : because ≠ ignored := by
  rcases pairs_overridden hpair with ⟨rfl, rfl⟩ | ⟨rfl, rfl⟩ | ⟨rfl, rfl⟩ <;> decide

theorem ignored_cases : ignored = .noReferenced ∨ ignored = .noGrouping := by
  rcases pairs_overridden hpair with ⟨_, rfl⟩ | ⟨_, rfl⟩ | ⟨_, rfl⟩ <;> decide

theorem hasIpFlags_without :
    hasIpFlags ⟨text, o⟩ = hasIpFlags ⟨text', o.without ignored⟩ := by
  unfold hasIpFlags Options.flags
  rw [List.any_filter, List.any_filter]
  apply List.any_congr rfl
  intro f
  by_cases hf : f = ignored
  · subst hf
    have hgroup : (f.group == .matchOperation) = false := by
      rcases ignored_cases hpair with rfl | rfl <;> rfl
    rw [hgroup, Bool.and_false, Bool.and_false]
  · rw [Options.has_without_of_ne hf]

theorem searchesAlike_without : SearchesAlike ⟨text, o⟩ ⟨text', o.without ignored⟩ := by
  rcases ignored_cases hpair with rfl | rfl <;> constructor <;> rfl

include hhas

theorem has_without : (o.without ignored).has because = true := by
  rwa [Options.has_without_of_ne (because_ne_ignored hpair)]

theorem isOnlyKeepAlive_without :
    isOnlyKeepAlive ⟨text, o⟩ = isOnlyKeepAlive ⟨text', o.without ignored⟩ := by
  have hne : because ≠ .persistentConnection := by
    rcases pairs_overridden hpair with ⟨rfl, _⟩ | ⟨rfl, _⟩ | ⟨rfl, _⟩ <;> decide
  have hkeep : isOnlyKeepAlive ⟨text, o⟩ = false := isOnlyKeepAlive_of_has hhas hne
  have hkeep' : isOnlyKeepAlive ⟨text', o.without ignored⟩ = false :=
    isOnlyKeepAlive_of_has (has_without hpair hhas) hne
  rw [hkeep, hkeep']

theorem isGrouping_without : isGrouping ⟨text, o⟩ = isGrouping ⟨text', o.without ignored⟩ := by
  rcases pairs_overridden hpair with ⟨rfl, rfl⟩ | ⟨rfl, rfl⟩ | ⟨rfl, rfl⟩
  · rfl
  · have hhas' : (o.without .noGrouping).has .primaryKeys = true := hhas
    simp [isGrouping, has, hhas, hhas']
  · rfl

theorem returnsReferenced_without :
    returnsReferenced ⟨text, o⟩ = returnsReferenced ⟨text', o.without ignored⟩ := by
  rcases pairs_overridden hpair with ⟨rfl, rfl⟩ | ⟨rfl, rfl⟩ | ⟨rfl, rfl⟩
  · have hhas' : (o.without .noReferenced).has .primaryKeys = true := hhas
    simp [returnsReferenced, has, hhas, hhas']
  · rfl
  · have hhas' : (o.without .noReferenced).has .brief = true := hhas
    simp [returnsReferenced, has, hhas, hhas']

/-- Everything that can be asked of a request is the same without a flag that is ignored. -/
theorem agreesBeside_without :
    AgreesBeside ignored ⟨text, o⟩ ⟨text', o.without ignored⟩ := by
  have hgrouping : isGrouping ⟨text, o⟩ = isGrouping ⟨text', o.without ignored⟩ :=
    isGrouping_without hpair hhas
  have hreferenced : returnsReferenced ⟨text, o⟩ = returnsReferenced ⟨text', o.without ignored⟩ :=
    returnsReferenced_without hpair hhas
  have hhas' := has_without hpair hhas
  -- Neither flag is looked at for anything but how results are listed.
  have hignored := ignored_cases hpair
  constructor
  case toSearchesAlike => exact searchesAlike_without hpair
  case given => exact fun f' hne => (Options.given_without_of_ne hne).symm
  case asked =>
    intro f' hf'
    refine (Options.has_without_of_ne ?_).symm
    rintro rfl
    rcases hignored with rfl | rfl <;> revert hf' <;> decide
  case isEmpty => exact (Options.isEmpty_of_has hhas).trans (Options.isEmpty_of_has hhas').symm
  case canFindBy => rcases hignored with rfl | rfl <;> exact fun _ _ => rfl
  case isGrouping => exact hgrouping
  case returnsReferenced => exact hreferenced
  case isPrimaryOnly =>
    have hirt : returnsIrt ⟨text, o⟩ = returnsIrt ⟨text', o.without ignored⟩ := by
      rcases hignored with rfl | rfl <;> rfl
    unfold isPrimaryOnly
    rw [hgrouping, hreferenced, hirt]
  case hasIpFlags => exact hasIpFlags_without hpair
  case isOnlyKeepAlive => exact isOnlyKeepAlive_without hpair hhas
  all_goals rcases hignored with rfl | rfl <;> rfl

/-- Leaving out a flag that is ignored makes no fault. -/
theorem applies_of_applies_without {f : Fault} (h : f.Applies ⟨text', o.without ignored⟩) :
    f.Applies ⟨text, o⟩ := by
  have hignored := ignored_cases hpair
  cases f with
  | severalOperations =>
    obtain ⟨f, hf, f', hf', hne, hgiven, hgiven'⟩ := h
    exact ⟨f, hf, f', hf', hne, Options.has_of_has_without hgiven,
      Options.has_of_has_without hgiven'⟩
  | operationWithoutKey f =>
    obtain ⟨hf, hgiven, hkey⟩ := h
    have hresource : (target ⟨text, o⟩).resource? = (target ⟨text', o.without ignored⟩).resource? :=
      (searchesAlike_without hpair).resource
    exact ⟨hf, Options.has_of_has_without hgiven, hresource.trans hkey⟩
  | combination a b =>
    exact ⟨Options.has_of_has_without h.1, Options.has_of_has_without h.2.1, h.2.2⟩
  | missingKey =>
    have hkeep : isOnlyKeepAlive ⟨text, o⟩ = isOnlyKeepAlive ⟨text', o.without ignored⟩ :=
      isOnlyKeepAlive_without hpair hhas
    have hneeds : needsKey ⟨text, o⟩ = needsKey ⟨text', o.without ignored⟩ := by
      unfold needsKey
      rw [hkeep]
      rcases hignored with rfl | rfl <;> rfl
    exact ⟨hneeds.trans h.1, h.2⟩
  | templateName f name =>
    obtain ⟨rfl | rfl, h⟩ := h
    · rcases hignored with rfl | rfl <;> exact ⟨.inl rfl, h⟩
    · rcases hignored with rfl | rfl <;> exact ⟨.inr rfl, h⟩
  | _ => rcases hignored with rfl | rfl <;> exact h

end Without

end Request

/-- A warning that a flag is ignored is right: any query with the other flags and the same search
term is accepted too, and agrees with the query on everything but that flag. -/
theorem Query.resolve_ignoredFlag {raw raw' : Text} {origin : Origin}
    {credentials : Option Credentials} {q : Query} {ignored because : Flag}
    (h : resolve raw origin credentials = .ok q)
    (hwarning : .ignoredFlag ignored because ∈ q.warnings)
    (hread' : Options.read raw' = .ok (q.options.without ignored)) :
    ∃ q', resolve raw' origin credentials = .ok q' ∧ q'.options = q.options.without ignored ∧
      q.toRequest.AgreesBeside ignored q'.toRequest ∧ q'.origin = q.origin ∧
      q'.credentials = q.credentials := by
  obtain ⟨o, hread, hrequest, herrors⟩ := resolve_eq_ok h
  rw [hrequest] at herrors
  rw [resolve_of_errors_eq_nil hread herrors] at h
  cases h
  obtain ⟨hpair, hhas, _⟩ := Request.mem_warnings_ignoredFlag.mp hwarning
  have happlies := Request.not_applies_of_errors_eq_nil hread herrors
  have herrors' := Request.errors_eq_nil_of_not_applies hread' fun f hf =>
    happlies f (Request.applies_of_applies_without hpair hhas hf)
  refine ⟨_, resolve_of_errors_eq_nil hread' herrors', rfl, ?_, rfl, rfl⟩
  exact Request.agreesBeside_without hpair hhas

theorem Query.resolve_ignoredFlag_noReferenced :
    ∃ q q', resolve "-K -G -r word" .direct none = .ok q ∧
      .ignoredFlag .noReferenced .primaryKeys ∈ q.warnings ∧
      Options.read "-KG word" = .ok (q.options.without .noReferenced) ∧
      resolve "-KG word" .direct none = .ok q' ∧
      q.toRequest.AgreesBeside .noReferenced q'.toRequest := by
  let others : Given := (Given.none.set .primaryKeys []).set .noGrouping []
  let q : Query := ⟨⟨"-K -G -r word", others.set .noReferenced [], "word"⟩, .direct, none⟩
  have hq : resolve "-K -G -r word" .direct none = .ok q := by rfl
  have hothers : others = (q.options.without .noReferenced).given := by
    funext f
    cases f <;> rfl
  have hread : Options.read "-KG word" = .ok ⟨others, "word"⟩ := by rfl
  rw [hothers] at hread
  have hwarning : .ignoredFlag .noReferenced .primaryKeys ∈ q.warnings := by decide +kernel
  obtain ⟨q', hq', _, hagrees, _⟩ := resolve_ignoredFlag hq hwarning hread
  exact ⟨q, q', hq, hwarning, hread, hq', hagrees⟩

end Whois

import Whois.Proofs.Options.Spread
import Whois.Proofs.Query.CommaList
import Whois.Proofs.Query.IgnoredFlag

/-!
Flags with lists that can be given more than once. The pieces of a list may stand in one value or in
the values of several occurrences, with any other tokens in between: only the pieces and their order
count.
-/
namespace Whois

/-- Ways of writing pieces as one comma-separated list. There may be more commas than the pieces need,
and without pieces there are only commas. -/
inductive CommaList : (pieces : List Text) → (value : Text) → Prop
  | nil : CommaList [] []
  | comma {pieces : List Text} {value : Text} (h : CommaList pieces value) :
    CommaList pieces (',' :: value)
  | last {piece : Text} (hne : piece ≠ []) (hfree : ',' ∉ piece) : CommaList [piece] piece
  | cons {piece : Text} {pieces : List Text} {value : Text} (hne : piece ≠ [])
      (hfree : ',' ∉ piece) (h : CommaList pieces value) :
    CommaList (piece :: pieces) (piece ++ ',' :: value)

/-- Ways of writing pieces as several lists, in order. -/
inductive CommaLists : (pieces : List Text) → (values : List Text) → Prop
  | nil : CommaLists [] []
  | cons {pieces others : List Text} {value : Text} {values : List Text}
      (h : CommaList pieces value) (hrest : CommaLists others values) :
    CommaLists (pieces ++ others) (value :: values)

variable {pieces values : List Text} {piece value : Text}

namespace Text

theorem pieces_comma (t : Text) : Text.pieces (',' :: t) = Text.pieces t := filled_cons t

theorem pieces_of_not_mem (hne : piece ≠ []) (hfree : ',' ∉ piece) :
    Text.pieces piece = [piece] := filled_of_not_mem hne hfree

theorem pieces_append_comma (hne : piece ≠ []) (hfree : ',' ∉ piece) (t : Text) :
    Text.pieces (piece ++ ',' :: t) = piece :: Text.pieces t := filled_append_cons hne hfree t

end Text

theorem CommaList.pieces_eq (h : CommaList pieces value) : Text.pieces value = pieces := by
  induction h with
  | nil => rfl
  | comma h ih => rw [Text.pieces_comma, ih]
  | last hne hfree => exact Text.pieces_of_not_mem hne hfree
  | cons hne hfree h ih => rw [Text.pieces_append_comma hne hfree, ih]

theorem CommaLists.flatMap_pieces (h : CommaLists pieces values) :
    values.flatMap Text.pieces = pieces := by
  induction h with
  | nil => rfl
  | cons h hrest ih => rw [List.flatMap_cons, h.pieces_eq, ih]

namespace Request

/-- Whether two requests are the same, their texts and the values of a flag as they are written
aside. -/
structure SameBeside (f : Flag) (r r' : Request) : Prop extends AgreesBeside f r r' where
  flags : r.options.flags = r'.options.flags
  searchTerm : r.options.searchTerm = r'.options.searchTerm
  list : ∀ f', r.list f' = r'.list f'
  issues : r.issues = r'.issues

/-- Whether two requests have the same flags and the same search term, the same lists, and the same
values of flags that have one value at most. -/
structure ReadAlike (r r' : Request) : Prop where
  searchTerm : r.options.searchTerm = r'.options.searchTerm
  has : r.has = r'.has
  list : r.list = r'.list
  value : ∀ f, f.standardSpec.repeatable = false → r.options.value? f = r'.options.value? f

variable {r r' : Request} {f : Flag}

namespace ReadAlike
variable (h : ReadAlike r r')
include h

theorem key : r.key = r'.key := by
  unfold Request.key
  rw [h.searchTerm]

theorem flags : r.options.flags = r'.options.flags :=
  congrArg (Flag.all.filter ·) h.has

theorem target : r.target = r'.target := by
  unfold Request.target bothDirections
  rw [h.key, h.has]

theorem operation : r.operation? = r'.operation? := by
  unfold operation?
  rw [h.has]

theorem suppliedTypes : r.suppliedTypes = r'.suppliedTypes := by
  unfold Request.suppliedTypes
  rw [h.list]

theorem attributeTypes : r.attributeTypes = r'.attributeTypes := by
  unfold Request.attributeTypes
  rw [h.list]

theorem objectTypes : r.objectTypes = r'.objectTypes := by
  unfold Request.objectTypes isSelected isAllowed bothDirections
  rw [h.suppliedTypes, h.has, h.target]

theorem isOnlyKeepAlive : r.isOnlyKeepAlive = r'.isOnlyKeepAlive := by
  unfold Request.isOnlyKeepAlive
  rw [h.has, h.flags, h.key]

theorem searchesAlike : r.SearchesAlike r' where
  ipBlock := by rw [h.target]
  reverseBlock := by rw [h.target]
  resource := by rw [h.target]
  operation := h.operation
  effectiveOperation := by
    unfold effectiveOperation?
    rw [h.target, h.operation]
  objectTypes := h.objectTypes

theorem agreesBeside (hgiven : ∀ f', f' ≠ f → r.options.given f' = r'.options.given f') :
    AgreesBeside f r r' := by
  constructor
  case toSearchesAlike => exact h.searchesAlike
  case given => exact hgiven
  case asked => exact fun f' _ => congrFun h.has f'
  case isEmpty =>
    unfold Options.isEmpty
    rw [h.flags]
  case key => exact h.key
  case canFindBy =>
    intro o a
    rw [h.target]
  case suppliedTypes => exact h.suppliedTypes
  case attributeTypes => exact h.attributeTypes
  case isOnlyKeepAlive => exact h.isOnlyKeepAlive
  -- Everything else is said in terms of flags, lists, single values and the key.
  all_goals
    simp only [sources, tagsIncluded, tagsExcluded, isSystemInfo, information?, templateOf?,
      version?, versionPair?, isHelp, returnsIrt, isGrouping, returnsReferenced, isPrimaryOnly,
      isFiltered, hasIpFlags, proxy?, hasValidProxy, proxyAddress?, h.key, h.has, h.list, h.flags,
      h.value .listSourcesOrVersion rfl, h.value .template rfl, h.value .verbose rfl,
      h.value .showVersion rfl, h.value .diffVersions rfl, h.value .client rfl]

end ReadAlike

section Checks
variable {q q' : Query} (h : ReadAlike q.toRequest q'.toRequest)
include h

theorem ReadAlike.valueIssues : q.valueIssues = q'.valueIssues := by
  have hnames : [Flag.template, .verbose].filterMap q.options.value? =
      [Flag.template, .verbose].filterMap q'.options.value? := by
    apply List.filterMap_congr
    intro f hf
    apply h.value
    revert f
    decide
  unfold Query.valueIssues
  rw [h.list, hnames, h.value .listSourcesOrVersion rfl]

theorem ReadAlike.operationIssues : q.operationIssues = q'.operationIssues := by
  unfold Query.operationIssues operationFlags isWholeSpaceLookup bothDirections
  rw [h.has, h.target, h.operation]

theorem ReadAlike.keyIssues : q.keyIssues = q'.keyIssues := by
  unfold Query.keyIssues needsKey isSystemInfo
  rw [h.has, h.isOnlyKeepAlive, h.key, h.attributeTypes]

theorem ReadAlike.tagIssues : q.tagIssues = q'.tagIssues := by
  unfold Query.tagIssues conflictingTags tagsIncluded tagsExcluded
  rw [h.list]

theorem ReadAlike.issues_query : q.issues = q'.issues := by
  have hproxy : q.proxyIssues = q'.proxyIssues := by
    unfold Query.proxyIssues proxy?
    rw [h.value .client rfl]
  have hcontact : q.abuseContactIssues = q'.abuseContactIssues := by
    unfold Query.abuseContactIssues
    rw [h.has, h.objectTypes]
  have hversions : q.versionIssues = q'.versionIssues := by
    unfold Query.versionIssues
    rw [h.value .showVersion rfl, h.value .diffVersions rfl]
  have hcombinations := combinationIssues_of_has (congrFun h.has)
  unfold Query.issues Query.checks
  simp only [List.flatMap_cons, List.flatMap_nil, h.valueIssues, h.operationIssues, hproxy,
    hcontact, hcombinations, h.keyIssues, h.tagIssues, hversions]

end Checks

theorem ReadAlike.issues (h : ReadAlike r r') : r.issues = r'.issues := by
  have hbuilt : ReadAlike (Query.build r .direct).toRequest (Query.build r' .direct).toRequest := h
  exact hbuilt.issues_query

/-- The values of a repeatable flag are looked at for nothing but their pieces. -/
theorem readAlike_replace {given : Given} {term text text' : Text} {values' : List Text}
    (hf : f.standardSpec.repeatable = true)
    (h : values.flatMap Text.pieces = values'.flatMap Text.pieces) :
    ReadAlike ⟨text, given.replace f (some values), term⟩
      ⟨text', given.replace f (some values'), term⟩ := by
  constructor
  case searchTerm => rfl
  case has =>
    funext f'
    show (given.replace f (some values) f').isSome = (given.replace f (some values') f').isSome
    by_cases hne : f' = f
    · rw [hne, Given.replace_self, Given.replace_self]
      rfl
    · rw [given.replace_eq_replace _ (some values') hne]
  case list =>
    funext f'
    unfold list Options.values
    dsimp only
    by_cases hne : f' = f
    · rw [hne, Given.replace_self, Given.replace_self]
      exact congrArg List.eraseDups h
    · rw [given.replace_eq_replace _ (some values') hne]
  case value =>
    intro f' hf'
    have hne : f' ≠ f := by
      rintro rfl
      exact Bool.false_ne_true (hf'.symm.trans hf)
    unfold Options.value? Options.values
    dsimp only
    rw [given.replace_eq_replace _ (some values') hne]

theorem sameBeside_replace {given : Given} {term text text' : Text} {values' : List Text}
    (hf : f.standardSpec.repeatable = true)
    (h : values.flatMap Text.pieces = values'.flatMap Text.pieces) :
    SameBeside f ⟨text, given.replace f (some values), term⟩
      ⟨text', given.replace f (some values'), term⟩ := by
  have halike : ReadAlike ⟨text, given.replace f (some values), term⟩
      ⟨text', given.replace f (some values'), term⟩ := readAlike_replace hf h
  exact ⟨halike.agreesBeside fun _ hne => given.replace_eq_replace _ _ hne, halike.flags, rfl,
    congrFun halike.list, halike.issues⟩

theorem sources_of_pieces (h : (r.options.values .sources).flatMap Text.pieces = pieces) :
    r.sources = (pieces.map Text.upper).eraseDups := by
  unfold sources list
  rw [h, eraseDups_map_of_eraseDups]

end Request

/-- The attributes that an inverse query searches for one that is named. -/
def AttributeType.standsFor (a : AttributeType) : List AttributeType :=
  if a = .person then personReferences else [a]

namespace Request

variable {r : Request}

theorem attributesNamed_of_read {name : Text} {a : AttributeType}
    (h : AttributeType.read name = .ok a) : attributesNamed name = a.standsFor := by
  unfold attributesNamed AttributeType.standsFor
  rw [h]
  cases a <;> rfl

theorem flatMap_attributesNamed {attributes : List AttributeType}
    (h : pieces.map AttributeType.read = attributes.map .ok) :
    pieces.flatMap attributesNamed = attributes.flatMap AttributeType.standsFor := by
  induction pieces generalizing attributes with
  | nil => rw [List.map_eq_nil_iff.mp h.symm]; rfl
  | cons name names ih =>
    cases attributes with
    | nil => cases h
    | cons a attributes =>
      obtain ⟨hname, hnames⟩ := List.cons.inj h
      rw [List.flatMap_cons, List.flatMap_cons, attributesNamed_of_read hname, ih hnames]

section Accepted
variable (haccepted : ∀ fault : Fault, ¬ fault.Applies r)
include haccepted

theorem exists_attributes (h : (r.options.values .inverse).flatMap Text.pieces = pieces) :
    ∃ attributes : List AttributeType, pieces.map AttributeType.read = attributes.map .ok ∧
      r.attributeTypes = (attributes.flatMap AttributeType.standsFor).eraseDups := by
  have hread : ∀ name ∈ pieces, ∃ a, AttributeType.read name = .ok a := by
    intro name hname
    by_contra hnone
    exact haccepted (.attributeName name) ⟨List.mem_flatMap.mp (h ▸ hname), not_exists.mp hnone⟩
  obtain ⟨attributes, hattributes⟩ := exists_map_eq_map hread
  refine ⟨attributes, hattributes, ?_⟩
  unfold attributeTypes list
  rw [h, eraseDups_flatMap_of_eraseDups, flatMap_attributesNamed hattributes]

theorem exists_types (h : (r.options.values .selectTypes).flatMap Text.pieces = pieces) :
    ∃ types : List ObjectType, pieces.map ObjectType.read = types.map .ok ∧
      ∀ t, t ∈ r.suppliedTypes ↔ t ∈ types := by
  have hread : ∀ name ∈ pieces, ∃ t, ObjectType.read name = .ok t := by
    intro name hname
    by_contra hnone
    exact haccepted (.typeName name) ⟨List.mem_flatMap.mp (h ▸ hname), not_exists.mp hnone⟩
  obtain ⟨types, htypes⟩ := exists_map_eq_map hread
  refine ⟨types, htypes, fun t => ?_⟩
  have hnamed : (∃ name ∈ pieces, ObjectType.read name = .ok t) ↔
      .ok t ∈ pieces.map ObjectType.read := List.mem_map.symm
  rw [mem_suppliedTypes]
  unfold list
  simp only [h, List.mem_eraseDups, hnamed, htypes, List.mem_map, Except.ok.injEq, exists_eq_right]

end Accepted

end Request

namespace Query

variable {raw raw' : Text} {f : Flag} {others : List Text}

/-- Whether a query is some tokens with a flag among them, whose values are lists of some pieces. -/
def GivesLists (f : Flag) (pieces others : List Text) (raw : Text) : Prop :=
  ∃ values, values ≠ [] ∧ CommaLists pieces values ∧
    Spread .standard f.standardSpec others values (Text.words raw) ∧
    (Text.words raw).length ≤ maxElements

theorem GivesLists.exists_read (h : GivesLists f pieces others raw)
    (hf : f.standardSpec.repeatable = true)
    (hothers : ∀ o ∈ (Scan.ofTokens .standard others).occurrences, o.spec.flag ≠ f) :
    ∃ values, values.flatMap Text.pieces = pieces ∧
      Options.read raw = (Options.ofScan (Scan.ofTokens .standard others)).map
        fun o => ⟨o.given.replace f (some values), o.searchTerm⟩ := by
  obtain ⟨values, hne, hlists, hspread, hlength⟩ := h
  have hrepeatable := Registry.isRepeatable_flag (Registry.standardSpec_mem_standard f)
  have hread := Options.ofTokens_of_spread hspread hne (hrepeatable.trans hf)
    (by rwa [f.flag_standardSpec]) hlength
  rw [f.flag_standardSpec] at hread
  exact ⟨values, hlists.flatMap_pieces, hread⟩

theorem GivesLists.flatMap_values (h : GivesLists f pieces others raw)
    (hf : f.standardSpec.repeatable = true)
    (hothers : ∀ o ∈ (Scan.ofTokens .standard others).occurrences, o.spec.flag ≠ f) {o : Options}
    (hok : Options.read raw = .ok o) : (o.values f).flatMap Text.pieces = pieces := by
  obtain ⟨values, hpieces, hread⟩ := h.exists_read hf hothers
  rw [hread] at hok
  cases hscan : Options.ofScan (Scan.ofTokens .standard others) with
  | error fault =>
    rw [hscan] at hok
    cases hok
  | ok o' =>
    rw [hscan] at hok
    cases hok
    unfold Options.values
    dsimp only
    rw [Given.replace_self]
    exact hpieces

theorem origin_credentials_of_resolve {q : Query} {origin : Origin}
    {credentials : Option Credentials} (h : resolve raw origin credentials = .ok q) :
    q.origin = origin ∧ q.credentials = origin.keep credentials := by
  obtain ⟨o, hread, hrequest, herrors⟩ := resolve_eq_ok h
  rw [hrequest] at herrors
  rw [resolve_of_errors_eq_nil hread herrors] at h
  cases h
  exact ⟨rfl, rfl⟩

/-- However pieces are distributed over the values of a flag, and wherever these stand among other
tokens, the outcome is the same: the same errors, or queries that are the same but for their texts
and these values. -/
theorem resolve_givesLists
    (hf : f ∈ [Flag.selectTypes, .inverse, .sources, .filterTagInclude, .filterTagExclude])
    (hothers : ∀ o ∈ (Scan.ofTokens .standard others).occurrences, o.spec.flag ≠ f)
    (h : GivesLists f pieces others raw) (h' : GivesLists f pieces others raw') (origin : Origin)
    (credentials : Option Credentials) :
    SameOutcome (Request.SameBeside f) (resolve raw origin credentials)
      (resolve raw' origin credentials) ∧
    ∀ q, resolve raw origin credentials = .ok q →
      (∀ q', resolve raw' origin credentials = .ok q' →
        q.origin = q'.origin ∧ q.credentials = q'.credentials) ∧
      (f = .sources → q.sources = (pieces.map Text.upper).eraseDups) ∧
      (f = .inverse → ∃ attributes : List AttributeType,
        pieces.map AttributeType.read = attributes.map .ok ∧
          q.attributeTypes = (attributes.flatMap AttributeType.standsFor).eraseDups) ∧
      (f = .selectTypes → ∃ types : List ObjectType,
        pieces.map ObjectType.read = types.map .ok ∧ ∀ t, t ∈ q.suppliedTypes ↔ t ∈ types) := by
  have hrepeatable : f.standardSpec.repeatable = true := by
    clear hothers h h'
    revert f
    decide
  obtain ⟨values, hpieces, hread⟩ := h.exists_read hrepeatable hothers
  obtain ⟨values', hpieces', hread'⟩ := h'.exists_read hrepeatable hothers
  constructor
  · apply sameOutcome_of_read hread hread'
    intro o _
    have hsame : Request.SameBeside f
        ⟨Text.trim raw, o.given.replace f (some values), o.searchTerm⟩
        ⟨Text.trim raw', o.given.replace f (some values'), o.searchTerm⟩ :=
      Request.sameBeside_replace hrepeatable (hpieces.trans hpieces'.symm)
    exact ⟨hsame.issues, hsame⟩
  · intro q hq
    obtain ⟨o, hok, hrequest, herrors⟩ := resolve_eq_ok hq
    have haccepted : ∀ fault : Fault, ¬ fault.Applies q.toRequest := by
      rw [hrequest] at herrors ⊢
      exact Request.not_applies_of_errors_eq_nil hok herrors
    have hvalues : (q.options.values f).flatMap Text.pieces = pieces := by
      rw [hrequest]
      exact h.flatMap_values hrepeatable hothers hok
    refine ⟨fun q' hq' => ?_, ?_, ?_, ?_⟩
    · obtain ⟨horigin, hcredentials⟩ := origin_credentials_of_resolve hq
      obtain ⟨horigin', hcredentials'⟩ := origin_credentials_of_resolve hq'
      exact ⟨horigin.trans horigin'.symm, hcredentials.trans hcredentials'.symm⟩
    · rintro rfl
      exact Request.sources_of_pieces hvalues
    · rintro rfl
      exact Request.exists_attributes haccepted hvalues
    · rintro rfl
      exact Request.exists_types haccepted hvalues

theorem resolve_givesLists_inverse :
    ((∀ o ∈ (Scan.ofTokens .standard ["-B", "AB1-TEST"]).occurrences, o.spec.flag ≠ .inverse) ∧
      GivesLists .inverse ["person", "mnt-by"] ["-B", "AB1-TEST"]
        "-i person,mnt-by -B AB1-TEST" ∧
      GivesLists .inverse ["person", "mnt-by"] ["-B", "AB1-TEST"]
        "-Biperson, AB1-TEST --Inverse ,mnt-by") ∧
    SameOutcome (Request.SameBeside .inverse)
      (resolve "-i person,mnt-by -B AB1-TEST" .direct none)
      (resolve "-Biperson, AB1-TEST --Inverse ,mnt-by" .direct none) ∧
    ∃ q, resolve "-i person,mnt-by -B AB1-TEST" .direct none = .ok q ∧
      q.attributeTypes = AttributeType.personReferences ++ [.mntBy] := by
  have hothers : ∀ o ∈ (Scan.ofTokens .standard ["-B", "AB1-TEST"]).occurrences,
      o.spec.flag ≠ .inverse := by decide +kernel
  have hletter : Registry.standard.HasLetter Flag.inverse.standardSpec 'i' := .standard (by decide)
  have hmnt : CommaList ["mnt-by"] "mnt-by" := .last (by decide) (by decide)
  have h : GivesLists .inverse ["person", "mnt-by"] ["-B", "AB1-TEST"]
      "-i person,mnt-by -B AB1-TEST" := by
    have hwords : Text.words "-i person,mnt-by -B AB1-TEST" =
        ["-i", "person,mnt-by", "-B", "AB1-TEST"] := by decide
    have hvalue : ¬ Registry.standard.namesFlag "person,mnt-by" = true := by decide +kernel
    have hwritten : Writes .standard [⟨Flag.inverse.standardSpec, some "person,mnt-by"⟩]
        ["-i", "person,mnt-by"] := .letters (.detached hletter rfl hvalue)
    refine ⟨["person,mnt-by"], by simp, .cons (.cons (by decide) (by decide) hmnt) .nil, ?_,
      by decide⟩
    rw [hwords]
    exact Spread.front (.alone hwritten) (.nil _)
  have h' : GivesLists .inverse ["person", "mnt-by"] ["-B", "AB1-TEST"]
      "-Biperson, AB1-TEST --Inverse ,mnt-by" := by
    have hwords : Text.words "-Biperson, AB1-TEST --Inverse ,mnt-by" =
        ["-Biperson,", "AB1-TEST", "--Inverse", ",mnt-by"] := by decide
    have hbare : Writes .standard [⟨Flag.noFiltering.standardSpec, none⟩] ["-B"] :=
      .letters (.bare (.standard (by decide)) (by decide))
    have hshared : Writes .standard ([⟨Flag.noFiltering.standardSpec, none⟩] ++
        [⟨Flag.inverse.standardSpec, some "person,"⟩]) ["-Biperson,"] :=
      .letters (.cons (.standard (by decide)) rfl (.attached hletter (by decide) (by decide)))
    have hnamed : Writes .standard [⟨Flag.inverse.standardSpec, some ",mnt-by"⟩]
        ["--Inverse", ",mnt-by"] :=
      .nameDetached (.standard "inverse" (by decide) (by decide)) rfl (by decide +kernel)
    have hperson : CommaList ["person"] "person," := .cons (by decide) (by decide) .nil
    refine ⟨["person,", ",mnt-by"], by simp, .cons hperson (.cons (.comma hmnt) .nil), ?_,
      by decide⟩
    rw [hwords]
    have hlast : Spread .standard Flag.inverse.standardSpec ([("AB1-TEST" : Text)] ++ ([] ++ []))
        [",mnt-by"] ([("AB1-TEST" : Text)] ++ ([("--Inverse" : Text), ",mnt-by"] ++ [])) :=
      .cons (by decide) (by decide +kernel) (.alone hnamed) (.nil [])
    exact Spread.front (.shared hbare hshared) hlast
  have hq : resolve "-i person,mnt-by -B AB1-TEST" .direct none = .ok _ := rfl
  obtain ⟨hsame, hlists⟩ := resolve_givesLists (by decide) hothers h h' .direct none
  obtain ⟨attributes, hattributes, htypes⟩ := (hlists _ hq).2.2.1 rfl
  refine ⟨⟨hothers, h, h'⟩, hsame, _, hq, ?_⟩
  have hread : (["person", "mnt-by"] : List Text).map AttributeType.read =
      [.person, .mntBy].map .ok := by decide +kernel
  have hinj : Function.Injective (Except.ok : AttributeType → Except Misread AttributeType) :=
    fun _ _ => Except.ok.inj
  have hnamed : attributes = [.person, .mntBy] := hinj.list_map (hattributes.symm.trans hread)
  rw [hnamed] at htypes
  refine htypes.trans ?_
  decide +kernel

end Query

end Whois

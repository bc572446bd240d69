import Whois.Proofs.Options.Basic
import Whois.Proofs.Query.Fault
import Whois.Proofs.Query.Channel

/-!
Every check reports the faults that it looks for, all of them and nothing else, and so do the checks
together.
-/
namespace Whois.Request

variable {r : Request} {q : Query}

section Values

theorem mem_list {f : Flag} {piece : Text} :
    piece ∈ r.list f ↔ ∃ v ∈ r.options.values f, piece ∈ Text.pieces v := by
  unfold list
  rw [List.mem_eraseDups, List.mem_flatMap]

theorem nodup_list (r : Request) (f : Flag) : (r.list f).Nodup := nodup_eraseDups _

/-- No type is named without the flag that takes names. -/
theorem suppliedTypes_eq_nil (h : r.has .selectTypes = false) : r.suppliedTypes = [] := by
  have hnone : r.options.given .selectTypes = none := by
    simpa [has, Options.has] using h
  simp [suppliedTypes, list, Options.values, hnone]

/-- Without flags that select types, all types are searched. -/
theorem isSelected_of_not_has {t : ObjectType} (hboth : r.has .reverseDomain = false)
    (htypes : r.has .selectTypes = false) : r.isSelected t = true := by
  unfold isSelected bothDirections
  rw [suppliedTypes_eq_nil htypes, hboth]
  rfl

def isRefused {ε α : Type} : Except ε α → Bool
  | .ok _ => false
  | .error _ => true

theorem isRefused_iff {ε α : Type} {x : Except ε α} : isRefused x = true ↔ ∀ a, x ≠ .ok a := by
  cases x <;> simp [isRefused]

theorem typeIssue?_eq (name : Text) : typeIssue? name =
    if isRefused (ObjectType.read name) then some (.unknownObjectType name) else none := by
  unfold typeIssue?
  cases ObjectType.read name <;> rfl

theorem attributeIssue?_eq (name : Text) : attributeIssue? name =
    if isRefused (AttributeType.read name) then some (.unknownAttribute name) else none := by
  unfold attributeIssue?
  cases AttributeType.read name <;> rfl

theorem reports_typeNames : Reports r ((r.list .selectTypes).filterMap typeIssue?)
    fun f => f.rank = 0 ∧ f.Present r := by
  rw [filterMap_eq_map_filter fun name _ => typeIssue?_eq name]
  refine Reports.of_filter (fun name => isRefused (ObjectType.read name)) .typeName
    (nodup_list r _) ?_ ?_ (fun _ => rfl) ?_
  · intro a b h
    simpa using h
  · intro f
    cases f <;> simp [Fault.rank]
  · intro name
    rw [mem_list, isRefused_iff]
    rfl

theorem reports_attributeNames : Reports r ((r.list .inverse).filterMap attributeIssue?)
    fun f => f.rank = 1 ∧ f.Present r := by
  rw [filterMap_eq_map_filter fun name _ => attributeIssue?_eq name]
  refine Reports.of_filter (fun name => isRefused (AttributeType.read name)) .attributeName
    (nodup_list r _) ?_ ?_ (fun _ => rfl) ?_
  · intro a b h
    simpa using h
  · intro f
    cases f <;> simp [Fault.rank]
  · intro name
    rw [mem_list, isRefused_iff]
    rfl

/-- The flags that ask for a template, with the names given for them. -/
def templateNames (r : Request) : List (Flag × Text) :=
  [Flag.template, .verbose].filterMap fun f => (r.options.value? f).map fun name => (f, name)

theorem mem_templateNames {f : Flag} {name : Text} : (f, name) ∈ r.templateNames ↔
    (f = .template ∨ f = .verbose) ∧ r.options.value? f = some name := by
  simp only [templateNames, List.mem_filterMap, List.mem_cons, List.not_mem_nil, or_false,
    Option.map_eq_some_iff, Prod.mk.injEq]
  constructor
  · rintro ⟨f', hf', name', hname, rfl, rfl⟩
    exact ⟨hf', hname⟩
  · rintro ⟨hf, hname⟩
    exact ⟨f, hf, name, hname, rfl, rfl⟩

theorem nodup_templateNames : r.templateNames.Nodup := by
  unfold templateNames
  cases h : r.options.value? .template <;> cases h' : r.options.value? .verbose <;> simp [h, h']

theorem reports_templates :
    Reports r (([Flag.template, .verbose].filterMap r.options.value?).filterMap typeIssue?)
      fun f => f.rank = 2 ∧ f.Present r := by
  have hnames : [Flag.template, .verbose].filterMap r.options.value? =
      r.templateNames.map fun named => named.2 := by
    unfold templateNames
    cases h : r.options.value? .template <;> cases h' : r.options.value? .verbose <;> simp [h, h']
  rw [hnames, List.filterMap_map, filterMap_eq_map_filter fun named _ => typeIssue?_eq named.2]
  refine Reports.of_filter (fun named : Flag × Text => isRefused (ObjectType.read named.2))
    (fun named => .templateName named.1 named.2) nodup_templateNames ?_ ?_ (fun _ => rfl) ?_
  · rintro ⟨f, name⟩ ⟨f', name'⟩ h
    simpa using h
  · intro f
    cases f <;> simp [Fault.rank]
  · rintro ⟨f, name⟩
    rw [mem_templateNames, isRefused_iff, and_assoc]
    rfl

def isInformation (v : Text) : Bool :=
  Text.alike v "version" || Text.alike v "types" || Text.alike v "sources"

theorem isSome_read?_information {v : Text} (h : Text.trim v = v) :
    (Information.read? v).isSome = isInformation v := by
  unfold Information.read? isInformation
  rw [h]
  dsimp only
  cases Text.alike v "version" <;> cases Text.alike v "types" <;>
    cases Text.alike v "sources" <;> rfl

theorem informationIssue?_eq {v : Text} (h : Text.trim v = v) : informationIssue? v =
    if !isInformation v then some (.unknownInformation v) else none := by
  unfold informationIssue?
  rw [← isSome_read?_information h, h]
  cases Information.read? v <;> rfl

theorem nodup_toList {α : Type} (a? : Option α) : a?.toList.Nodup := by
  cases a? <;> simp

theorem reports_information
    (htrim : ∀ v, r.options.value? .listSourcesOrVersion = some v → Text.trim v = v) :
    Reports r ((r.options.value? .listSourcesOrVersion).toList.filterMap informationIssue?)
      fun f => f.rank = 3 ∧ f.Present r := by
  rw [filterMap_eq_map_filter fun v hv => informationIssue?_eq (htrim v (Option.mem_toList.mp hv))]
  refine Reports.of_filter (fun v => !isInformation v) .information (nodup_toList _) ?_ ?_
    (fun _ => rfl) ?_
  · intro a b h
    simpa using h
  · intro f
    cases f <;> simp [Fault.rank]
  · intro v
    simp only [Fault.Applies, isInformation, Option.mem_toList, Bool.not_eq_true', Bool.or_assoc,
      ← Bool.not_eq_true, Bool.or_eq_true]

end Values

section Operations

open Fault (alternative)

theorem applies_severalOperations_iff :
    Fault.severalOperations.Applies r ↔ ∃ f f' rest, r.operationFlags = f :: f' :: rest := by
  constructor
  · rintro ⟨f, hf, f', hf', hne, hhas, hhas'⟩
    have hmem := mem_operationFlags.mpr ⟨hf, hhas⟩
    have hmem' := mem_operationFlags.mpr ⟨hf', hhas'⟩
    match hflags : r.operationFlags with
    | [] => simp [hflags] at hmem
    | [g] =>
      rw [hflags, List.mem_singleton] at hmem hmem'
      exact absurd (hmem.trans hmem'.symm) hne
    | g :: g' :: rest => exact ⟨g, g', rest, rfl⟩
  · rintro ⟨f, f', rest, hflags⟩
    have hnodup := nodup_operationFlags (r := r)
    rw [hflags, List.nodup_cons] at hnodup
    obtain ⟨hf, hhas⟩ := mem_operationFlags.mp (hflags ▸ List.mem_cons_self : f ∈ r.operationFlags)
    obtain ⟨hf', hhas'⟩ := mem_operationFlags.mp
      (hflags ▸ List.mem_cons_of_mem _ List.mem_cons_self : f' ∈ r.operationFlags)
    refine ⟨f, hf, f', hf', ?_, hhas, hhas'⟩
    rintro rfl
    exact hnodup.1 List.mem_cons_self

theorem applies_operationWithoutKey_iff {f : Flag} : (Fault.operationWithoutKey f).Applies r ↔
    f ∈ r.operationFlags ∧ r.target.resource? = none := by
  rw [mem_operationFlags, and_assoc]
  rfl

theorem operationFlags_eq_singleton {f : Flag} (hseveral : ¬ Fault.severalOperations.Applies r)
    (hf : f ∈ r.operationFlags) : r.operationFlags = [f] := by
  match hflags : r.operationFlags with
  | [] => simp [hflags] at hf
  | [g] =>
    rw [hflags, List.mem_singleton] at hf
    rw [hf]
  | g :: g' :: rest =>
    exact absurd (applies_severalOperations_iff.mpr ⟨g, g', rest, hflags⟩) hseveral

theorem any_isMoreSpecific_iff (hseveral : ¬ Fault.severalOperations.Applies r) :
    r.operation?.any MatchOperation.isMoreSpecific = true ↔
      r.has .oneMore = true ∨ r.has .allMore = true := by
  rw [Option.any_eq_true]
  constructor
  · rintro ⟨op, hop, hspecific⟩
    obtain ⟨f, hflag, hflags⟩ := operation?_eq_some_iff.mp hop
    have hhas := (mem_operationFlags.mp (hflags ▸ List.mem_cons_self : f ∈ r.operationFlags)).2
    cases op <;> cases hflag <;>
      first | exact absurd hspecific Bool.false_ne_true | exact .inl hhas | exact .inr hhas
  · have hselects : ∀ op f, op.flag? = some f → f ∈ operationChoices → r.has f = true →
        r.operation? = some op := by
      intro op f hflag hf hhas
      have hflags := operationFlags_eq_singleton hseveral (mem_operationFlags.mpr ⟨hf, hhas⟩)
      exact operation?_eq_some_iff.mpr ⟨f, hflag, hflags⟩
    rintro (hhas | hhas)
    · exact ⟨.oneMore, hselects _ _ rfl (by decide) hhas, rfl⟩
    · exact ⟨.allMore, hselects _ _ rfl (by decide) hhas, rfl⟩

theorem isWholeSpaceLookup_iff (hseveral : ¬ Fault.severalOperations.Applies r) :
    r.isWholeSpaceLookup = true ↔ Fault.wholeSpace.Applies r := by
  unfold isWholeSpaceLookup
  rw [Bool.and_eq_true, any_isMoreSpecific_iff hseveral, Option.any_eq_true]
  rfl

theorem applies_reverseWithoutKey_iff : Fault.reverseWithoutKey.Applies r ↔
    (r.bothDirections && r.target.ipBlock?.isNone) = true := by
  rw [Bool.and_eq_true, Option.isNone_iff_eq_none]
  exact and_congr_right fun h => (Target.ipBlock?_eq_none_iff (t := r.target) h).symm

/-- An alternative that is present is the only one. -/
theorem reports_alternative {f : Fault} (hf : f.Applies r) (hpos : 0 < f.alternative)
    (hhides : ∀ f' : Fault, f'.Hides f → ¬ f'.Applies r)
    (hsame : ∀ f' : Fault, f'.alternative = f.alternative → f'.Applies r → f' = f) :
    Reports r [f.issue r] fun f => f.rank = 4 ∧ f.Present r := by
  refine Reports.single (Fault.alternative_pos_iff.mp hpos) ⟨hf, hhides⟩ ?_
  intro f' hrank hf'
  have hpos' := Fault.alternative_pos_iff.mpr hrank
  exact hsame f' (Fault.alternative_eq_of_present hf' ⟨hf, hhides⟩ hpos' hpos) hf'.1

/-- Without a fault in the flags that select operations, the key alone decides. -/
theorem reports_operation_of_key (hseveral : ¬ Fault.severalOperations.Applies r)
    (hwithout : ∀ flag, ¬ (Fault.operationWithoutKey flag).Applies r) :
    Reports r
      (if r.bothDirections && r.target.ipBlock?.isNone then [.uselessIpFlag .reverseDomain]
        else if r.isWholeSpaceLookup then [.illegalRange] else [])
      fun f => f.rank = 4 ∧ f.Present r := by
  split
  next hreverse =>
    refine reports_alternative (f := .reverseWithoutKey)
      (applies_reverseWithoutKey_iff.mpr hreverse) (Nat.succ_pos 2) ?_ ?_
    · intro f' hhides
      rcases Fault.hides_reverseWithoutKey.mp hhides with rfl | ⟨flag, rfl⟩
      · exact hseveral
      · exact hwithout flag
    · intro f' hsame _
      cases f' <;> simp [alternative] at hsame ⊢
  next hreverse =>
    have hnotReverse : ¬ Fault.reverseWithoutKey.Applies r := fun h =>
      hreverse (applies_reverseWithoutKey_iff.mp h)
    split
    next hwhole =>
      refine reports_alternative (f := .wholeSpace)
        ((isWholeSpaceLookup_iff hseveral).mp hwhole) (Nat.succ_pos 3) ?_ ?_
      · intro f' hhides
        rcases Fault.hides_wholeSpace.mp hhides with rfl | ⟨flag, rfl⟩ | rfl
        · exact hseveral
        · exact hwithout flag
        · exact hnotReverse
      · intro f' hsame _
        cases f' <;> simp [alternative] at hsame ⊢
    next hwhole =>
      apply Reports.nil
      intro f hrank hf
      have happlies := hf.1
      cases f <;> simp [Fault.rank] at hrank
      · exact hseveral happlies
      · exact hwithout _ happlies
      · exact hnotReverse happlies
      · exact hwhole ((isWholeSpaceLookup_iff hseveral).mpr happlies)

theorem reports_operation :
    Reports q.toRequest q.operationIssues fun f => f.rank = 4 ∧ f.Present q.toRequest := by
  unfold Query.operationIssues
  split
  next f f' rest hflags =>
    refine reports_alternative (f := .severalOperations)
      (applies_severalOperations_iff.mpr ⟨f, f', rest, hflags⟩) (Nat.succ_pos 0) ?_ ?_
    · exact fun f' hhides => absurd hhides Fault.not_hides_severalOperations
    · intro f' hsame _
      cases f' <;> simp [alternative] at hsame ⊢
  next flag hflags hkey =>
    have happlies : (Fault.operationWithoutKey flag).Applies q.toRequest :=
      applies_operationWithoutKey_iff.mpr ⟨by simp [hflags], hkey⟩
    refine reports_alternative happlies (Nat.succ_pos 1) ?_ ?_
    · intro f' hhides hf'
      rw [Fault.hides_operationWithoutKey.mp hhides, applies_severalOperations_iff] at hf'
      simp [hflags] at hf'
    · intro f' hsame hf'
      cases f' <;> simp [alternative] at hsame ⊢
      simpa [hflags] using (applies_operationWithoutKey_iff.mp hf').1
  next hnotSeveral hnotSingle =>
    have hseveral : ¬ Fault.severalOperations.Applies q.toRequest := by
      rw [applies_severalOperations_iff]
      rintro ⟨f, f', rest, hflags⟩
      exact hnotSeveral f f' rest hflags
    apply reports_operation_of_key hseveral
    intro flag h
    obtain ⟨hflag, hkey⟩ := applies_operationWithoutKey_iff.mp h
    exact hnotSingle flag (operationFlags_eq_singleton hseveral hflag) hkey

end Operations

section Checks

theorem isProxy_eq_false_iff {v : Text} : isProxy v = false ↔
    2 < (Text.pieces v).length ∨
      ∃ second, (Text.pieces v)[1]? = some second ∧ ¬ isAddress second = true := by
  unfold isProxy
  match Text.pieces v with
  | [] => simp
  | [_] => simp
  | [_, second] => simp
  | _ :: _ :: _ :: _ => simp

theorem reports_proxy :
    Reports q.toRequest q.proxyIssues fun f => f.rank = 5 ∧ f.Present q.toRequest := by
  unfold Query.proxyIssues
  refine Reports.of_filter (fun proxy => !isProxy proxy) .proxy (nodup_toList _) ?_ ?_
    (fun _ => rfl) ?_
  · intro a b h
    simpa using h
  · intro f
    cases f <;> simp [Fault.rank]
  · intro v
    rw [Option.mem_toList, Bool.not_eq_true', isProxy_eq_false_iff]
    rfl

theorem reports_abuseContact :
    Reports q.toRequest q.abuseContactIssues fun f => f.rank = 6 ∧ f.Present q.toRequest := by
  unfold Query.abuseContactIssues
  refine Reports.of_ite (f := .abuseContact) ?_ rfl ?_
  · intro f
    cases f <;> simp [Fault.rank]
  · simp [Fault.Applies]

/-- The pairs of a table. -/
def pairs (table : List (Flag × List Flag)) : List (Flag × Flag) :=
  table.flatMap fun row => row.2.map fun other => (row.1, other)

theorem pairsGiven_eq (table : List (Flag × List Flag)) :
    r.pairsGiven table = (pairs table).filter fun pair => r.has pair.1 && r.has pair.2 := by
  unfold pairsGiven pairs
  induction table with
  | nil => rfl
  | cons row table ih =>
    rw [List.flatMap_cons, List.filter_append, ← ih, List.filter_map]
    cases hrow : r.has row.1 with
    | true => simp [hrow, Function.comp_def]
    | false => simp [hrow, Function.comp_def]

theorem mem_pairs {table : List (Flag × List Flag)} {a b : Flag} :
    (a, b) ∈ pairs table ↔ ∃ row ∈ table, row.1 = a ∧ b ∈ row.2 := by
  unfold pairs
  simp [and_comm, and_assoc]

theorem mem_pairs_versionTable {a b : Flag} : (a, b) ∈ pairs versionTable ↔
    a.group = .version ∧ isNotWithVersions b = true := by
  unfold versionTable
  simp [mem_pairs, Registry.mem_flagsIn_standard, b.mem_all]

theorem mem_pairs_iff_excludes {a b : Flag} :
    (a, b) ∈ pairs (incompatible ++ versionTable) ↔ Excludes a b := by
  have happend : pairs (incompatible ++ versionTable) = pairs incompatible ++ pairs versionTable :=
    List.flatMap_append
  rw [happend, List.mem_append, mem_pairs_versionTable, mem_pairs]
  rfl

theorem nodup_pairs : (pairs (incompatible ++ versionTable)).Nodup := by
  decide +kernel

theorem reports_combinations :
    Reports q.toRequest q.combinationIssues fun f => f.rank = 7 ∧ f.Present q.toRequest := by
  unfold Query.combinationIssues
  rw [pairsGiven_eq]
  refine Reports.append_warnings ?_ ?_
  · refine Reports.of_filter (fun pair : Flag × Flag => q.has pair.1 && q.has pair.2)
      (fun pair => .combination pair.1 pair.2) nodup_pairs ?_ ?_ (fun _ => rfl) ?_
    · rintro ⟨a, b⟩ ⟨a', b'⟩ h
      simpa using h
    · intro f
      cases f <;> simp [Fault.rank]
    · rintro ⟨a, b⟩
      rw [mem_pairs_iff_excludes, Bool.and_eq_true, and_comm, and_assoc]
      rfl
  · intro i hi
    obtain ⟨_, _, rfl⟩ := List.mem_map.mp hi
    rfl

end Checks

section Rest

theorem reports_missingKey :
    Reports r (if r.needsKey && r.key.isEmpty then [.noSearchKey] else [])
      fun f => f.rank = 8 ∧ f.Present r := by
  refine Reports.of_ite (f := .missingKey) ?_ rfl ?_
  · intro f
    cases f <;> simp [Fault.rank]
  · simp [Fault.Applies, SearchKey.isEmpty]

theorem reports_attributesNotSearchable :
    Reports r ((r.attributeTypes.filter (!·.isInverseKey)).map .attributeNotSearchable)
      fun f => f.rank = 9 ∧ f.Present r := by
  refine Reports.of_filter (fun a => !AttributeType.isInverseKey a) .attributeNotSearchable
    (nodup_eraseDups _) ?_ ?_ (fun _ => rfl) ?_
  · intro a b h
    simpa using h
  · intro f
    cases f <;> simp [Fault.rank]
  · intro a
    simp [Fault.Applies]

theorem reports_tags :
    Reports q.toRequest q.tagIssues fun f => f.rank = 10 ∧ f.Present q.toRequest := by
  have hissues : q.tagIssues =
      if q.conflictingTags ≠ [] then [Fault.conflictingTags.issue q.toRequest] else [] := by
    unfold Query.tagIssues
    cases h : q.conflictingTags <;> simp [Fault.issue, h]
  rw [hissues]
  refine Reports.of_ite ?_ rfl ?_
  · intro f
    cases f <;> simp [Fault.rank]
  · unfold conflictingTags
    rw [ne_eq, List.filter_eq_nil_iff]
    simp [Fault.Applies]

/-- What is wrong with the values of a flag. -/
def refusals {α : Type} (read : Text → Except VersionFault α) (value? : Option Text) :
    List VersionFault :=
  value?.toList.filterMap fun v =>
    match read v with
    | .ok _ => none
    | .error fault => some fault

variable {α : Type} {read : Text → Except VersionFault α} {value? : Option Text}

theorem mem_refusals {fault : VersionFault} :
    fault ∈ refusals read value? ↔ ∃ v, value? = some v ∧ read v = .error fault := by
  unfold refusals
  rw [List.mem_filterMap]
  simp only [Option.mem_toList]
  apply exists_congr
  intro v
  cases h : read v <;> simp

theorem nodup_refusals : (refusals read value?).Nodup := by
  unfold refusals
  cases value? with
  | none => exact List.nodup_nil
  | some v => cases h : read v <;> simp [h]

theorem filterMap_versionIssue? :
    value?.toList.filterMap (versionIssue? <| read ·) =
      ((refusals read value?).filter fun _ => true).map .invalidVersion := by
  unfold refusals
  cases value? with
  | none => rfl
  | some v => cases h : read v <;> simp [versionIssue?, h]

theorem reports_version :
    Reports r ((r.options.value? .showVersion).toList.filterMap (versionIssue? <| Version.read ·))
      fun f => f.rank = 11 ∧ f.Present r := by
  rw [filterMap_versionIssue?]
  refine Reports.of_filter (fun _ => true) .version nodup_refusals ?_ ?_ (fun _ => rfl) ?_
  · intro a b h
    simpa using h
  · intro f
    cases f <;> simp [Fault.rank]
  · intro fault
    rw [mem_refusals, and_iff_left rfl]
    rfl

theorem reports_versionPair :
    Reports r
      ((r.options.value? .diffVersions).toList.filterMap (versionIssue? <| Version.readPair ·))
      fun f => f.rank = 12 ∧ f.Present r := by
  rw [filterMap_versionIssue?]
  refine Reports.of_filter (fun _ => true) .versionPair nodup_refusals ?_ ?_ (fun _ => rfl) ?_
  · intro a b h
    simpa using h
  · intro f
    cases f <;> simp [Fault.rank]
  · intro fault
    rw [mem_refusals, and_iff_left rfl]
    rfl

end Rest

/-- The issues of a query are reports of all its faults. -/
theorem reports_issues_query
    (htrim : ∀ v, q.options.value? .listSourcesOrVersion = some v → Text.trim v = v) :
    Reports q.toRequest q.issues (Fault.Present q.toRequest) := by
  -- One rank after the other, in the order in which the issues are put together.
  have hnone : Reports q.toRequest [] fun f => f.rank < 0 ∧ f.Present q.toRequest :=
    ⟨[], by simp, List.nodup_nil, List.Pairwise.nil, rfl⟩
  have hvalues := (((hnone.append_rank reports_typeNames).append_rank
    reports_attributeNames).append_rank reports_templates).append_rank (reports_information htrim)
  have hchecks := (((hvalues.append_rank reports_operation).append_rank
    reports_proxy).append_rank reports_abuseContact).append_rank reports_combinations
  have hrest := ((((hchecks.append_rank reports_missingKey).append_rank
    reports_attributesNotSearchable).append_rank reports_tags).append_rank
    reports_version).append_rank reports_versionPair
  obtain ⟨faults, hmem, hnodup, hsorted, hmap⟩ := hrest
  refine ⟨faults, ?_, hnodup, hsorted, ?_⟩
  · intro f
    rw [hmem]
    exact and_iff_right f.rank_lt
  · rw [hmap]
    unfold Query.issues Query.checks Query.valueIssues Query.keyIssues Query.versionIssues
    simp only [List.flatMap_cons, List.flatMap_nil, List.append_assoc, List.append_nil,
      List.nil_append]

/-- The issues of a request are reports of all its faults. -/
theorem reports_issues
    (htrim : ∀ v, r.options.value? .listSourcesOrVersion = some v → Text.trim v = v) :
    Reports r r.issues (Fault.Present r) :=
  reports_issues_query (q := Query.build r .direct) htrim

end Whois.Request

import Whois.Proofs.Options.Composition
import Whois.Proofs.Options.Writing
import Whois.Proofs.Query.CommaList

/-!
Flags that narrow down the types of the objects to search. Written in front of a query, each of them
keeps the types that pass it and brings in no others, so their order does not matter.
-/
namespace Whois

/-- A flag that narrows types down, with the list of types if it takes one. -/
inductive TypeFilter where
  | resource
  | noPersonal
  | abuseContact
  | types (value : Text)
  deriving DecidableEq

namespace TypeFilter

def flag : TypeFilter → Flag
  | .resource => .resource
  | .noPersonal => .noPersonal
  | .abuseContact => .abuseContact
  | .types _ => .selectTypes

def value? : TypeFilter → Option Text
  | .types value => some value
  | _ => none

/-- The flag as it is written in a query. -/
def occurrence (filter : TypeFilter) : Occurrence := ⟨filter.flag.standardSpec, filter.value?⟩

/-- Whether a filter lets a type through. -/
def passes : TypeFilter → ObjectType → Bool
  | .resource, t => ObjectType.resources.contains t
  | .noPersonal, t => t != .person && t != .role
  | .abuseContact, t => ObjectType.withAbuseContact.contains t
  | .types value, t => (Text.pieces value).any (Request.namesType · t)

/-- What filters have to be to narrow down the types of a request. A list of types stands in for the
types that are searched without one, so these have to be all types; and there may be only one list,
since the types of several lists are joined. -/
structure Narrow (filters : List TypeFilter) (r : Request) : Prop where
  list : ∀ value, .types value ∈ filters →
    r.has .reverseDomain = false ∧ r.has .selectTypes = false ∧ Text.pieces value ≠ []
  unique : ∀ value value', .types value ∈ filters → .types value' ∈ filters → value = value'

theorem Narrow.of_perm {filters filters' : List TypeFilter} {r : Request} (h : Narrow filters r)
    (hperm : filters'.Perm filters) : Narrow filters' r where
  list value hmem := h.list value (hperm.mem_iff.mp hmem)
  unique value value' hmem hmem' :=
    h.unique value value' (hperm.mem_iff.mp hmem) (hperm.mem_iff.mp hmem')

/-- The flags of a query with filters in front. -/
def before (filters : List TypeFilter) (o : Options) : Options :=
  .merge .standard ⟨Given.collected .standard (filters.map occurrence), []⟩ o

variable {filters : List TypeFilter} {filter filter' : TypeFilter} {o : Options} {f : Flag}

theorem value?_eq_some {value : Text} : filter.value? = some value ↔ filter = .types value := by
  cases filter <;> simp [value?]

theorem mem_filterMap_value? {value : Text} :
    value ∈ filters.filterMap value? ↔ .types value ∈ filters := by
  simp [List.mem_filterMap, value?_eq_some]

theorem eq_of_flag_eq (h : filter.flag = filter'.flag) (hvalue : filter.value? = none) :
    filter = filter' := by
  cases filter <;> cases filter' <;> simp_all [flag, value?]

theorem has_before : (before filters o).has f = true ↔
    (∃ filter ∈ filters, filter.flag = f) ∨ o.has f = true := by
  have hocc : (Given.collected .standard (filters.map occurrence) f).isSome = true ↔
      ∃ filter ∈ filters, filter.flag = f := by
    simp [Given.collected_isSome, occurrence, Flag.flag_standardSpec]
  unfold before
  rw [Options.has_merge, Bool.or_eq_true, ← hocc]
  rfl

theorem has_before_of_ne (h : ∀ filter : TypeFilter, filter.flag ≠ f) :
    (before filters o).has f = o.has f := by
  have hnot : ¬ ∃ filter ∈ filters, filter.flag = f := fun ⟨filter, _, hflag⟩ => h filter hflag
  rw [Bool.eq_iff_iff, has_before, or_iff_right hnot]

theorem has_before_reverseDomain : (before filters o).has .reverseDomain = o.has .reverseDomain :=
  has_before_of_ne fun filter => by cases filter <;> simp [flag]

theorem has_before_inverse : (before filters o).has .inverse = o.has .inverse :=
  has_before_of_ne fun filter => by cases filter <;> simp [flag]

theorem values_before : (before filters o).values .selectTypes =
    filters.filterMap value? ++ o.values .selectTypes := by
  have hrepeatable : Registry.standard.isRepeatable .selectTypes = true := by decide +kernel
  have hvalues : Given.valuesOf (filters.map occurrence) .selectTypes =
      filters.filterMap value? := by
    unfold Given.valuesOf
    rw [List.filterMap_map]
    refine List.filterMap_congr fun filter _ => ?_
    cases filter <;> rfl
  unfold before
  rw [Options.values_merge, Options.mergedValues, if_pos hrepeatable, ← hvalues]
  simp [Options.values, Given.getD_collected, Given.kept, hrepeatable]

theorem values_before_of_no_list (h : ∀ value, .types value ∉ filters) :
    (before filters o).values .selectTypes = o.values .selectTypes := by
  have hnone : filters.filterMap value? = [] :=
    List.eq_nil_iff_forall_not_mem.mpr fun value hvalue => h value (mem_filterMap_value?.mp hvalue)
  rw [values_before, hnone, List.nil_append]

/-- A list in front of a query without one is the only list. -/
theorem mem_values_before {text value v : Text} (hnarrow : Narrow filters ⟨text, o⟩)
    (hmem : .types value ∈ filters) :
    v ∈ (before filters o).values .selectTypes ↔ v = value := by
  obtain ⟨_, htypes, _⟩ := hnarrow.list value hmem
  have hown : v ∉ o.values .selectTypes := fun hv =>
    Bool.false_ne_true (htypes.symm.trans (Options.has_of_mem_values hv))
  rw [values_before, List.mem_append, or_iff_left hown, mem_filterMap_value?]
  constructor
  · exact fun hv => hnarrow.unique v value hv hmem
  · rintro rfl
    exact hmem

theorem searchTerm_before : (before filters o).searchTerm = o.searchTerm :=
  Text.joinNonempty_nil_left " " o.searchTerm

/-- Filters written in front of a query are merged with its flags. -/
theorem read_append {front raw : Text} {o' : Options}
    (hfront : Writes .standard (filters.map occurrence) (Text.words front))
    (hread : Options.read raw = .ok o) (hread' : Options.read (front ++ " " ++ raw) = .ok o') :
    o' = before filters o := by
  obtain ⟨_, _, _, rfl⟩ := Options.ofTokens_eq_ok_iff.mp hread
  obtain ⟨_, _, _, rfl⟩ := Options.ofTokens_eq_ok_iff.mp hread'
  unfold before
  rw [Options.merge_collected, Text.words_append_space, hfront.ofTokens_append,
    Scan.occurrences_after_flags, Scan.words_after_flags, Text.joinNonempty_nil_left]

section Types
variable {r : Request} {text text' : Text} {t : ObjectType}

theorem isAllowed_iff : r.isAllowed t = true ↔
    ∀ filter : TypeFilter, filter.value? = none → r.has filter.flag = true →
      filter.passes t = true := by
  have hflags : r.isAllowed t = true ↔
      (r.has .noPersonal = true → passes .noPersonal t = true) ∧
        (r.has .resource = true → passes .resource t = true) ∧
        (r.has .abuseContact = true → passes .abuseContact t = true) := by
    have hcontacts : passes .noPersonal t = !ObjectType.contacts.contains t := by
      cases t <;> rfl
    rw [hcontacts]
    unfold Request.isAllowed
    cases r.has .noPersonal <;> cases r.has .resource <;> cases r.has .abuseContact <;>
      simp [passes, and_assoc]
  rw [hflags]
  constructor
  · rintro ⟨hpersonal, hresource, habuse⟩ filter hvalue
    cases filter with
    | resource => exact hresource
    | noPersonal => exact hpersonal
    | abuseContact => exact habuse
    | types value => cases hvalue
  · intro h
    exact ⟨h .noPersonal rfl, h .resource rfl, h .abuseContact rfl⟩

theorem isAllowed_before : Request.isAllowed ⟨text', before filters o⟩ t = true ↔
    Request.isAllowed ⟨text, o⟩ t = true ∧
      ∀ filter ∈ filters, filter.value? = none → filter.passes t = true := by
  rw [isAllowed_iff, isAllowed_iff]
  constructor
  · intro h
    constructor
    · intro filter hvalue hhas
      exact h filter hvalue (has_before.mpr (.inr hhas))
    · intro filter hmem hvalue
      exact h filter hvalue (has_before.mpr (.inl ⟨filter, hmem, rfl⟩))
  · rintro ⟨hown, hnew⟩ filter hvalue hhas
    rcases has_before.mp hhas with ⟨filter', hmem, hflag⟩ | hhas
    · obtain rfl := eq_of_flag_eq hflag.symm hvalue
      exact hnew filter hmem hvalue
    · exact hown filter hvalue hhas

/-- With one list of types, the types searched are those that it names. -/
theorem isSelected_iff_of_list {value : Text} (haccepted : ∀ fault : Fault, ¬ fault.Applies r)
    (hvalue : ∀ v, v ∈ r.options.values .selectTypes ↔ v = value)
    (hpieces : Text.pieces value ≠ []) :
    r.isSelected t = true ↔ passes (.types value) t = true := by
  have hlist : ∀ {name}, name ∈ r.list .selectTypes ↔ name ∈ Text.pieces value := by
    simp [Request.mem_list, hvalue]
  have hlists : r.Lists .selectTypes :=
    ⟨value, (hvalue value).mpr rfl, mt Text.pieces_eq_nil_iff.mpr hpieces⟩
  have hsupplied : r.suppliedTypes ≠ [] :=
    (Request.suppliedTypes_ne_nil_iff haccepted).mpr hlists
  have hmem : r.suppliedTypes.contains t = true ↔ passes (.types value) t = true := by
    simp [Request.suppliedTypes, passes, hlist, t.mem_all]
  unfold Request.isSelected
  rw [List.isEmpty_eq_false_iff.mpr hsupplied]
  exact hmem

theorem isSelected_before (hnarrow : Narrow filters ⟨text, o⟩)
    (haccepted : ∀ fault : Fault, ¬ fault.Applies ⟨text', before filters o⟩) :
    Request.isSelected ⟨text', before filters o⟩ t = true ↔
      Request.isSelected ⟨text, o⟩ t = true ∧
        ∀ value, .types value ∈ filters → passes (.types value) t = true := by
  by_cases hlist : ∃ value, .types value ∈ filters
  · obtain ⟨value, hmem⟩ := hlist
    obtain ⟨hboth, htypes, hpieces⟩ := hnarrow.list value hmem
    have hvalues := fun v => mem_values_before (v := v) hnarrow hmem
    rw [isSelected_iff_of_list haccepted hvalues hpieces]
    simp only [Request.isSelected_of_not_has hboth htypes, true_and]
    constructor
    · intro hpasses v hv
      rwa [hnarrow.unique v value hv hmem]
    · exact fun h => h value hmem
  · have hvalues := values_before_of_no_list (o := o) (not_exists.mp hlist)
    have hsame : Request.isSelected ⟨text', before filters o⟩ t =
        Request.isSelected ⟨text, o⟩ t := by
      unfold Request.isSelected Request.suppliedTypes Request.list Request.bothDirections
        Request.has
      rw [hvalues, has_before_reverseDomain]
    rw [hsame]
    exact (and_iff_left fun value hmem => absurd ⟨value, hmem⟩ hlist).symm

/-- The filters with a list of types are looked at apart from the others. -/
theorem all_passes_iff : filters.all (·.passes t) = true ↔
    (∀ value, .types value ∈ filters → passes (.types value) t = true) ∧
      ∀ filter ∈ filters, filter.value? = none → filter.passes t = true := by
  rw [List.all_eq_true]
  constructor
  · intro h
    exact ⟨fun value hmem => h _ hmem, fun filter hmem _ => h filter hmem⟩
  · rintro ⟨hlists, hothers⟩ filter hmem
    cases hvalue : filter.value? with
    | none => exact hothers filter hmem hvalue
    | some value =>
      obtain rfl := value?_eq_some.mp hvalue
      exact hlists value hmem

/-- With filters in front, the types searched are those that pass them all. -/
theorem objectTypes_before (hnarrow : Narrow filters ⟨text, o⟩)
    (haccepted : ∀ fault : Fault, ¬ fault.Applies ⟨text', before filters o⟩) :
    Request.objectTypes ⟨text', before filters o⟩ =
      (Request.objectTypes ⟨text, o⟩).filter fun t => filters.all (·.passes t) := by
  have htarget : Request.target ⟨text', before filters o⟩ = Request.target ⟨text, o⟩ := by
    unfold Request.target Request.key Request.bothDirections Request.has
    rw [searchTerm_before, has_before_reverseDomain]
  have hinverse : Request.has ⟨text', before filters o⟩ .inverse = Request.has ⟨text, o⟩ .inverse :=
    has_before_inverse
  unfold Request.objectTypes
  rw [List.filter_filter, htarget, hinverse]
  refine List.filter_congr fun t _ => ?_
  have hselected := isSelected_before (t := t) hnarrow haccepted
  have hallowed : Request.isAllowed ⟨text', before filters o⟩ t = true ↔
      Request.isAllowed ⟨text, o⟩ t = true ∧
        ∀ filter ∈ filters, filter.value? = none → filter.passes t = true := isAllowed_before
  rw [Bool.eq_iff_iff]
  simp only [Bool.and_eq_true, hselected, hallowed, all_passes_iff]
  tauto

end Types

end TypeFilter

namespace Query

variable {raw front : Text} {origin : Origin} {credentials : Option Credentials}
  {q q' : Query} {filters : List TypeFilter}

theorem objectTypes_of_typeFilters (h : resolve raw origin credentials = .ok q)
    (hnarrow : TypeFilter.Narrow filters q.toRequest)
    (hfront : Writes .standard (filters.map TypeFilter.occurrence) (Text.words front))
    (h' : resolve (front ++ " " ++ raw) origin credentials = .ok q') :
    q'.objectTypes = q.objectTypes.filter fun t => filters.all (·.passes t) := by
  obtain ⟨o, hread, hrequest, _⟩ := resolve_eq_ok h
  obtain ⟨o', hread', hrequest', herrors'⟩ := resolve_eq_ok h'
  rw [hrequest'] at herrors'
  have haccepted := Request.not_applies_of_errors_eq_nil hread' herrors'
  obtain rfl := TypeFilter.read_append hfront hread hread'
  rw [hrequest] at hnarrow ⊢
  rw [hrequest']
  exact TypeFilter.objectTypes_before hnarrow haccepted

/-- Filters in front of a query keep those of the types it searches that pass them all. They bring
in no types, and it does not matter in which order they stand. -/
theorem resolve_typeFilters (h : resolve raw origin credentials = .ok q)
    (hnarrow : TypeFilter.Narrow filters q.toRequest)
    (hfront : Writes .standard (filters.map TypeFilter.occurrence) (Text.words front))
    (h' : resolve (front ++ " " ++ raw) origin credentials = .ok q') :
    q'.objectTypes = q.objectTypes.filter (fun t => filters.all (·.passes t)) ∧
      (∀ t ∈ q'.objectTypes, t ∈ q.objectTypes) ∧
      ∀ (filters' : List TypeFilter) (front' : Text) (q'' : Query), filters'.Perm filters →
        Writes .standard (filters'.map TypeFilter.occurrence) (Text.words front') →
        resolve (front' ++ " " ++ raw) origin credentials = .ok q'' →
        q''.objectTypes = q'.objectTypes := by
  have htypes := objectTypes_of_typeFilters h hnarrow hfront h'
  refine ⟨htypes, ?_, ?_⟩
  · intro t ht
    rw [htypes] at ht
    exact List.mem_of_mem_filter ht
  · intro filters' front' q'' hperm hfront' h''
    have htypes' := objectTypes_of_typeFilters h (hnarrow.of_perm hperm) hfront' h''
    rw [htypes', htypes]
    exact List.filter_congr fun t _ => hperm.all_eq

theorem resolve_typeFilters_resource : ∃ q q' q'' : Query,
    (resolve "10.0.0.0/8" .direct none = .ok q ∧
      resolve ("--resource -T inetnum,person" ++ " " ++ "10.0.0.0/8") .direct none = .ok q' ∧
      resolve ("-Tinetnum,person --RESOURCE" ++ " " ++ "10.0.0.0/8") .direct none = .ok q'') ∧
    TypeFilter.Narrow [.resource, .types "inetnum,person"] q.toRequest ∧
    q.objectTypes = [.inetnum, .route] ∧ q'.objectTypes = [.inetnum] ∧
    q''.objectTypes = q'.objectTypes := by
  have h : resolve "10.0.0.0/8" .direct none = .ok _ := rfl
  have h' : resolve ("--resource -T inetnum,person" ++ " " ++ "10.0.0.0/8") .direct none =
      .ok _ := rfl
  have h'' : resolve ("-Tinetnum,person --RESOURCE" ++ " " ++ "10.0.0.0/8") .direct none =
      .ok _ := rfl
  have hvalue : ∀ list value : Text,
      .types value ∈ [TypeFilter.resource, .types list] → value = list := by simp
  have hnarrow : TypeFilter.Narrow [.resource, .types "inetnum,person"]
      ⟨"10.0.0.0/8", Given.none, "10.0.0.0/8"⟩ := by
    refine ⟨fun value hmem => ⟨rfl, rfl, ?_⟩, fun value value' hmem hmem' => ?_⟩
    · rw [hvalue _ value hmem]
      decide
    · exact (hvalue _ value hmem).trans (hvalue _ value' hmem').symm
  have hname : ∀ word : Text, Text.alike word "resource" = true →
      Writes .standard [TypeFilter.resource.occurrence] ['-' :: '-' :: word] := fun word hword =>
    .name (.standard "resource" (by decide) hword) (by decide)
  have hfront : Writes .standard
      ([TypeFilter.resource, .types "inetnum,person"].map TypeFilter.occurrence)
      (Text.words "--resource -T inetnum,person") :=
    .append (hname "resource" (by decide))
      (.letters (.detached (.standard (by decide)) rfl (by decide +kernel)))
  have hfront' : Writes .standard
      ([TypeFilter.types "inetnum,person", .resource].map TypeFilter.occurrence)
      (Text.words "-Tinetnum,person --RESOURCE") :=
    .append (.letters (.attached (.standard (by decide)) (by decide) (by decide)))
      (hname "RESOURCE" (by decide))
  obtain ⟨htypes, _, horder⟩ := resolve_typeFilters h hnarrow hfront h'
  have hsame := horder _ _ _ (.swap _ _ _) hfront' h''
  have hq : Request.objectTypes ⟨"10.0.0.0/8", Given.none, "10.0.0.0/8"⟩ =
      [.inetnum, .route] := by decide +kernel
  refine ⟨_, _, _, ⟨h, h', h''⟩, hnarrow, hq, htypes.trans ?_, hsame⟩
  decide +kernel

end Query

end Whois

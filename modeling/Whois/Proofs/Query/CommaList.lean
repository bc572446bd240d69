import Whois.Proofs.Query.Coherence

/-!
Flags that take comma-separated lists. The pieces of a list are what stands between the commas, so a
value names something as soon as there is anything but commas in it.
-/
namespace Whois

theorem Text.pieces_eq_nil_iff {t : Text} : pieces t = [] ↔ ∀ c ∈ t, c = ',' := by
  unfold pieces
  rw [List.filter_eq_nil_iff]
  constructor
  · intro hempty c hc
    by_contra hne
    obtain ⟨part, hpart, hcpart⟩ := exists_mem_split hc hne
    have hnil : part = [] := by simpa using hempty part hpart
    rw [hnil] at hcpart
    cases hcpart
  · intro hcommas part hpart
    cases part with
    | nil => simp
    | cons c rest =>
      have hcomma : c = ',' := hcommas c (mem_of_mem_split hpart List.mem_cons_self)
      have hnot : (c == ',') = false := not_of_mem_splitWhere hpart c List.mem_cons_self
      simp [hcomma] at hnot

theorem Text.ne_nil_of_mem_pieces {t piece : Text} (h : piece ∈ pieces t) : piece ≠ [] := by
  simpa using (List.mem_filter.mp h).2

namespace Request

/-- Whether there is more than commas in some value of a flag. -/
def Lists (r : Request) (f : Flag) : Prop := ∃ v ∈ r.options.values f, ¬ ∀ c ∈ v, c = ','

/-- The flags that take comma-separated lists. -/
def listFlags : List Flag :=
  [.selectTypes, .inverse, .sources, .filterTagInclude, .filterTagExclude, .client]

/-- What can be relied on in the lists of a request. Nothing is said of attributes and proxies if
there are only commas. -/
structure NamesListed (r : Request) : Prop where
  values : ∀ f ∈ listFlags, r.has f = true → r.options.values f ≠ []
  types : r.suppliedTypes ≠ [] ↔ r.Lists .selectTypes
  sources : r.sources ≠ [] ↔ r.Lists .sources
  tagsIncluded : r.tagsIncluded ≠ [] ↔ r.Lists .filterTagInclude
  tagsExcluded : r.tagsExcluded ≠ [] ↔ r.Lists .filterTagExclude
  attributes : r.Lists .inverse → r.attributeTypes ≠ []
  proxy : ∀ v, r.proxy? = some v → (¬ ∀ c ∈ v, c = ',') →
    ∃ client others, Text.pieces v = client :: others ∧ client ≠ []

variable {r : Request} {f : Flag}

theorem list_ne_nil_iff : r.list f ≠ [] ↔ r.Lists f := by
  constructor
  · intro hne
    obtain ⟨piece, hpiece⟩ := List.exists_mem_of_ne_nil _ hne
    obtain ⟨v, hv, hmem⟩ := mem_list.mp hpiece
    exact ⟨v, hv, fun hcommas => List.ne_nil_of_mem hmem (Text.pieces_eq_nil_iff.mpr hcommas)⟩
  · rintro ⟨v, hv, hmore⟩
    obtain ⟨piece, hpiece⟩ := List.exists_mem_of_ne_nil _ (mt Text.pieces_eq_nil_iff.mp hmore)
    exact List.ne_nil_of_mem (mem_list.mpr ⟨v, hv, hpiece⟩)

theorem sources_ne_nil_iff : r.sources ≠ [] ↔ r.Lists .sources := by
  have hnil : ∀ {names : List Text}, names.eraseDups = [] ↔ names = [] := by
    intro names
    simp only [List.eq_nil_iff_forall_not_mem, List.mem_eraseDups]
  unfold sources
  rw [ne_eq, hnil, List.map_eq_nil_iff]
  exact list_ne_nil_iff

theorem mem_suppliedTypes {t : ObjectType} : t ∈ r.suppliedTypes ↔
    ∃ name ∈ r.list .selectTypes, ObjectType.read name = .ok t := by
  unfold suppliedTypes
  rw [List.mem_filter, List.any_eq_true, and_iff_right t.mem_all]
  refine exists_congr fun name => and_congr_right fun _ => ?_
  unfold namesType
  cases ObjectType.read name <;> simp

theorem mem_attributeTypes {a : AttributeType} : a ∈ r.attributeTypes ↔
    ∃ name ∈ r.list .inverse, a ∈ attributesNamed name := by
  unfold attributeTypes
  rw [List.mem_eraseDups, List.mem_flatMap]

theorem attributesNamed_ne_nil {name : Text} {a : AttributeType}
    (h : AttributeType.read name = .ok a) : attributesNamed name ≠ [] := by
  unfold attributesNamed
  rw [h]
  split
  next => exact List.cons_ne_nil _ _
  next => exact List.cons_ne_nil _ _
  next heq => cases heq

section Accepted
variable (h : ∀ f : Fault, ¬ f.Applies r)
include h

theorem suppliedTypes_ne_nil_iff : r.suppliedTypes ≠ [] ↔ r.Lists .selectTypes := by
  rw [← list_ne_nil_iff]
  constructor
  · intro hne
    obtain ⟨t, ht⟩ := List.exists_mem_of_ne_nil _ hne
    obtain ⟨name, hname, _⟩ := mem_suppliedTypes.mp ht
    exact List.ne_nil_of_mem hname
  · intro hne
    obtain ⟨name, hname⟩ := List.exists_mem_of_ne_nil _ hne
    have hread : ∃ t, ObjectType.read name = .ok t := by
      by_contra hnone
      exact h (.typeName name) ⟨mem_list.mp hname, not_exists.mp hnone⟩
    obtain ⟨t, ht⟩ := hread
    exact List.ne_nil_of_mem (mem_suppliedTypes.mpr ⟨name, hname, ht⟩)

theorem attributeTypes_ne_nil (hlists : r.Lists .inverse) : r.attributeTypes ≠ [] := by
  obtain ⟨name, hname⟩ := List.exists_mem_of_ne_nil _ (list_ne_nil_iff.mpr hlists)
  have hread : ∃ a, AttributeType.read name = .ok a := by
    by_contra hnone
    exact h (.attributeName name) ⟨mem_list.mp hname, not_exists.mp hnone⟩
  obtain ⟨a, ha⟩ := hread
  obtain ⟨b, hb⟩ := List.exists_mem_of_ne_nil _ (attributesNamed_ne_nil ha)
  exact List.ne_nil_of_mem (mem_attributeTypes.mpr ⟨name, hname, hb⟩)

end Accepted

theorem exists_client_of_not_commas {v : Text} (hmore : ¬ ∀ c ∈ v, c = ',') :
    ∃ client others, Text.pieces v = client :: others ∧ client ≠ [] := by
  obtain ⟨client, others, hpieces⟩ :=
    List.exists_cons_of_ne_nil (mt Text.pieces_eq_nil_iff.mp hmore)
  exact ⟨client, others, hpieces, Text.ne_nil_of_mem_pieces (hpieces ▸ List.mem_cons_self)⟩

end Request

theorem Options.values_ne_nil_of_has {query : Text} {o : Options} {f : Flag}
    (h : read query = .ok o) (hf : f ∈ Request.listFlags) (hhas : o.has f = true) :
    o.values f ≠ [] := by
  have harity : f.standardSpec.arity = .required := by
    simp only [Request.listFlags, List.mem_cons, List.not_mem_nil, or_false] at hf
    rcases hf with rfl | rfl | rfl | rfl | rfl | rfl <;> rfl
  obtain ⟨v, hv⟩ := exists_value?_of_has h harity hhas
  exact List.ne_nil_of_mem (mem_values_of_value? hv)

/-- In a query that has passed all checks the lists name something, unless there are only commas in
them. A list of types, sources or tags is empty if there are. -/
theorem Query.resolve_namesListed {raw : Text} {origin : Origin}
    {credentials : Option Credentials} {q : Query} (h : resolve raw origin credentials = .ok q) :
    q.toRequest.NamesListed := by
  obtain ⟨o, hread, hrequest, herrors⟩ := resolve_eq_ok h
  rw [hrequest] at herrors ⊢
  have happlies := Request.not_applies_of_errors_eq_nil hread herrors
  constructor
  case values => exact fun f => Options.values_ne_nil_of_has hread
  case types => exact Request.suppliedTypes_ne_nil_iff happlies
  case sources => exact Request.sources_ne_nil_iff
  case tagsIncluded => exact Request.list_ne_nil_iff
  case tagsExcluded => exact Request.list_ne_nil_iff
  case attributes => exact Request.attributeTypes_ne_nil happlies
  case proxy => exact fun v _ => Request.exists_client_of_not_commas

theorem Query.resolve_namesListed_types :
    ∃ q, resolve "-T ,inetnum, -s , -V ,me 10.0.0.0/8" .direct none = .ok q ∧
      q.toRequest.NamesListed ∧ q.suppliedTypes = [.inetnum] ∧ q.sources = [] := by
  have hq : resolve "-T ,inetnum, -s , -V ,me 10.0.0.0/8" .direct none = .ok _ := rfl
  exact ⟨_, hq, resolve_namesListed hq, by decide +kernel, by decide +kernel⟩

/-- A list of nothing but commas is accepted, and names nothing. -/
theorem Query.resolve_acceptsCommas :
    (∃ q, resolve "-T , 10.0.0.0/8" .direct none = .ok q ∧ q.has .selectTypes = true ∧
      q.suppliedTypes = []) ∧
    ∃ q, resolve "-s , --filter-tag-include , --filter-tag-exclude , word" .direct none = .ok q ∧
      (q.has .sources = true ∧ q.sources = []) ∧
      (q.has .filterTagInclude = true ∧ q.tagsIncluded = []) ∧
      q.has .filterTagExclude = true ∧ q.tagsExcluded = [] :=
  ⟨⟨_, rfl, rfl, rfl⟩, _, rfl, ⟨rfl, rfl⟩, ⟨rfl, rfl⟩, rfl, rfl⟩

end Whois

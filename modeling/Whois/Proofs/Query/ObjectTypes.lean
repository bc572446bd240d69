import Whois.Proofs.NameSyntax
import Whois.Proofs.SearchKey
import Whois.Query.Basic

/-!
The types of objects that a key can find. A key for part of a number space finds no type of another
number space, and none that is found by name, since its text is no name.
-/
namespace Whois

/-- Whether objects of a type may be found with a key of some kind, in one direction or in both. -/
def SearchKind.Admits : (kind : SearchKind) → (bothDirections : Bool) → ObjectType → Prop
  | .ipv4, both, o => o = .inetnum ∨ o = .route ∨ o = .domain ∧ both = true
  | .ipv6, both, o => o = .inet6num ∨ o = .route6 ∨ o = .domain ∧ both = true
  | .asNumber, _, o => o ∉ [ObjectType.inetnum, .inet6num, .route, .route6, .domain]
  | .asRange, _, o => o ∉ [ObjectType.inetnum, .inet6num, .route, .route6, .domain, .autNum]
  | .plain, false, o =>
    o ∉ [ObjectType.inetnum, .inet6num, .route, .route6, .asBlock, .autNum]
  | .plain, true, _ => True

/-- No text of a block, or of a route, is a name. -/
theorem SearchKey.isNoName_of_ipBlock? {t : Text} {b : IpBlock}
    (h : (ofTerm t).ipBlock? = some b) : NameSyntax.IsNoName (ofTerm t).term := by
  change NameSyntax.IsNoName (Text.trim t)
  cases hform : (ofTerm t).form with
  | ip block =>
    rcases SearchForm.readV4?_or_readV6?_of_ofText hform with hv4 | hv6
    · exact NameSyntax.isNoName_of_readV4? hv4
    · exact NameSyntax.isNoName_of_readV6? hv6
  | route block origin =>
    obtain ⟨announced, _, ht, hslash, _, _⟩ :=
      SearchForm.route?_eq_some (SearchForm.route?_of_ofText hform)
    apply NameSyntax.isNoName_of_slash_mem
    rw [ht]
    exact List.mem_append_left _ hslash
  | plain | reverseName | asNumber | asRange => simp [ipBlock?, hform] at h

namespace Target

variable {o : ObjectType} {term : Text} {form : SearchForm} {both : Bool}

theorem canFind_of_canUse {target : Target} {a : AttributeType} (ha : a ∈ o.lookupAttributes)
    (h : target.canUse a = true) : target.canFind o = true := List.any_eq_true.mpr ⟨a, ha, h⟩

open NameSyntax in
/-- With a block for a key nothing is found by name, so there remain address space and routes, and
domains in both directions. -/
theorem admits_of_isNoName {b : IpBlock} (hname : IsNoName term)
    (hform : form = .ip b ∨ ∃ n, form = .route b n)
    (h : canFind ⟨⟨term, form⟩, both⟩ o = true) : (SearchKey.mk term form).kind.Admits both o := by
  obtain ⟨hobject, hmarked, hset, hhandle, hcert, hperson⟩ := hname
  revert h
  -- The mark of every class of sets has the hyphen that a set name would need.
  rcases hform with rfl | ⟨n, rfl⟩ <;> cases b <;> cases o <;>
    simp (disch := decide) [canFind, ObjectType.lookupAttributes, canUse, SearchKind.Admits,
      SearchKey.kind, ipBlock?, reverseBlock?, SearchKey.ipBlock?, SearchKey.reverseBlock?,
      SearchKey.asRange?, IpBlock.isV4, IpBlock.isV6, hobject, hmarked, hset, hhandle, hcert,
      hperson]

/-- With AS numbers for a key no address space is found. -/
theorem admits_of_autonomous
    (hform : (∃ n, form = .asNumber n) ∨ ∃ r, form = .asRange r)
    (h : canFind ⟨⟨term, form⟩, both⟩ o = true) : (SearchKey.mk term form).kind.Admits both o := by
  rcases hform with ⟨n, rfl⟩ | ⟨r, rfl⟩ <;> cases o <;>
    simp_all [canFind, ObjectType.lookupAttributes, canUse, SearchKind.Admits, SearchKey.kind,
      ipBlock?, reverseBlock?, SearchKey.ipBlock?, SearchKey.reverseBlock?]

/-- With a plain key no part of a number space is found, unless it is a reverse-DNS name. -/
theorem admits_of_plain (hform : form = .plain ∨ ∃ b, form = .reverseName b)
    (h : canFind ⟨⟨term, form⟩, both⟩ o = true) : (SearchKey.mk term form).kind.Admits both o := by
  cases both with
  | true => rcases hform with rfl | ⟨b, rfl⟩ <;> trivial
  | false =>
    rcases hform with rfl | ⟨b, rfl⟩ <;> cases o <;>
      simp_all [canFind, ObjectType.lookupAttributes, canUse, SearchKind.Admits, SearchKey.kind,
        ipBlock?, SearchKey.ipBlock?, SearchKey.asRange?]

/-- What a key finds belongs to its number space. -/
theorem admits_of_canFind (t : Text) (h : canFind ⟨.ofTerm t, both⟩ o = true) :
    (SearchKey.ofTerm t).kind.Admits both o := by
  have hname := fun b => SearchKey.isNoName_of_ipBlock? (t := t) (b := b)
  generalize SearchKey.ofTerm t = key at hname h ⊢
  obtain ⟨term, form⟩ := key
  cases form with
  | plain => exact admits_of_plain (.inl rfl) h
  | reverseName b => exact admits_of_plain (.inr ⟨b, rfl⟩) h
  | ip b => exact admits_of_isNoName (hname b rfl) (.inl rfl) h
  | route b n => exact admits_of_isNoName (hname b rfl) (.inr ⟨n, rfl⟩) h
  | asNumber n => exact admits_of_autonomous (.inl ⟨n, rfl⟩) h
  | asRange r => exact admits_of_autonomous (.inr ⟨r, rfl⟩) h

end Target

/-- The types that a query searches do not leave the number space of its key, unless the query is
inverse. -/
theorem Request.admits_of_mem_objectTypes (r : Request) (h : r.has .inverse = false)
    {o : ObjectType} (ho : o ∈ r.objectTypes) : r.key.kind.Admits r.bothDirections o := by
  obtain ⟨_, hfound⟩ := List.mem_filter.mp ho
  rw [Bool.and_eq_true, h, Bool.false_or] at hfound
  exact Target.admits_of_canFind _ hfound.2

theorem Request.admits_of_mem_objectTypes_bothDirections :
    let r : Request := ⟨"-d 10.0.0.0/8", ⟨Given.none.set .reverseDomain [], "10.0.0.0/8"⟩⟩
    Query.resolve "-d 10.0.0.0/8" .direct none = .ok ⟨r, .direct, none⟩ ∧ r.key.kind = .ipv4 ∧
      r.has .inverse = false ∧ ObjectType.domain ∈ r.objectTypes ∧
      r.key.kind.Admits r.bothDirections .domain := by
  intro r
  have hdomain : ObjectType.domain ∈ r.objectTypes := by decide +kernel
  exact ⟨rfl, rfl, rfl, hdomain, admits_of_mem_objectTypes r rfl hdomain⟩

end Whois

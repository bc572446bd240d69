import Whois.Proofs.Query.ObjectTypes
import Whois.Proofs.Query.Outcome

/-!
Queries that search nothing. With no flag that narrows the types down, some type is searched exactly
if the key is part of a number space, a reverse-DNS name, or in writing the name of an object.
-/
namespace Whois

namespace NameSyntax

/-- The marks of the classes of sets. -/
def setMarks : List Text := ["AS-", "RS-", "FLTR-", "PRNG-", "RTRS-"]

/-- Whether a text has the syntax of some name by which objects are found. -/
inductive IsName (t : Text) : Prop
  | domain (h : isDomainName t = true)
  | object (h : isObjectName t = true)
  | set {mark : Text} (hmark : mark ∈ setMarks) (h : isSetName mark t = true)
  | nicHandle (h : isNicHandle t = true)
  | keyCert (h : isKeyCert t = true)
  | person (h : isPersonName t = true)

/-- A name with the mark of its class is the name of an object. -/
theorem IsName.marked {mark t : Text} (h : isMarkedName mark t = true) : IsName t :=
  .object (Bool.and_eq_true_iff.mp h).2

end NameSyntax

namespace Target

open NameSyntax

variable {key : SearchKey} {term : Text} {o : ObjectType}

/-- By a plain term objects are found only if it is a name. -/
theorem isName_of_canFind (h : canFind ⟨⟨term, .plain⟩, false⟩ o = true) : IsName term := by
  cases o <;> simp [canFind, ObjectType.lookupAttributes, canUse, ipBlock?, reverseBlock?,
    SearchKey.kind, SearchKey.ipBlock?, SearchKey.reverseBlock?, SearchKey.asRange?] at h
  case asSet | routeSet | filterSet | peeringSet | rtrSet => exact .set (by decide) h
  case inetRtr | domain => exact .domain h
  case poeticForm | poem | irt | organisation => exact .marked h
  case mntner => exact .object h
  case keyCert => exact .keyCert h
  case role | person => exact h.elim .person .nicHandle

/-- By a block of number space the objects that stand for such blocks are found. -/
theorem exists_canFind_of_resource? (h : key.resource?.isSome = true) :
    ∃ o, canFind ⟨key, false⟩ o = true := by
  obtain ⟨term, form⟩ := key
  cases form with
  | ip block | route block _ =>
    cases block with
    | v4 _ => exact ⟨.inetnum, rfl⟩
    | v6 _ => exact ⟨.inet6num, rfl⟩
  | asNumber _ | asRange _ => exact ⟨.asBlock, rfl⟩
  | plain | reverseName _ => simp [SearchKey.resource?, SearchKey.ipBlock?, SearchKey.asRange?] at h

theorem canFind_domain_of_reverseBlock? (h : key.reverseBlock?.isSome = true) :
    canFind ⟨key, false⟩ .domain = true := by
  apply canFind_of_canUse (a := .domain) (by decide)
  simp [canUse, reverseBlock?, h]

theorem exists_canFind_of_isName (h : IsName key.term) : ∃ o, canFind ⟨key, false⟩ o = true := by
  cases h with
  | domain h =>
    -- A domain name is looked up as one unless it is part of a number space.
    obtain ⟨term, form⟩ := key
    cases form with
    | plain | reverseName _ => exact ⟨.inetRtr, canFind_of_canUse (a := .inetRtr) (by decide) h⟩
    | ip _ | route _ _ | asNumber _ | asRange _ => exact exists_canFind_of_resource? rfl
  | object h => exact ⟨.mntner, canFind_of_canUse (a := .mntner) (by decide) h⟩
  | set hmark h =>
    simp only [setMarks, List.mem_cons, List.not_mem_nil, or_false] at hmark
    rcases hmark with rfl | rfl | rfl | rfl | rfl
    · exact ⟨.asSet, canFind_of_canUse (a := .asSet) (by decide) h⟩
    · exact ⟨.routeSet, canFind_of_canUse (a := .routeSet) (by decide) h⟩
    · exact ⟨.filterSet, canFind_of_canUse (a := .filterSet) (by decide) h⟩
    · exact ⟨.peeringSet, canFind_of_canUse (a := .peeringSet) (by decide) h⟩
    · exact ⟨.rtrSet, canFind_of_canUse (a := .rtrSet) (by decide) h⟩
  | nicHandle h => exact ⟨.person, canFind_of_canUse (a := .nicHdl) (by decide) h⟩
  | keyCert h => exact ⟨.keyCert, canFind_of_canUse (a := .keyCert) (by decide) h⟩
  | person h => exact ⟨.person, canFind_of_canUse (a := .person) (by decide) h⟩

/-- Some type can be found by a key that is part of a number space, a reverse-DNS name or a name. -/
theorem exists_canFind_iff : (∃ o, canFind ⟨key, false⟩ o = true) ↔
    key.resource?.isSome = true ∨ key.reverseBlock?.isSome = true ∨ IsName key.term := by
  constructor
  · rintro ⟨o, h⟩
    obtain ⟨term, form⟩ := key
    cases form with
    | plain => exact .inr (.inr (isName_of_canFind h))
    | reverseName block => exact .inr (.inl rfl)
    | ip block | route block _ | asNumber _ | asRange _ => exact .inl rfl
  · rintro (h | h | h)
    · exact exists_canFind_of_resource? h
    · exact ⟨.domain, canFind_domain_of_reverseBlock? h⟩
    · exact exists_canFind_of_isName h

end Target

namespace Request

variable {r : Request} {t : ObjectType}

/-- The flags that narrow the types down, or search them in another way. -/
def narrowing : List Flag :=
  [.selectTypes, .reverseDomain, .inverse, .abuseContact, .resource, .noPersonal]

/-- Without such flags all types are searched that the key can find. -/
theorem mem_objectTypes_of_not_narrowing (h : ∀ f ∈ narrowing, r.has f = false) :
    t ∈ r.objectTypes ↔ Target.canFind ⟨r.key, false⟩ t = true := by
  simp only [narrowing, List.forall_mem_cons] at h
  obtain ⟨htypes, hboth, hinverse, habuse, hresource, hpersonal, _⟩ := h
  have hselected : r.isSelected t = true := isSelected_of_not_has hboth htypes
  have hallowed : r.isAllowed t = true := by simp [isAllowed, habuse, hresource, hpersonal]
  have htarget : r.target = ⟨r.key, false⟩ := congrArg (Target.mk r.key) hboth
  rw [mem_objectTypes, hselected, hallowed, hinverse, htarget]
  simp

/-- With no flag that narrows the types down, a query searches nothing only if objects cannot be found
by its key at all. -/
theorem objectTypes_ne_nil_iff (h : ∀ f ∈ narrowing, r.has f = false) :
    r.objectTypes ≠ [] ↔ r.key.resource?.isSome = true ∨ r.key.reverseBlock?.isSome = true ∨
      NameSyntax.IsName r.key.term := by
  rw [← Target.exists_canFind_iff, ne_eq, List.eq_nil_iff_forall_not_mem]
  simp only [mem_objectTypes_of_not_narrowing h, not_forall, not_not]

theorem objectTypes_ne_nil_iff_setName :
    let r : Request := ⟨"as3333:as-x", ⟨Given.none, "as3333:as-x"⟩⟩
    Query.resolve "as3333:as-x" .direct none = .ok ⟨r, .direct, none⟩ ∧
      (∀ f ∈ narrowing, r.has f = false) ∧ NameSyntax.IsName r.key.term ∧ r.objectTypes ≠ [] := by
  intro r
  have hflags : ∀ f ∈ narrowing, r.has f = false := fun _ _ => rfl
  have hname : NameSyntax.IsName r.key.term :=
    .set (by decide : ("AS-" : Text) ∈ NameSyntax.setMarks) (by decide +kernel)
  exact ⟨rfl, hflags, hname, (objectTypes_ne_nil_iff hflags).mpr (.inr (.inr hname))⟩

/-- A term that starts with a digit need not be a name, and then nothing is searched. -/
theorem objectTypes_eq_nil_leadingDigit : ∃ q : Query,
    Query.resolve "1abc" .direct none = .ok q ∧ q.key.term ≠ [] ∧
      (∀ f ∈ narrowing, q.has f = false) ∧ q.objectTypes = [] := by
  refine ⟨⟨⟨"1abc", ⟨Given.none, "1abc"⟩⟩, .direct, none⟩, rfl, by decide, fun _ _ => rfl, ?_⟩
  decide +kernel

end Request

end Whois

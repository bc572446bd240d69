import Whois.Proofs.Query.Rejection

/-!
Queries that search for the same. The checks look at the flags, at what is searched and at whether
there is a search term, and at nothing else of a query.
-/
namespace Whois

namespace Request

/-- Whether two requests search the same numbers in the same way, for objects of the same types. -/
structure SearchesAlike (r r' : Request) : Prop where
  ipBlock : r.target.ipBlock? = r'.target.ipBlock?
  reverseBlock : r.target.reverseBlock? = r'.target.reverseBlock?
  resource : r.target.resource? = r'.target.resource?
  operation : r.operation? = r'.operation?
  effectiveOperation : r.effectiveOperation? = r'.effectiveOperation?
  objectTypes : r.objectTypes = r'.objectTypes

variable {r r' : Request}

theorem mem_objectTypes {o : ObjectType} : o ∈ r.objectTypes ↔
    (r.isSelected o = true ∧ r.isAllowed o = true) ∧
      (r.has .inverse = true ∨ r.target.canFind o = true) := by
  unfold objectTypes
  rw [List.mem_filter, Bool.and_eq_true, Bool.and_eq_true, Bool.or_eq_true]
  exact and_iff_right o.mem_all

/-- Requests with the same flags search alike if they search the same blocks, and their keys find
the types that are asked for alike. -/
theorem searchesAlike_of_given (hgiven : r.options.given = r'.options.given)
    (hip : r.target.ipBlock? = r'.target.ipBlock?)
    (hreverse : r.target.reverseBlock? = r'.target.reverseBlock?)
    (hresource : r.target.resource? = r'.target.resource?)
    (hfind : ∀ o, r.isSelected o = true → r.target.canFind o = r'.target.canFind o) :
    r.SearchesAlike r' := by
  obtain ⟨text, given, term⟩ := r
  obtain ⟨text', given', term'⟩ := r'
  obtain rfl : given = given' := hgiven
  have htypes : ∀ o ∈ ObjectType.all,
      (isSelected ⟨text, given, term⟩ o && isAllowed ⟨text, given, term⟩ o &&
        (has ⟨text, given, term⟩ .inverse || (target ⟨text, given, term⟩).canFind o)) =
      (isSelected ⟨text', given, term'⟩ o && isAllowed ⟨text', given, term'⟩ o &&
        (has ⟨text', given, term'⟩ .inverse || (target ⟨text', given, term'⟩).canFind o)) := by
    intro o _
    have hselected : isSelected ⟨text, given, term⟩ o = isSelected ⟨text', given, term'⟩ o := rfl
    rw [← hselected]
    cases hcase : isSelected ⟨text, given, term⟩ o with
    | false => simp only [Bool.false_and]
    | true =>
      rw [hfind o hcase]
      rfl
  constructor
  case ipBlock => exact hip
  case reverseBlock => exact hreverse
  case resource => exact hresource
  case operation => rfl
  case effectiveOperation =>
    unfold effectiveOperation?
    rw [hresource]
    rfl
  case objectTypes => exact List.filter_congr htypes

/-- Requests with the same flags that search the same numbers have the same issues, unless only one
of them has a search term, or finds any type with an abuse contact. -/
theorem issues_of_given (hgiven : r.options.given = r'.options.given)
    (hip : r.target.ipBlock? = r'.target.ipBlock?)
    (hresource : r.target.resource? = r'.target.resource?)
    (habuse : r.has .abuseContact = true → (r.objectTypes = [] ↔ r'.objectTypes = []))
    (hempty : r.key.isEmpty = r'.key.isEmpty) : r.issues = r'.issues := by
  obtain ⟨text, given, term⟩ := r
  obtain ⟨text', given', term'⟩ := r'
  obtain rfl : given = given' := hgiven
  let q : Query := .build ⟨text, given, term⟩ .direct
  let q' : Query := .build ⟨text', given, term'⟩ .direct
  have hoperation : q.operationIssues = q'.operationIssues := by
    have hip : q.target.ipBlock? = q'.target.ipBlock? := hip
    have hresource : q.target.resource? = q'.target.resource? := hresource
    unfold Query.operationIssues isWholeSpaceLookup
    rw [hip, hresource]
    rfl
  have hcontact : q.abuseContactIssues = q'.abuseContactIssues := by
    have hhas : q'.has .abuseContact = q.has .abuseContact := rfl
    have htypes : q.has .abuseContact = true → (q.objectTypes = [] ↔ q'.objectTypes = []) := habuse
    unfold Query.abuseContactIssues
    rw [hhas]
    cases hcase : q.has .abuseContact with
    | false => rfl
    | true => simp only [Bool.true_and, List.isEmpty_iff, htypes hcase]
  have hkey : q.keyIssues = q'.keyIssues := by
    have hempty : q.key.isEmpty = q'.key.isEmpty := hempty
    unfold Query.keyIssues needsKey isOnlyKeepAlive
    rw [hempty]
    rfl
  -- No other check looks at the search term.
  show q.issues = q'.issues
  unfold Query.issues Query.checks
  simp only [List.flatMap_cons, List.flatMap_nil, hoperation, hcontact, hkey]
  rfl

/-- Requests with the same flags that search alike have the same issues, unless only one of them has
a search term. -/
theorem issues_of_searchesAlike (hgiven : r.options.given = r'.options.given)
    (hsearch : r.SearchesAlike r') (hempty : r.key.isEmpty = r'.key.isEmpty) :
    r.issues = r'.issues :=
  issues_of_given hgiven hsearch.ipBlock hsearch.resource (fun _ => by rw [hsearch.objectTypes])
    hempty

end Request

namespace Query

/-- Whether two outcomes are refusals for the same reasons, or both are queries that are related. -/
inductive SameOutcome (P : Request → Request → Prop) :
    (outcome outcome' : Except Rejection Query) → Prop
  | accepted {q q' : Query} (h : P q.toRequest q'.toRequest) : SameOutcome P (.ok q) (.ok q')
  | refused (e : Rejection) : SameOutcome P (.error e) (.error e)

variable {P : Request → Request → Prop} {raw raw' : Text}

theorem SameOutcome.eq_of_refused {e e' : Rejection} (h : SameOutcome P (.error e) (.error e')) :
    e = e' := by
  cases h
  rfl

/-- Queries whose flags read the same have the same outcome if they have the same issues. -/
theorem sameOutcome_of_read {x : Except OptionFault Options} {f f' : Options → Options}
    (hraw : Options.read raw = x.map f) (hraw' : Options.read raw' = x.map f')
    (hissues : ∀ o, x = .ok o →
      Request.issues ⟨Text.trim raw, f o⟩ = Request.issues ⟨Text.trim raw', f' o⟩ ∧
        P ⟨Text.trim raw, f o⟩ ⟨Text.trim raw', f' o⟩)
    (origin : Origin) (credentials : Option Credentials) :
    SameOutcome P (resolve raw origin credentials) (resolve raw' origin credentials) := by
  cases x with
  | error fault =>
    rw [resolve_of_fault hraw, resolve_of_fault hraw']
    exact .refused _
  | ok o =>
    obtain ⟨hsame, hP⟩ := hissues o rfl
    unfold resolve
    rw [resolution_of_read hraw, resolution_of_read hraw']
    unfold Request.errors
    rw [hsame]
    cases (Request.issues ⟨Text.trim raw', f' o⟩).filter Issue.isError with
    | nil => exact .accepted hP
    | cons first others => exact .refused _

end Query

end Whois

import Whois.Proofs.NameSyntax
import Whois.Proofs.Options.Following
import Whois.Proofs.Query.Outcome

/-!
The case of the letters in a search term. Terms that are equal but for case are looked up alike, so
a query has the same outcome with either.
-/
namespace Whois

namespace SearchKey

variable {s t : Text}

/-- The key with its term in lower case. -/
def lower (key : SearchKey) : SearchKey := ⟨Text.lower key.term, key.form⟩

/-- Terms that are equal but for case make keys that are equal but for case. -/
theorem lower_ofTerm_of_alike (h : Text.alike s t = true) :
    (ofTerm s).lower = (ofTerm t).lower := by
  unfold lower
  rw [← ofTerm_lower, ← ofTerm_lower, Text.lower_eq_of_alike h]

/-- What does not depend on the case of a key is the same for keys that are equal but for case. -/
theorem eq_of_lower {α : Type} {f : SearchKey → α} (hf : ∀ key, f key.lower = f key)
    {key key' : SearchKey} (h : key.lower = key'.lower) : f key = f key' := by
  rw [← hf, h, hf]

theorem isEmpty_lower (key : SearchKey) : key.lower.isEmpty = key.isEmpty :=
  Text.isEmpty_lower key.term

end SearchKey

namespace Target

open NameSyntax in
theorem canUse_lower (key : SearchKey) (both : Bool) (a : AttributeType) :
    canUse ⟨key.lower, both⟩ a = canUse ⟨key, both⟩ a := by
  have hip : ipBlock? ⟨key.lower, both⟩ = ipBlock? ⟨key, both⟩ := rfl
  have hreverse : reverseBlock? ⟨key.lower, both⟩ = reverseBlock? ⟨key, both⟩ := rfl
  have hkind : key.lower.kind = key.kind := rfl
  have hrange : key.lower.asRange? = key.asRange? := rfl
  have hterm : key.lower.term = Text.lower key.term := rfl
  unfold canUse
  simp only [hip, hreverse, hkind, hrange, hterm, isDomainName_lower, isSetName_lower,
    isMarkedName_lower, isKeyCert_lower, isObjectName_lower, isNicHandle_lower, isPersonName_lower,
    Text.isEmpty_lower]

theorem canFind_lower (key : SearchKey) (both : Bool) (o : ObjectType) :
    canFind ⟨key.lower, both⟩ o = canFind ⟨key, both⟩ o := by
  unfold canFind
  rw [funext (canUse_lower key both)]

theorem canFindBy_lower (key : SearchKey) (both : Bool) (o : ObjectType) (a : AttributeType) :
    canFindBy ⟨key.lower, both⟩ o a = canFindBy ⟨key, both⟩ o a := by
  unfold canFindBy
  rw [canUse_lower]

end Target

/-- With the same flags, terms that are equal but for case search alike. -/
theorem Request.searchesAlike_of_alike {text text' term term' : Text} {given : Given}
    (h : Text.alike term term' = true) :
    SearchesAlike ⟨text, given, term⟩ ⟨text', given, term'⟩ := by
  have hlower := SearchKey.lower_ofTerm_of_alike h
  refine searchesAlike_of_given rfl ?_ ?_ ?_ ?_
  · exact SearchKey.eq_of_lower (f := fun key => Target.ipBlock? ⟨key, _⟩) (fun _ => rfl) hlower
  · exact SearchKey.eq_of_lower (f := fun key => Target.reverseBlock? ⟨key, _⟩) (fun _ => rfl) hlower
  · exact SearchKey.eq_of_lower (f := fun key => Target.resource? ⟨key, _⟩) (fun _ => rfl) hlower
  · intro o _
    exact SearchKey.eq_of_lower (f := fun key => Target.canFind ⟨key, _⟩ o)
      (fun key => Target.canFind_lower key _ o) hlower

/-- Search terms that are equal but for case are classified alike, and behind any flags and the
terminator they make queries with the same outcome, which search for the same through the same
attributes. -/
theorem Query.resolve_alike {s t : Text} (h : Text.alike s t = true) :
    ((SearchKey.ofTerm s).kind = (SearchKey.ofTerm t).kind ∧
      (SearchKey.ofTerm s).resource? = (SearchKey.ofTerm t).resource? ∧
      (SearchKey.ofTerm s).reverseBlock? = (SearchKey.ofTerm t).reverseBlock? ∧
      (SearchKey.ofTerm s).origin? = (SearchKey.ofTerm t).origin?) ∧
    ∀ (flags : Text) (origin : Origin) (credentials : Option Credentials),
      SameOutcome
        (fun r r' => r.SearchesAlike r' ∧ ∀ o a, r.target.canFindBy o a = r'.target.canFindBy o a)
        (resolve (flags ++ " -- " ++ s) origin credentials)
        (resolve (flags ++ " -- " ++ t) origin credentials) := by
  have hlower := SearchKey.lower_ofTerm_of_alike h
  constructor
  · exact ⟨SearchKey.eq_of_lower (fun _ => rfl) hlower, SearchKey.eq_of_lower (fun _ => rfl) hlower,
      SearchKey.eq_of_lower (fun _ => rfl) hlower, SearchKey.eq_of_lower (fun _ => rfl) hlower⟩
  intro flags origin credentials
  obtain ⟨hlength, hjoin⟩ := Text.words_of_alike h
  obtain ⟨x, hread⟩ := Options.exists_read_terminator flags (Text.words t).length
  apply sameOutcome_of_read (hread s hlength) (hread t rfl)
  intro o _
  have hterm : Text.alike (o.withWords (Text.words s)).searchTerm
      (o.withWords (Text.words t)).searchTerm = true := by
    unfold Text.alike Options.withWords
    rw [beq_iff_eq, Text.lower_joinNonempty, Text.lower_joinNonempty, hjoin]
  have hkeys := SearchKey.lower_ofTerm_of_alike hterm
  have hsearch : Request.SearchesAlike
      ⟨Text.trim (flags ++ " -- " ++ s), o.withWords (Text.words s)⟩
      ⟨Text.trim (flags ++ " -- " ++ t), o.withWords (Text.words t)⟩ :=
    Request.searchesAlike_of_alike hterm
  have hempty := SearchKey.eq_of_lower SearchKey.isEmpty_lower hkeys
  refine ⟨Request.issues_of_searchesAlike rfl hsearch hempty, hsearch, ?_⟩
  intro o' a
  exact SearchKey.eq_of_lower (f := fun key => Target.canFindBy ⟨key, _⟩ o' a)
    (fun key => Target.canFindBy_lower key _ o' a) hkeys

theorem Query.resolve_alike_setName :
    Text.alike "as-Test" "AS-TEST" = true ∧
      SameOutcome
        (fun r r' => r.SearchesAlike r' ∧ ∀ o a, r.target.canFindBy o a = r'.target.canFindBy o a)
        (resolve ("-T as-set" ++ " -- " ++ "as-Test") .direct none)
        (resolve ("-T as-set" ++ " -- " ++ "AS-TEST") .direct none) :=
  have halike : Text.alike "as-Test" "AS-TEST" = true := by decide
  ⟨halike, (resolve_alike halike).2 "-T as-set" .direct none⟩

end Whois

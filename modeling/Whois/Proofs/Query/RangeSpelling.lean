import Whois.Proofs.Options.Following
import Whois.Proofs.Query.Outcome
import Whois.Proofs.RangeName
import Whois.Proofs.SearchKey

/-!
Ranges of AS numbers as search terms, with and without blanks around the hyphen. Both are looked up
as the same range, and are refused for the same reasons. Without blanks the text is a name besides,
so that maintainers and contacts can be found with it too.
-/
namespace Whois

namespace SearchKey

variable (range : AsRange)

theorem ofTerm_renderCompact :
    ofTerm range.renderCompact = ⟨range.renderCompact, .asRange range⟩ := by
  have hform : SearchForm.ofText range.renderCompact = .asRange range := by
    apply SearchForm.ofText_of_form? (r := .asRange)
    simp [Recogniser.form?, AsRange.read_renderCompact, Except.toOption]
  unfold ofTerm
  dsimp only
  rw [Text.trim_of_forall_not range.isWord_renderCompact.2, hform]

theorem ofTerm_render_asRange : ofTerm range.render = ⟨range.render, .asRange range⟩ := by
  have hform : SearchForm.ofText range.render = .asRange range := by
    apply SearchForm.ofText_of_form? (r := .asRange)
    simp [Recogniser.form?, AsRange.read_render, Except.toOption]
  have htrim : Text.trim range.render = range.render := by
    rw [← range.join_words_render]
    exact Text.trim_join fun _ => Text.isWord_of_mem_words
  unfold ofTerm
  dsimp only
  rw [htrim, hform]

end SearchKey

/-- Behind flags, the words of a range in either writing are search words. -/
theorem Options.read_range {flags : Text} (range : AsRange)
    (hawaits : Scan.awaitsValue .standard (Text.words flags) = false)
    (hlength : (Text.words flags).length + 3 ≤ maxElements) :
    read (flags ++ " " ++ range.renderCompact) =
        (read flags).map (fun o => o.withWords [range.renderCompact]) ∧
      read (flags ++ " " ++ range.render) =
        (read flags).map fun o => o.withWords (Text.words range.render) := by
  have hwords : Text.words range.renderCompact = [range.renderCompact] :=
    Text.words_of_isWord range.isWord_renderCompact
  constructor
  · rw [← hwords]
    apply read_append_words hawaits
    · rw [hwords, List.length_singleton]
      omega
    · rw [hwords]
      have hhead : range.renderCompact.head? = some 'A' := rfl
      exact List.forall_mem_singleton.mpr (Registry.readToken_of_head?_ne (by simp [hhead]))
  · apply read_append_words hawaits
    · rw [range.words_render]
      exact hlength
    · intro w hw
      apply Registry.readToken_of_word
      rw [range.words_render] at hw
      simp only [List.mem_cons, List.not_mem_nil, or_false] at hw
      rcases hw with rfl | rfl | rfl
      · exact .inl (AsNumber.isPlainWord_render range.lo)
      · exact .inr rfl
      · exact .inl (AsNumber.isPlainWord_render range.hi)

namespace Request

/-- Whether two requests search a range of AS numbers in the same way, the first also for objects
with the range for their name. -/
structure SearchRange (range : AsRange) (r r' : Request) : Prop where
  kind : r.key.kind = .asRange ∧ r'.key.kind = .asRange
  resource : r.target.resource? = some (.asn range) ∧ r'.target.resource? = some (.asn range)
  ipBlock : r.target.ipBlock? = none ∧ r'.target.ipBlock? = none
  operation : r.operation? = r'.operation?
  effectiveOperation : r.effectiveOperation? = r'.effectiveOperation?
  objectTypes : ∀ o, o ∈ r.objectTypes ↔ o ∈ r'.objectTypes ∨
    (r.has .inverse = false ∧ range.MayName o ∧ r.isSelected o = true ∧ r.isAllowed o = true)

variable {range : AsRange} {text text' : Text} {given : Given}

theorem target_of_ofTerm (text : Text) (given : Given) {term : Text} {form : SearchForm}
    (h : SearchKey.ofTerm term = ⟨term, form⟩) :
    target ⟨text, given, term⟩ = ⟨⟨term, form⟩, (given .reverseDomain).isSome⟩ := by
  rw [← h]
  rfl

theorem searchRange_of_given :
    SearchRange range ⟨text, given, range.renderCompact⟩ ⟨text', given, range.render⟩ := by
  have hcompact := SearchKey.ofTerm_renderCompact range
  have hrender := SearchKey.ofTerm_render_asRange range
  have htarget := target_of_ofTerm text given hcompact
  have htarget' := target_of_ofTerm text' given hrender
  constructor
  case kind =>
    unfold key
    rw [hcompact, hrender]
    exact ⟨rfl, rfl⟩
  case resource =>
    rw [htarget, htarget']
    exact ⟨rfl, rfl⟩
  case ipBlock =>
    rw [htarget, htarget']
    cases (given .reverseDomain).isSome <;> exact ⟨rfl, rfl⟩
  case operation => rfl
  case effectiveOperation =>
    unfold effectiveOperation?
    rw [htarget, htarget']
    rfl
  case objectTypes =>
    intro o
    have hselected : isSelected ⟨text', given, range.render⟩ o =
        isSelected ⟨text, given, range.renderCompact⟩ o := rfl
    have hallowed : isAllowed ⟨text', given, range.render⟩ o =
        isAllowed ⟨text, given, range.renderCompact⟩ o := rfl
    have hinverse : has ⟨text', given, range.render⟩ .inverse =
        has ⟨text, given, range.renderCompact⟩ .inverse := rfl
    rw [mem_objectTypes, mem_objectTypes, htarget, htarget', Target.canFind_renderCompact,
      Target.canFind_render, hselected, hallowed, hinverse]
    cases has ⟨text, given, range.renderCompact⟩ .inverse with
    | true => simp
    | false =>
      simp only [Bool.false_eq_true, false_or, true_and]
      tauto

/-- No object with an abuse contact has a range for its name. -/
theorem objectTypes_eq_nil_iff_of_searchRange {r r' : Request} (h : SearchRange range r r')
    (habuse : r.has .abuseContact = true) : r.objectTypes = [] ↔ r'.objectTypes = [] := by
  have hnone : ∀ o, range.MayName o → r.isAllowed o = true → False := by
    intro o hname hallowed
    unfold isAllowed at hallowed
    rw [habuse] at hallowed
    cases o <;> simp_all [AsRange.MayName, ObjectType.withAbuseContact]
  have hmem : ∀ o, o ∈ r.objectTypes ↔ o ∈ r'.objectTypes := by
    intro o
    rw [h.objectTypes]
    constructor
    · rintro (ho | ⟨_, hname, _, hallowed⟩)
      · exact ho
      · exact (hnone o hname hallowed).elim
    · exact .inl
  simp only [List.eq_nil_iff_forall_not_mem, hmem]

end Request

/-- Behind flags, a range with blanks around its hyphen and one without them have the same outcome,
but for the types that may be named so. The last flag must not take the range for its value. -/
theorem Query.resolve_range {flags : Text} (range : AsRange)
    (hflags : ∀ o, Options.read flags = .ok o → o.searchTerm = [])
    (hawaits : Scan.awaitsValue .standard (Text.words flags) = false)
    (hlength : (Text.words flags).length + 3 ≤ maxElements)
    (origin : Origin) (credentials : Option Credentials) :
    SameOutcome (Request.SearchRange range)
      (resolve (flags ++ " " ++ range.renderCompact) origin credentials)
      (resolve (flags ++ " " ++ range.render) origin credentials) := by
  obtain ⟨hreadCompact, hread⟩ := Options.read_range range hawaits hlength
  apply sameOutcome_of_read hreadCompact hread
  intro o ho
  have hterm := hflags o ho
  rw [Options.withWords_of_searchTerm hterm, Options.withWords_of_searchTerm hterm,
    range.join_words_render, Text.join_singleton]
  have hsearch : Request.SearchRange range
      ⟨Text.trim (flags ++ " " ++ range.renderCompact), o.given, range.renderCompact⟩
      ⟨Text.trim (flags ++ " " ++ range.render), o.given, range.render⟩ :=
    Request.searchRange_of_given
  have hempty : (SearchKey.ofTerm range.renderCompact).isEmpty =
      (SearchKey.ofTerm range.render).isEmpty := by
    rw [SearchKey.ofTerm_renderCompact, SearchKey.ofTerm_render_asRange]
    rfl
  refine ⟨Request.issues_of_given rfl ?_ ?_ ?_ hempty, hsearch⟩
  · rw [hsearch.ipBlock.1, hsearch.ipBlock.2]
  · rw [hsearch.resource.1, hsearch.resource.2]
  · exact Request.objectTypes_eq_nil_iff_of_searchRange hsearch

theorem Query.resolve_range_mntner :
    ∃ range : AsRange, range.renderCompact = "AS1-AS5" ∧ range.render = "AS1 - AS5" ∧
      (∀ o, Options.read "-T as-block,mntner -m" = .ok o → o.searchTerm = []) ∧
      Scan.awaitsValue .standard (Text.words "-T as-block,mntner -m") = false ∧
      (Text.words "-T as-block,mntner -m").length + 3 ≤ maxElements ∧
      SameOutcome (Request.SearchRange range)
        (resolve ("-T as-block,mntner -m" ++ " " ++ range.renderCompact) .direct none)
        (resolve ("-T as-block,mntner -m" ++ " " ++ range.render) .direct none) := by
  have hread : Options.read "-T as-block,mntner -m" =
      .ok ⟨(Given.none.set .selectTypes ["as-block,mntner"]).set .oneMore [], []⟩ := rfl
  have hflags : ∀ o, Options.read "-T as-block,mntner -m" = .ok o → o.searchTerm = [] := by
    intro o ho
    cases hread.symm.trans ho
    rfl
  have hawaits : Scan.awaitsValue .standard (Text.words "-T as-block,mntner -m") = false := by
    decide
  have hlength : (Text.words "-T as-block,mntner -m").length + 3 ≤ maxElements := by decide
  refine ⟨⟨1, 5, by decide⟩, rfl, rfl, hflags, hawaits, hlength, ?_⟩
  exact resolve_range ⟨1, 5, by decide⟩ hflags hawaits hlength .direct none

/-- Without blanks a range also finds maintainers and contacts. A flag that takes the next token as
its value takes the whole of it. -/
theorem Query.resolve_range_findsNames :
    (∃ q q', resolve "AS1-AS5" .direct none = .ok q ∧
      q.objectTypes = [.asBlock, .mntner, .role, .person] ∧
      resolve "AS1 - AS5" .direct none = .ok q' ∧ q'.objectTypes = [.asBlock] ∧
      q.objectTypes ≠ q'.objectTypes) ∧
    resolve "-T AS1-AS5" .direct none =
      .error ⟨.unknownObjectType "AS1-AS5", [.noSearchKey]⟩ ∧
    resolve "-T AS1 - AS5" .direct none = .error ⟨.unknownObjectType "AS1", []⟩ := by
  refine ⟨⟨_, _, rfl, by decide +kernel, rfl, by decide +kernel, by decide +kernel⟩, ?_, ?_⟩
  · rfl
  · rfl

end Whois

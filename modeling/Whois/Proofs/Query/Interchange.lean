import Whois.Proofs.CanonicalForm
import Whois.Proofs.Options.Following
import Whois.Proofs.Query.Outcome
import Whois.Proofs.SearchKey

/-!
Reverse-DNS names as search terms. In a lookup in both directions a name and the block that it
delegates find the same, and are refused for the same reasons.
-/
namespace Whois

/-- A reverse-DNS name is looked up as it stands. -/
theorem SearchKey.ofTerm_reverseName {name : Text} {b : IpBlock}
    (h : ReverseName.block? name = some b) : ofTerm name = ⟨name, .reverseName b⟩ := by
  have htrim : Text.trim name = name :=
    Text.trim_of_forall_not (ReverseName.isWord_of_block? h).1.2
  have hform : SearchForm.ofText name = .reverseName b := by
    apply SearchForm.ofText_of_form? (r := .reverseName)
    exact congrArg (Option.map SearchForm.reverseName) h
  unfold ofTerm
  dsimp only
  rw [htrim, hform]

/-- A block in writing is looked up as that block, if a reverse-DNS name delegates it. -/
theorem SearchKey.ofTerm_block {name : Text} {b : IpBlock}
    (h : ReverseName.block? name = some b) : ofTerm b.render = ⟨b.render, .ip b⟩ :=
  ofTerm_render (IpBlock.isWritable_of_reverseName h)

/-- Behind flags, a block in writing and a reverse-DNS name of it are search words. -/
theorem Options.read_reverseName {name flags : Text} {b : IpBlock}
    (hname : ReverseName.block? name = some b)
    (hawaits : Scan.awaitsValue .standard (Text.words flags) = false)
    (hlength : (Text.words flags).length + (Text.words b.render).length ≤ maxElements) :
    read (flags ++ " " ++ b.render) =
        (read flags).map (fun o => o.withWords (Text.words b.render)) ∧
      read (flags ++ " " ++ name) = (read flags).map fun o => o.withWords [name] := by
  obtain ⟨hword, hhead⟩ := ReverseName.isWord_of_block? hname
  have hwords : Text.words name = [name] := Text.words_of_isWord hword
  have hpos : 0 < (Text.words b.render).length :=
    List.length_pos_iff.mpr (ResourceKey.ip b).words_render_ne_nil
  constructor
  · apply read_append_words hawaits hlength
    intro w hw
    exact Registry.readToken_of_word ((ResourceKey.ip b).words_render.2.2 w hw)
  · rw [← hwords]
    apply read_append_words hawaits
    · rw [hwords, List.length_singleton]
      omega
    · rw [hwords]
      exact List.forall_mem_singleton.mpr (Registry.readToken_of_head?_ne hhead)

namespace Request

variable {text text' term term' : Text} {given : Given} {b : IpBlock}

/-- Without named types, a lookup in both directions searches those of address space. -/
theorem mem_bothDirections_of_isSelected {r : Request} (hboth : r.has .reverseDomain = true)
    (htypes : r.has .selectTypes = false) {o : ObjectType} (h : r.isSelected o = true) :
    o ∈ ObjectType.bothDirections := by
  unfold isSelected bothDirections at h
  rw [suppliedTypes_eq_nil htypes, hboth] at h
  exact List.contains_iff_mem.mp h

/-- In a lookup in both directions a block and a reverse-DNS name of it search alike. -/
theorem searchesAlike_of_reverseName (hboth : (given .reverseDomain).isSome = true)
    (htypes : (given .selectTypes).isSome = false)
    (hblock : SearchKey.ofTerm term = ⟨term, .ip b⟩)
    (hname : SearchKey.ofTerm term' = ⟨term', .reverseName b⟩) :
    SearchesAlike ⟨text, given, term⟩ ⟨text', given, term'⟩ := by
  have htarget : target ⟨text, given, term⟩ = ⟨⟨term, .ip b⟩, true⟩ := by
    rw [← hblock, ← hboth]
    rfl
  have htarget' : target ⟨text', given, term'⟩ = ⟨⟨term', .reverseName b⟩, true⟩ := by
    rw [← hname, ← hboth]
    rfl
  have hfind : ∀ o ∈ ObjectType.bothDirections,
      Target.canFind ⟨⟨term, .ip b⟩, true⟩ o =
        Target.canFind ⟨⟨term', .reverseName b⟩, true⟩ o := by
    -- The two blocks are the same, and with them a domain is found whatever the term looks like.
    intro o ho
    simp only [ObjectType.bothDirections, List.mem_cons, List.not_mem_nil, or_false] at ho
    rcases ho with rfl | rfl | rfl | rfl | rfl <;> rfl
  refine searchesAlike_of_given rfl ?_ ?_ ?_ ?_
  · rw [htarget, htarget']
    rfl
  · rw [htarget, htarget']
    rfl
  · rw [htarget, htarget']
    rfl
  · intro o ho
    rw [htarget, htarget']
    exact hfind o (mem_bothDirections_of_isSelected (r := ⟨text, given, term⟩) hboth htypes ho)

end Request

/-- Behind flags for a lookup in both directions, a block and a reverse-DNS name of it have the same
outcome. The last flag must not take the name for its value, and no type may be named. -/
theorem Query.resolve_reverseName {name flags : Text} {b : IpBlock}
    (hname : ReverseName.block? name = some b)
    (hflags : ∀ o, Options.read flags = .ok o →
      o.has .reverseDomain = true ∧ o.has .selectTypes = false ∧ o.searchTerm = [])
    (hawaits : Scan.awaitsValue .standard (Text.words flags) = false)
    (hlength : (Text.words flags).length + (Text.words b.render).length ≤ maxElements)
    (origin : Origin) (credentials : Option Credentials) :
    SameOutcome Request.SearchesAlike
      (resolve (flags ++ " " ++ b.render) origin credentials)
      (resolve (flags ++ " " ++ name) origin credentials) := by
  obtain ⟨hreadBlock, hreadName⟩ := Options.read_reverseName hname hawaits hlength
  apply sameOutcome_of_read hreadBlock hreadName
  intro o ho
  obtain ⟨hboth, htypes, hterm⟩ := hflags o ho
  have hjoin : Text.join " " (Text.words b.render) = b.render := (ResourceKey.ip b).words_render.1
  rw [Options.withWords_of_searchTerm hterm, Options.withWords_of_searchTerm hterm, hjoin,
    Text.join_singleton]
  have hblockTerm := SearchKey.ofTerm_block hname
  have hnameTerm := SearchKey.ofTerm_reverseName hname
  have hsearch : Request.SearchesAlike ⟨Text.trim (flags ++ " " ++ b.render), o.given, b.render⟩
      ⟨Text.trim (flags ++ " " ++ name), o.given, name⟩ :=
    Request.searchesAlike_of_reverseName hboth htypes hblockTerm hnameTerm
  refine ⟨Request.issues_of_searchesAlike rfl hsearch ?_, hsearch⟩
  have hrender : b.render ≠ [] := (ResourceKey.ip b).render_ne_nil
  have hne : name ≠ [] := (ReverseName.isWord_of_block? hname).1.1
  unfold Request.key SearchKey.isEmpty
  rw [hblockTerm, hnameTerm, List.isEmpty_eq_false_iff.mpr hrender,
    List.isEmpty_eq_false_iff.mpr hne]

theorem Query.resolve_reverseName_classless :
    ∃ b, (ReverseName.block? "1-6.1.0.10.in-addr.arpa" = some b ∧
        b.render = "10.0.1.1 - 10.0.1.6") ∧
      (∀ o, Options.read "-d -m" = .ok o →
        o.has .reverseDomain = true ∧ o.has .selectTypes = false ∧ o.searchTerm = []) ∧
      Scan.awaitsValue .standard (Text.words "-d -m") = false ∧
      (Text.words "-d -m").length + (Text.words b.render).length ≤ maxElements ∧
      SameOutcome Request.SearchesAlike
        (resolve ("-d -m" ++ " " ++ b.render) .direct none)
        (resolve ("-d -m" ++ " " ++ "1-6.1.0.10.in-addr.arpa") .direct none) := by
  have hname : ReverseName.block? "1-6.1.0.10.in-addr.arpa" = some _ := rfl
  have hread : Options.read "-d -m" =
      .ok ⟨(Given.none.set .reverseDomain []).set .oneMore [], []⟩ := rfl
  have hflags : ∀ o, Options.read "-d -m" = .ok o →
      o.has .reverseDomain = true ∧ o.has .selectTypes = false ∧ o.searchTerm = [] := by
    intro o ho
    cases hread.symm.trans ho
    exact ⟨rfl, rfl, rfl⟩
  have hawaits : Scan.awaitsValue .standard (Text.words "-d -m") = false := by decide
  refine ⟨_, ⟨hname, by decide +kernel⟩, hflags, hawaits, by decide +kernel, ?_⟩
  exact resolve_reverseName hname hflags hawaits (by decide +kernel) .direct none

/-- A flag in front takes the block or the name for its value. The values are refused one like the
other, but each by what it is. -/
theorem Query.resolve_reverseName_asValue :
    ∃ b e e', (ReverseName.block? "1.0.10.in-addr.arpa" = some b ∧ b.render = "10.0.1.0/24") ∧
      (resolve ("-d -t" ++ " " ++ b.render) .direct none = .error e ∧
        e.errors = [.unknownObjectType "10.0.1.0/24", .uselessIpFlag .reverseDomain]) ∧
      (resolve ("-d -t" ++ " " ++ "1.0.10.in-addr.arpa") .direct none = .error e' ∧
        e'.errors = [.unknownObjectType "1.0.10.in-addr.arpa", .uselessIpFlag .reverseDomain]) ∧
      ¬ SameOutcome Request.SearchesAlike
        (resolve ("-d -t" ++ " " ++ b.render) .direct none)
        (resolve ("-d -t" ++ " " ++ "1.0.10.in-addr.arpa") .direct none) := by
  refine ⟨_, _, _, ⟨rfl, by decide +kernel⟩, ⟨rfl, by decide +kernel⟩, ⟨rfl, by decide +kernel⟩, ?_⟩
  intro h
  exact absurd h.eq_of_refused (by decide +kernel)

end Whois

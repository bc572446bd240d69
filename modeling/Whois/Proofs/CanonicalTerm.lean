import Whois.Proofs.SearchTerm

/-!
Canonical texts of search terms. The canonical text of a term is classified as the term itself, so
that terms which are blocks have one text for each block and origin.
-/
namespace Whois

namespace IpBlock

variable {b : IpBlock} {len : Nat}

theorem slash_mem_render (h : b.prefixLen? = some len) : '/' ∈ b.render := by
  cases b with
  | v4 block => simp [render, Block.render_of_prefixLen? (b := block) h]
  | v6 block => simp [render, Block.render_of_prefixLen? (b := block) h]

theorem isPlainWord_render (h : b.prefixLen? = some len) : Text.IsPlainWord b.render := by
  cases b with
  | v4 block =>
    exact Block.isPlainWord_of_prefixLen? (fun _ _ => Ipv4.isAddressChar_of_mem_render)
      Ipv4.render_ne_nil h
  | v6 block =>
    exact Block.isPlainWord_of_prefixLen? (fun _ _ => Ipv6.isAddressChar_of_mem_render)
      Ipv6.render_ne_nil h

/-- A route holds no blank. -/
theorem trim_render_append (h : b.prefixLen? = some len) (n : AsNumber) :
    Text.trim (b.render ++ n.render) = b.render ++ n.render := by
  apply Text.trim_of_forall_not
  intro c hc
  rcases List.mem_append.mp hc with hc | hc
  · exact (isPlainWord_render h).isWord.2 c hc
  · exact n.isPlainWord_render.isWord.2 c hc

end IpBlock

/-- The form of the canonical text of a term. A range of one number is written as that number. -/
def SearchForm.canonical : SearchForm → SearchForm
  | .asRange r => .ofKey (.asn r)
  | f => f

theorem SearchForm.canonical_asRange (r : AsRange) :
    canonical (.asRange r) = if r.lo = r.hi then .asNumber r.lo else .asRange r := rfl

namespace SearchKey

/-- The canonical text of a term is classified as the term, but for ranges of one number. -/
theorem ofTerm_normalized_eq (t : Text) :
    ofTerm (ofTerm t).normalized = ⟨(ofTerm t).normalized, (ofTerm t).form.canonical⟩ := by
  have htrim : Text.trim (ofTerm t).term = (ofTerm t).term := Text.trim_trim t
  have hform : SearchForm.ofText (ofTerm t).term = (ofTerm t).form := rfl
  generalize ofTerm t = key at htrim hform ⊢
  obtain ⟨term, form⟩ := key
  dsimp only at htrim hform ⊢
  cases form with
  | plain =>
    change ofTerm term = ⟨term, .plain⟩
    simp [ofTerm, htrim, hform]
  | reverseName b =>
    change ofTerm term = ⟨term, .reverseName b⟩
    simp [ofTerm, htrim, hform]
  | ip b =>
    have hwritable : (ResourceKey.ip b).IsWritable := by
      rcases SearchForm.readV4?_or_readV6?_of_ofText hform with h | h
      · exact ResourceKey.isWritable_of_readV4? h
      · exact ResourceKey.isWritable_of_readV6? h
    exact ofTerm_render hwritable
  | route b n =>
    obtain ⟨announced, origin, _, hslash, hblock, _⟩ :=
      SearchForm.route?_eq_some (SearchForm.route?_of_ofText hform)
    obtain ⟨len, hlen⟩ := IpBlock.exists_prefixLen?_of_read? hblock hslash
    have hread : IpBlock.read? b.render = some b :=
      IpBlock.read?_render (IpBlock.isWritable_of_read? hblock)
    have hroute : SearchForm.ofText (b.render ++ n.render) = .route b n :=
      SearchForm.ofText_append (IpBlock.slash_mem_render hlen) hread (AsNumber.read_render n)
    change ofTerm (b.render ++ n.render) = ⟨b.render ++ n.render, .route b n⟩
    simp [ofTerm, IpBlock.trim_render_append hlen, hroute]
  | asNumber n =>
    have h : ofTerm (ResourceKey.ofAsNumber n).render =
        ⟨(ResourceKey.ofAsNumber n).render, .ofKey (.ofAsNumber n)⟩ := ofTerm_render trivial
    have hkey : SearchForm.ofKey (.ofAsNumber n) = .asNumber n := if_pos rfl
    rwa [hkey] at h
  | asRange r =>
    have hwritable : (ResourceKey.asn r).IsWritable := trivial
    exact ofTerm_render hwritable

section Canonical
variable (term : Text) (key : SearchKey)

theorem resource?_canonical : (mk term key.form.canonical).resource? = key.resource? := by
  obtain ⟨_, form⟩ := key
  cases form with
  | asRange r => exact resource?_ofKey term (.asn r)
  | _ => rfl

theorem reverseBlock?_canonical :
    (mk term key.form.canonical).reverseBlock? = key.reverseBlock? := by
  obtain ⟨_, form⟩ := key
  cases form with
  | asRange r =>
    rw [SearchForm.canonical_asRange]
    split <;> rfl
  | _ => rfl

theorem origin?_canonical : (mk term key.form.canonical).origin? = key.origin? := by
  obtain ⟨_, form⟩ := key
  cases form with
  | asRange r =>
    rw [SearchForm.canonical_asRange]
    split <;> rfl
  | _ => rfl

end Canonical

/-- Normalizing keeps the block that a term is. -/
theorem resource?_ofTerm_normalized (t : Text) :
    (ofTerm (ofTerm t).normalized).resource? = (ofTerm t).resource? := by
  rw [ofTerm_normalized_eq, resource?_canonical]

theorem origin?_ofTerm_normalized (t : Text) :
    (ofTerm (ofTerm t).normalized).origin? = (ofTerm t).origin? := by
  rw [ofTerm_normalized_eq, origin?_canonical]

theorem normalized_congr {key key' : SearchKey} (hresource : key'.resource? = key.resource?)
    (horigin : key'.origin? = key.origin?) (hterm : key.resource? = none → key'.term = key.term) :
    key'.normalized = key.normalized := by
  unfold normalized
  rw [hresource, horigin]
  cases h : key.resource? with
  | none => exact hterm h
  | some resource => cases key.origin? <;> rfl

/-- Whether a term is a range, of a single AS number. -/
def IsSingleRange (key : SearchKey) : Prop :=
  key.kind = .asRange ∧ ∃ n, key.resource? = some (.ofAsNumber n)

theorem normalized_canonical (key : SearchKey) :
    (mk key.normalized key.form.canonical).normalized = key.normalized := by
  apply normalized_congr (resource?_canonical _ key) (origin?_canonical _ key)
  intro h
  simp [normalized, h]

theorem kind_canonical_of_not {key : SearchKey} (h : ¬ key.IsSingleRange) (term : Text) :
    (mk term key.form.canonical).kind = key.kind := by
  obtain ⟨term', form⟩ := key
  cases form with
  | asRange r =>
    have hr : r.lo ≠ r.hi := by
      intro heq
      have hrange : r = AsRange.ofNumber r.lo := Interval.ext rfl heq.symm
      exact h ⟨rfl, r.lo, congrArg (fun r => some (ResourceKey.asn r)) hrange⟩
    simp [SearchForm.canonical_asRange, hr, kind]
  | _ => rfl

theorem kind_canonical_of_isSingleRange {key : SearchKey} (h : key.IsSingleRange) (term : Text) :
    (mk term key.form.canonical).kind = .asNumber := by
  obtain ⟨term', form⟩ := key
  obtain ⟨hkind, n, hn⟩ := h
  cases form with
  | asRange r =>
    obtain rfl : r = AsRange.ofNumber n := by
      simpa [resource?, ipBlock?, asRange?, ResourceKey.ofAsNumber] using hn
    simp [SearchForm.canonical_asRange, AsRange.ofNumber, Interval.single, kind]
  | ip b => cases b <;> cases hkind
  | route b _ => cases b <;> cases hkind
  | _ => cases hkind

/-- The canonical text of a term means what the term means and is its own canonical text. Only a range
of one AS number turns into another kind, into that number. Of terms that are blocks, those with the
same block and origin have the same canonical text, and no others. -/
theorem ofTerm_normalized (t : Text) :
    let key := ofTerm t
    let key' := ofTerm key.normalized
    (key'.resource? = key.resource? ∧ key'.reverseBlock? = key.reverseBlock? ∧
      key'.origin? = key.origin? ∧ key'.normalized = key.normalized) ∧
    (¬ key.IsSingleRange → key'.kind = key.kind) ∧
    (key.IsSingleRange → key'.kind = .asNumber) ∧
    ∀ s : Text, (ofTerm s).resource?.isSome = true → key.resource?.isSome = true →
      ((ofTerm s).normalized = key.normalized ↔
        (ofTerm s).resource? = key.resource? ∧ (ofTerm s).origin? = key.origin?) := by
  intro key key'
  have hkey' : key' = ⟨key.normalized, key.form.canonical⟩ := ofTerm_normalized_eq t
  refine ⟨⟨resource?_ofTerm_normalized t, ?_, origin?_ofTerm_normalized t, ?_⟩, ?_, ?_, ?_⟩
  · rw [hkey', reverseBlock?_canonical]
  · rw [hkey', normalized_canonical]
  · intro h
    rw [hkey', kind_canonical_of_not h]
  · intro h
    rw [hkey', kind_canonical_of_isSingleRange h]
  · intro s _ hresource
    constructor
    · intro h
      constructor
      · rw [← resource?_ofTerm_normalized s, h, resource?_ofTerm_normalized t]
      · rw [← origin?_ofTerm_normalized s, h, origin?_ofTerm_normalized t]
    · rintro ⟨hsame, horigin⟩
      apply normalized_congr hsame horigin
      intro hnone
      simp [hnone] at hresource

theorem ofTerm_normalized_rangeAndRoute :
    ((ofTerm "as05-AS5").IsSingleRange ∧
      (ofTerm (ofTerm "as05-AS5").normalized).kind = .asNumber) ∧
    (¬ (ofTerm "10.0.0.1/8as05").IsSingleRange ∧
      (ofTerm (ofTerm "10.0.0.1/8as05").normalized).kind = .ipv4) ∧
    (ofTerm "10.0.0.1/8as05").normalized = (ofTerm "10.0.0.0/08AS5").normalized := by
  have hrange : (ofTerm "as05-AS5").IsSingleRange := ⟨by decide, 5, by decide⟩
  have hroute : ¬ (ofTerm "10.0.0.1/8as05").IsSingleRange := fun h => absurd h.1 (by decide)
  have hsame := (ofTerm_normalized "10.0.0.0/08AS5").2.2.2 "10.0.0.1/8as05" (by decide) (by decide)
  exact ⟨⟨hrange, (ofTerm_normalized _).2.2.1 hrange⟩,
    ⟨hroute, (ofTerm_normalized _).2.1 hroute⟩, hsame.mpr ⟨by decide, by decide⟩⟩

end SearchKey

end Whois

import Whois.Proofs.CanonicalForm
import Whois.Proofs.Configuration
import Whois.Proofs.SearchKey

/-!
Search terms and the keys of configured objects. Both are classified alike, but for routes, which
only a search term can be.
-/
namespace Whois

namespace SearchForm

variable {announced origin t : Text} {b : IpBlock} {n : AsNumber}

theorem cutLastAs?_eq_none (h : ∀ c ∈ t, c.toLower ≠ 'a') : cutLastAs? t = none := by
  induction t with
  | nil => rfl
  | cons c rest ih =>
    have hc : 'a' ≠ c.toLower := Ne.symm (h c List.mem_cons_self)
    have hrest := ih fun d hd => h d (List.mem_cons_of_mem c hd)
    simp [cutLastAs?, hrest, Text.afterLead?, hc]

theorem toLower_ne_of_isDigit {c : Char} (h : c.isDigit = true) : c.toLower ≠ 'a' := by
  intro hlower
  rcases Text.eq_toLower_or c with hc | hc <;> rw [hlower] at hc <;> subst hc <;> cases h

/-- A text that ends in an AS number is cut before that number. No other mark begins later: its
second letter and its digits hold no `A`. -/
theorem cutLastAs?_append (h : AsNumber.read origin = .ok n) (announced : Text) :
    cutLastAs? (announced ++ origin) = some (announced, origin) := by
  induction announced with
  | nil =>
    obtain ⟨digits, hlead, hdigits⟩ := AsNumber.read_eq_ok h
    match origin with
    | [] => cases hlead
    | [_] => simp [Text.afterLead?] at hlead
    | c :: d :: rest =>
      obtain ⟨hc, hd, rfl⟩ : 'a' = c.toLower ∧ 's' = d.toLower ∧ rest = digits := by
        simpa [Text.afterLead?] using hlead
      have hrest : cutLastAs? (d :: rest) = none := by
        apply cutLastAs?_eq_none
        intro x hx
        rcases List.mem_cons.mp hx with rfl | hx
        · simp [← hd]
        · exact toLower_ne_of_isDigit (Text.isDigit_of_natural? hdigits hx)
      rw [List.nil_append, cutLastAs?, hrest]
      simp [Text.afterLead?, ← hc, ← hd]
  | cons c rest ih => simp [cutLastAs?, ih]

/-- A block with a slash and an AS number directly after it are a route. -/
theorem route?_append (hslash : '/' ∈ announced) (hblock : IpBlock.read? announced = some b)
    (hnumber : AsNumber.read origin = .ok n) : route? (announced ++ origin) = some (b, n) := by
  unfold route?
  simp [cutLastAs?_append hnumber, hslash, hblock, hnumber, Except.toOption]

theorem ofText_append (hslash : '/' ∈ announced) (hblock : IpBlock.read? announced = some b)
    (hnumber : AsNumber.read origin = .ok n) : ofText (announced ++ origin) = .route b n := by
  apply ofText_of_form? (r := .route)
  simp [Recogniser.form?, route?_append hslash hblock hnumber]

/-- Whether a text is a block, with a slash in it, and an AS number directly after it. -/
def IsRoute (t : Text) (b : IpBlock) (n : AsNumber) : Prop :=
  ∃ announced origin : Text, t = announced ++ origin ∧ '/' ∈ announced ∧
    IpBlock.read announced = .ok b ∧ AsNumber.read origin = .ok n

theorem isRoute_iff : IsRoute t b n ↔ route? t = some (b, n) := by
  unfold IsRoute
  simp only [IpBlock.read_eq_ok_iff]
  constructor
  · rintro ⟨announced, origin, rfl, hslash, hblock, hnumber⟩
    exact route?_append hslash hblock hnumber
  · exact route?_eq_some

end SearchForm

namespace Recogniser

variable {r r' : Recogniser} {t : Text} {f : SearchForm}

/-- What one recogniser accepts, no other does. -/
theorem form?_eq_none_of_ne (h : r.form? t = some f) (hne : r' ≠ r) : r'.form? t = none := by
  by_contra hnot
  obtain ⟨f', hf'⟩ := Option.ne_none_iff_exists'.mp hnot
  exact hne ((ofMarks_of_form? hf').symm.trans (ofMarks_of_form? h))

end Recogniser

namespace ResourceKey

variable {t : Text} {b : IpBlock} {n : AsNumber}

/-- No key is read from a route. -/
theorem read?_of_route? (h : SearchForm.route? (Text.trim t) = some (b, n)) : read? t = none := by
  have hform : Recogniser.route.form? (Text.trim t) = some (.route b n) := by
    simp [Recogniser.form?, h]
  have hother : ∀ r' : Recogniser, r' ≠ .route → r'.form? (Text.trim t) = none :=
    fun _ => Recogniser.form?_eq_none_of_ne hform
  have hv4 := hother .ipv4 (by decide)
  have hv6 := hother .ipv6 (by decide)
  have hnumber := hother .asNumber (by decide)
  have hrange := hother .asRange (by decide)
  simp only [Recogniser.form?, Option.map_eq_none_iff] at hv4 hv6 hnumber hrange
  have hip : IpBlock.read? (Text.trim t) = none := by simp [IpBlock.read?, hv4, hv6]
  have has : readAs? (Text.trim t) = none := by
    unfold readAs?
    split <;> simp_all [Except.toOption]
  simp [read?, hip, has]

theorem toOption_read (t : Text) : (read t).toOption = read? t := by
  unfold read
  split <;> simp_all [Except.toOption]

/-- Both ways of classifying a text try the same forms, but for routes. -/
theorem read?_of_route?_eq_none (h : SearchForm.route? (Text.trim t) = none) :
    read? t = (SearchKey.ofTerm t).resource? := by
  unfold read? SearchKey.ofTerm SearchKey.resource? SearchKey.ipBlock? SearchKey.asRange?
  dsimp only
  generalize Text.trim t = t' at h ⊢
  unfold IpBlock.read? readAs? SearchForm.ofText
  rw [h]
  cases IpBlock.readV4? t' with
  | some b => simp
  | none =>
    cases IpBlock.readV6? t' with
    | some b => simp
    | none =>
      cases AsNumber.read t' with
      | ok n => simp [ofAsNumber]
      | error e =>
        cases AsRange.read t' with
        | ok r => simp [Except.toOption]
        | error e' => cases ReverseName.block? t' <;> simp [Except.toOption]

end ResourceKey

/-- A configuration may have the keys that can be read. -/
theorem ConfiguredObject.readKey_text_eq_ok_iff {t : Text} {key : ResourceKey} :
    readKey (.text t) = .ok key ↔ ResourceKey.read? t = some key := by
  have hread : readKey (.text t) = (ResourceKey.read t).mapError (.invalidValue "resource key") := rfl
  rw [hread, ← ResourceKey.read_eq_ok_iff]
  cases ResourceKey.read t <;> simp [Except.mapError]

namespace SearchKey

variable {t : Text} {b : IpBlock} {n : AsNumber}

theorem form_of_route? (h : SearchForm.route? (Text.trim t) = some (b, n)) :
    (ofTerm t).form = .route b n := by
  apply SearchForm.ofText_of_form? (r := .route)
  simp [Recogniser.form?, h]

theorem exists_route?_of_origin? (h : (ofTerm t).origin? = some n) : ∃ b : IpBlock,
    SearchForm.route? (Text.trim t) = some (b, n) ∧ (ofTerm t).resource? = some (.ip b) := by
  unfold origin? at h
  split at h
  next b m hform =>
    cases h
    have hroute : SearchForm.ofText (Text.trim t) = .route b n := hform
    exact ⟨b, SearchForm.route?_of_ofText hroute, by simp [resource?, ipBlock?, hform]⟩
  next => cases h

theorem route?_eq_none (h : (ofTerm t).origin? = none) :
    SearchForm.route? (Text.trim t) = none := by
  cases hroute : SearchForm.route? (Text.trim t) with
  | none => rfl
  | some route => simp [origin?, form_of_route? hroute] at h

/-- Terms and keys are classified alike. A term that is no route is the block that is read from it as
a key; a route is a block with a slash and an AS number directly after it, and is no key. So the keys
that a configuration may have are the terms that are blocks, and stand for the same blocks. -/
theorem ofTerm_agrees (t : Text) :
    ((ofTerm t).origin? = none → (ofTerm t).resource? = (ResourceKey.read t).toOption) ∧
    (∀ n, (ofTerm t).origin? = some n → ResourceKey.read t = .error .noResourceKey ∧
      ∃ b, (ofTerm t).resource? = some (.ip b) ∧ SearchForm.IsRoute (Text.trim t) b n) ∧
    (∀ b n, SearchForm.IsRoute (Text.trim t) b n →
      (ofTerm t).origin? = some n ∧ (ofTerm t).resource? = some (.ip b)) ∧
    ∀ key, ConfiguredObject.readKey (.text t) = .ok key ↔
      (ofTerm t).origin? = none ∧ (ofTerm t).resource? = some key := by
  refine ⟨?_, ?_, ?_, ?_⟩
  · intro h
    rw [ResourceKey.toOption_read, ResourceKey.read?_of_route?_eq_none (route?_eq_none h)]
  · intro n h
    obtain ⟨b, hroute, hresource⟩ := exists_route?_of_origin? h
    refine ⟨?_, b, hresource, SearchForm.isRoute_iff.mpr hroute⟩
    simp [ResourceKey.read, ResourceKey.read?_of_route? hroute]
  · intro b n h
    have hform := form_of_route? (SearchForm.isRoute_iff.mp h)
    simp [origin?, resource?, ipBlock?, hform]
  · intro key
    rw [ConfiguredObject.readKey_text_eq_ok_iff]
    constructor
    · intro h
      cases horigin : (ofTerm t).origin? with
      | none =>
        rw [← ResourceKey.read?_of_route?_eq_none (route?_eq_none horigin)]
        exact ⟨rfl, h⟩
      | some n =>
        obtain ⟨b, hroute, _⟩ := exists_route?_of_origin? horigin
        cases (ResourceKey.read?_of_route? hroute).symm.trans h
    · rintro ⟨horigin, hresource⟩
      rw [ResourceKey.read?_of_route?_eq_none (route?_eq_none horigin), hresource]

theorem ofTerm_agrees_route :
    (ofTerm " 10.0.0.1/8as3333").origin? = some 3333 ∧
      ResourceKey.read " 10.0.0.1/8as3333" = .error .noResourceKey ∧
      (ofTerm "10.0.0.1/8").origin? = none ∧
      (ofTerm "10.0.0.1/8").resource? = (ResourceKey.read "10.0.0.1/8").toOption := by
  have hroute : (ofTerm " 10.0.0.1/8as3333").origin? = some 3333 := by decide
  have hblock : (ofTerm "10.0.0.1/8").origin? = none := by decide
  exact ⟨hroute, ((ofTerm_agrees _).2.1 _ hroute).1, hblock, (ofTerm_agrees _).1 hblock⟩

end SearchKey

end Whois

import Whois.Proofs.Recogniser
import Whois.Proofs.ResourceKey

/-!
Search terms. What is known of a term fits its kind, and a term that is the written form of a key is
taken for that key and nothing else.
-/
namespace Whois

namespace SearchForm

variable {t : Text}

/-- The form that a key is written in. -/
def ofKey : ResourceKey → SearchForm
  | .ip b => .ip b
  | .asn r => if r.lo = r.hi then .asNumber r.lo else .asRange r

theorem ofKey_of_eq {r : AsRange} (h : r.lo = r.hi) : ofKey (.asn r) = .asNumber r.lo := if_pos h

theorem ofKey_of_ne {r : AsRange} (h : r.lo ≠ r.hi) : ofKey (.asn r) = .asRange r := if_neg h

/-- A writable key in writing is taken for that key. -/
theorem ofText_render {key : ResourceKey} (h : key.IsWritable) : ofText key.render = ofKey key := by
  match key, h with
  | .ip (.v4 b), _ =>
    apply ofText_of_form? (r := .ipv4)
    exact congrArg (Option.map SearchForm.ip) (IpBlock.readV4?_render b)
  | .ip (.v6 b), h =>
    obtain ⟨len, hlen⟩ := Option.isSome_iff_exists.mp h
    apply ofText_of_form? (r := .ipv6)
    exact congrArg (Option.map SearchForm.ip) (IpBlock.readV6?_render hlen)
  | .asn r, _ =>
    by_cases hr : r.lo = r.hi
    · have hrender : (ResourceKey.asn r).render = AsNumber.render r.lo := if_pos hr
      rw [hrender, ofKey_of_eq hr]
      apply ofText_of_form? (r := .asNumber)
      simp [Recogniser.form?, AsNumber.read_render, Except.toOption]
    · have hrender : (ResourceKey.asn r).render = AsRange.render r := if_neg hr
      rw [hrender, ofKey_of_ne hr]
      apply ofText_of_form? (r := .asRange)
      simp [Recogniser.form?, AsRange.read_render, Except.toOption]

end SearchForm

namespace SearchKey

/-- The search key of a key in writing. -/
theorem ofTerm_render {key : ResourceKey} (h : key.IsWritable) :
    ofTerm key.render = ⟨key.render, .ofKey key⟩ := by
  unfold ofTerm
  dsimp only
  rw [key.trim_render, SearchForm.ofText_render h]

theorem ipBlock?_ofKey (t : Text) (b : IpBlock) :
    (SearchKey.mk t (.ofKey (.ip b))).ipBlock? = some b := rfl

theorem asRange?_ofKey (t : Text) (r : AsRange) :
    (SearchKey.mk t (.ofKey (.asn r))).asRange? = some r := by
  by_cases hr : r.lo = r.hi
  · have hrange : AsRange.ofNumber r.lo = r := Interval.ext rfl hr
    rw [SearchForm.ofKey_of_eq hr, ← hrange]
    rfl
  · rw [SearchForm.ofKey_of_ne hr]
    rfl

theorem resource?_ofKey (t : Text) (key : ResourceKey) :
    (SearchKey.mk t (.ofKey key)).resource? = some key := by
  unfold resource?
  match key with
  | .ip b => rw [ipBlock?_ofKey, Option.map_some, Option.some_or]
  | .asn r =>
    have hblock : (SearchKey.mk t (.ofKey (.asn r))).ipBlock? = none := by
      by_cases hr : r.lo = r.hi
      · rw [SearchForm.ofKey_of_eq hr]
        rfl
      · rw [SearchForm.ofKey_of_ne hr]
        rfl
    rw [hblock, asRange?_ofKey, Option.map_none, Option.none_or, Option.map_some]

variable {key : SearchKey}

/-- What is known of a key fits its kind. -/
structure Consistent (key : SearchKey) : Prop where
  ipv4_iff : key.kind = .ipv4 ↔ ∃ b, key.resource? = some (.ip (.v4 b))
  ipv6_iff : key.kind = .ipv6 ↔ ∃ b, key.resource? = some (.ip (.v6 b))
  autonomous_iff : key.kind = .asNumber ∨ key.kind = .asRange ↔ ∃ r, key.resource? = some (.asn r)
  asNumber : key.kind = .asNumber → ∃ n, key.resource? = some (.ofAsNumber n)
  plain_iff : key.kind = .plain ↔ key.resource? = none
  reverseBlock : key.reverseBlock?.isSome = true → key.kind = .plain
  origin : key.origin?.isSome = true → (key.kind = .ipv4 ∨ key.kind = .ipv6) ∧
    ∃ b len, key.ipBlock? = some b ∧ b.prefixLen? = some len

theorem consistent_of_route
    (hroute : ∀ b n, key.form = .route b n → ∃ len, b.prefixLen? = some len) : key.Consistent := by
  obtain ⟨term, form⟩ := key
  cases form with
  | ip b =>
    cases b <;> constructor <;>
      simp [kind, resource?, ipBlock?, asRange?, reverseBlock?, origin?, IpBlock.isV4]
  | route b n =>
    have hlen := hroute b n rfl
    cases b <;> constructor <;>
      simp [kind, resource?, ipBlock?, asRange?, reverseBlock?, origin?, IpBlock.isV4, hlen]
  | _ =>
    constructor <;>
      simp [kind, resource?, ipBlock?, asRange?, reverseBlock?, origin?, ResourceKey.ofAsNumber]

theorem consistent_ofTerm (t : Text) : (ofTerm t).Consistent := by
  apply consistent_of_route
  intro b n h
  obtain ⟨announced, _, _, hslash, hblock, _⟩ :=
    SearchForm.route?_eq_some (SearchForm.route?_of_ofText h)
  exact IpBlock.exists_prefixLen?_of_read? hblock hslash

/-- At most one recogniser accepts a text, so that terms can be tried for their forms in any order,
and what is known of a term fits its kind. -/
theorem ofTerm_classified (t : Text) :
    (∀ r r' : Recogniser, (r.form? t).isSome = true → (r'.form? t).isSome = true → r = r') ∧
    (∀ rs : List Recogniser, (∀ r, r ∈ rs) →
      ofTerm t = ⟨Text.trim t, Recogniser.firstForm rs (Text.trim t)⟩) ∧
    (ofTerm t).Consistent := by
  refine ⟨?_, ?_, consistent_ofTerm t⟩
  · intro r r' h h'
    obtain ⟨f, hf⟩ := Option.isSome_iff_exists.mp h
    obtain ⟨f', hf'⟩ := Option.isSome_iff_exists.mp h'
    rw [← Recogniser.ofMarks_of_form? hf, ← Recogniser.ofMarks_of_form? hf']
  · intro rs hrs
    unfold ofTerm
    dsimp only
    rw [SearchForm.ofText_eq_firstForm,
      Recogniser.firstForm_eq_of_forall_mem Recogniser.mem_order,
      Recogniser.firstForm_eq_of_forall_mem hrs]

end SearchKey

end Whois

import Whois.Proofs.Block.Autonomous
import Whois.Proofs.Block.Ip
import Whois.ResourceKey

/-!
Keys in writing. A key that can be read at all is either an IPv6 prefix or no IPv6 block; such a key
is written as one word, or as two around a hyphen.
-/
namespace Whois.ResourceKey

variable {key : ResourceKey} {t : Text}

/-- Whether a key has a written form that stands for it: IPv6 blocks have to be prefixes. -/
def IsWritable : ResourceKey → Prop
  | .ip (.v6 b) => b.prefixLen?.isSome = true
  | _ => True

instance (key : ResourceKey) : Decidable key.IsWritable := by
  unfold IsWritable
  split <;> infer_instance

theorem isWritable_of_readV4? {b : IpBlock} (h : IpBlock.readV4? t = some b) :
    (ip b).IsWritable := by
  unfold IpBlock.readV4? at h
  split at h
  next =>
    obtain ⟨_, _, rfl⟩ := Option.map_eq_some_iff.mp h
    trivial
  next =>
    obtain ⟨_, _, rfl⟩ := Option.map_eq_some_iff.mp h
    trivial

theorem isWritable_of_readV6? {b : IpBlock} (h : IpBlock.readV6? t = some b) :
    (ip b).IsWritable := by
  match b, IpBlock.exists_prefixLen?_of_readV6? h with
  | .v4 _, _ => trivial
  | .v6 _, hlen => exact Option.isSome_iff_exists.mpr hlen

/-- Every key that is read is writable. -/
theorem isWritable_of_read? (h : read? t = some key) : key.IsWritable := by
  unfold read? at h
  rcases Option.or_eq_some_iff.mp h with hip | ⟨_, hasn⟩
  · obtain ⟨b, hb, rfl⟩ := Option.map_eq_some_iff.mp hip
    rcases Option.or_eq_some_iff.mp hb with hv4 | ⟨_, hv6⟩
    · exact isWritable_of_readV4? hv4
    · exact isWritable_of_readV6? hv6
  · unfold readAs? at hasn
    split at hasn
    next =>
      cases hasn
      trivial
    next =>
      obtain ⟨_, _, rfl⟩ := Option.map_eq_some_iff.mp hasn
      trivial

theorem render_cases (key : ResourceKey) :
    Text.IsPlainWord key.render ∨ ∃ s t, Text.IsPlainWord s ∧ Text.IsPlainWord t ∧
      key.render = s ++ " - " ++ t := by
  match key with
  | .ip (.v4 b) =>
    exact Block.render_cases (fun _ _ => Ipv4.isAddressChar_of_mem_render) Ipv4.render_ne_nil b
  | .ip (.v6 b) =>
    exact Block.render_cases (fun _ _ => Ipv6.isAddressChar_of_mem_render) Ipv6.render_ne_nil b
  | .asn r =>
    change Text.IsPlainWord (if r.lo = r.hi then AsNumber.render r.lo else AsRange.render r) ∨
      ∃ s t, Text.IsPlainWord s ∧ Text.IsPlainWord t ∧
        (if r.lo = r.hi then AsNumber.render r.lo else AsRange.render r) = s ++ " - " ++ t
    by_cases h : r.lo = r.hi
    · rw [if_pos h]
      exact .inl (AsNumber.isPlainWord_render r.lo)
    · rw [if_neg h]
      exact .inr ⟨_, _, AsNumber.isPlainWord_render r.lo, AsNumber.isPlainWord_render r.hi, rfl⟩

/-- The words of a key in writing. One is a hyphen, or none. -/
theorem words_render (key : ResourceKey) :
    Text.join " " (Text.words key.render) = key.render ∧ (Text.words key.render).length ≤ 3 ∧
      ∀ w ∈ Text.words key.render, Text.IsPlainWord w ∨ w = "-" := by
  rcases render_cases key with hword | ⟨s, t, hs, ht, hrender⟩
  · rw [Text.words_of_isWord hword.isWord]
    refine ⟨Text.join_singleton _ _, by simp, ?_⟩
    intro w hw
    rw [List.mem_singleton.mp hw]
    exact .inl hword
  · rw [hrender, Text.words_hyphenated hs.isWord ht.isWord]
    refine ⟨by simp [Text.join_cons, Text.join_singleton], Nat.le_refl 3, ?_⟩
    intro w hw
    simp only [List.mem_cons, List.not_mem_nil, or_false] at hw
    rcases hw with rfl | rfl | rfl
    · exact .inl hs
    · exact .inr rfl
    · exact .inl ht

theorem trim_render (key : ResourceKey) : Text.trim key.render = key.render := by
  have hjoin := (words_render key).1
  rw [← hjoin]
  exact Text.trim_join fun w hw => Text.isWord_of_mem_words hw

theorem render_ne_nil (key : ResourceKey) : key.render ≠ [] := by
  rcases render_cases key with hword | ⟨s, t, _, _, hrender⟩
  · exact hword.1
  · rw [hrender]
    simp

theorem words_render_ne_nil (key : ResourceKey) : Text.words key.render ≠ [] := by
  intro hnone
  have hjoin := (words_render key).1
  rw [hnone] at hjoin
  exact render_ne_nil key hjoin.symm

end Whois.ResourceKey

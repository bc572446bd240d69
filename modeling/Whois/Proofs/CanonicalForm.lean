import Whois.Proofs.Block.Reverse
import Whois.Proofs.ResourceKey

/-!
Canonical forms. A value is read back from what is written for it, so that two texts denote the same
value exactly if the same is written for what they denote.
-/
namespace Whois

/-- `render` writes the values with property `writable` in such a way that `read` reads them back,
and `read` reads no others. -/
structure CanonicalForm {α : Type} (read : Text → Except Misread α) (render : α → Text)
    (writable : α → Prop) : Prop where
  read_render : ∀ a, writable a → read (render a) = .ok a
  writable_of_read : ∀ t a, read t = .ok a → writable a
  eq_iff_render_eq : ∀ s t a b, read s = .ok a → read t = .ok b → (a = b ↔ render a = render b)

/-- What is read back after writing tells the values apart. -/
theorem CanonicalForm.of_read_render {α : Type} {read : Text → Except Misread α} {render : α → Text}
    {writable : α → Prop} (hrender : ∀ a, writable a → read (render a) = .ok a)
    (hread : ∀ t a, read t = .ok a → writable a) : CanonicalForm read render writable where
  read_render := hrender
  writable_of_read := hread
  eq_iff_render_eq := by
    intro s t a b hs ht
    constructor
    · exact congrArg render
    · intro h
      have hab : Except.ok (ε := Misread) a = .ok b := by
        calc Except.ok a = read (render a) := (hrender a (hread s a hs)).symm
          _ = read (render b) := by rw [h]
          _ = .ok b := hrender b (hread t b ht)
      exact Except.ok.inj hab

theorem AsNumber.canonicalForm : CanonicalForm read render fun _ => True :=
  .of_read_render (fun n _ => read_render n) (fun _ _ _ => trivial)

theorem AsRange.canonicalForm : CanonicalForm read render fun _ => True :=
  .of_read_render (fun r _ => read_render r) (fun _ _ _ => trivial)

namespace IpBlock

/-- Whether a block can be written: as for keys, IPv6 blocks have to be prefixes. -/
def IsWritable (b : IpBlock) : Prop := (ResourceKey.ip b).IsWritable

theorem read?_render {b : IpBlock} (h : b.IsWritable) : read? b.render = some b := by
  unfold read?
  match b, h with
  | .v4 block, _ =>
    have hv4 : readV4? (IpBlock.v4 block).render = some (.v4 block) := readV4?_render block
    rw [hv4, Option.some_or]
  | .v6 block, h =>
    obtain ⟨len, hlen⟩ := Option.isSome_iff_exists.mp h
    have hv6 : readV6? (IpBlock.v6 block).render = some (.v6 block) := readV6?_render hlen
    rw [readV4?_eq_none_of_readV6? hv6, hv6, Option.none_or]

theorem isWritable_of_read? {t : Text} {b : IpBlock} (h : read? t = some b) : b.IsWritable := by
  rcases Option.or_eq_some_iff.mp h with hv4 | ⟨_, hv6⟩
  · exact ResourceKey.isWritable_of_readV4? hv4
  · exact ResourceKey.isWritable_of_readV6? hv6

theorem read_eq_ok_iff {t : Text} {b : IpBlock} : read t = .ok b ↔ read? t = some b := by
  unfold read
  split <;> simp_all

theorem canonicalForm : CanonicalForm read render IsWritable := by
  apply CanonicalForm.of_read_render
  · exact fun b h => read_eq_ok_iff.mpr (read?_render h)
  · exact fun t b h => isWritable_of_read? (read_eq_ok_iff.mp h)

/-- IPv6 prefixes can be written. -/
theorem isWritable_of_ofPrefix? {a : Ipv6} {len : Nat} {b : Block 128}
    (h : Block.ofPrefix? a len = some b) : (IpBlock.v6 b).IsWritable :=
  Option.isSome_iff_exists.mpr ⟨len, Block.prefixLen?_of_ofPrefix? h⟩

/-- Blocks that a name delegates can be written. -/
theorem isWritable_of_reverseName {name : Text} {b : IpBlock}
    (h : ReverseName.block? name = some b) : b.IsWritable := by
  match b, h with
  | .v4 _, _ => trivial
  | .v6 _, h => exact Option.isSome_iff_exists.mpr (ReverseName.exists_prefixLen?_of_block? h)

end IpBlock

namespace ResourceKey

theorem readAs?_render (r : AsRange) : readAs? (ResourceKey.asn r).render = some (.asn r) := by
  unfold readAs?
  by_cases hr : r.lo = r.hi
  · have hrender : (ResourceKey.asn r).render = AsNumber.render r.lo := if_pos hr
    rw [hrender, AsNumber.read_render]
    exact congrArg (fun range => some (ResourceKey.asn range)) (Interval.ext rfl hr)
  · have hrender : (ResourceKey.asn r).render = AsRange.render r := if_neg hr
    rw [hrender, AsRange.read_render]
    have hhyphen := AsRange.hyphen_mem_of_read (AsRange.read_render r)
    cases hnumber : AsNumber.read r.render with
    | error e => rfl
    | ok n => exact absurd hhyphen (AsNumber.hyphen_not_mem_of_read hnumber)

theorem s_mem_render (r : AsRange) : 'S' ∈ (ResourceKey.asn r).render := by
  by_cases hr : r.lo = r.hi
  · have hrender : (ResourceKey.asn r).render = AsNumber.render r.lo := if_pos hr
    rw [hrender]
    exact List.mem_cons_of_mem _ List.mem_cons_self
  · have hrender : (ResourceKey.asn r).render = AsRange.render r := if_neg hr
    rw [hrender]
    exact List.mem_cons_of_mem _ List.mem_cons_self

/-- A writable key is read back. -/
theorem read?_render {key : ResourceKey} (h : key.IsWritable) : read? key.render = some key := by
  unfold read?
  dsimp only
  rw [key.trim_render]
  match key, h with
  | .ip b, h =>
    have hread : IpBlock.read? (ResourceKey.ip b).render = some b := IpBlock.read?_render h
    rw [hread, Option.map_some, Option.some_or]
  | .asn r, _ =>
    rw [IpBlock.read?_eq_none_of_mem (s_mem_render r) (by decide), readAs?_render]
    rfl

theorem read_eq_ok_iff {t : Text} {key : ResourceKey} : read t = .ok key ↔ read? t = some key := by
  unfold read
  split <;> simp_all

theorem canonicalForm : CanonicalForm read render IsWritable := by
  apply CanonicalForm.of_read_render
  · exact fun key h => read_eq_ok_iff.mpr (read?_render h)
  · exact fun t key h => isWritable_of_read? (read_eq_ok_iff.mp h)

end ResourceKey

/-- Keys, IP blocks, AS numbers and ranges of them are read back from what is written for them, and
their written forms are canonical. The keys that can be written are those that can be read; they
include every IPv4 block, every prefix and every block that a reverse-DNS name delegates. -/
theorem canonicalForms :
    CanonicalForm ResourceKey.read ResourceKey.render ResourceKey.IsWritable ∧
    CanonicalForm IpBlock.read IpBlock.render IpBlock.IsWritable ∧
    CanonicalForm AsNumber.read AsNumber.render (fun _ => True) ∧
    CanonicalForm AsRange.read AsRange.render (fun _ => True) ∧
    (∀ b : Block 32, (IpBlock.v4 b).IsWritable) ∧
    (∀ (a : Ipv6) (len : Nat) (b : Block 128), Block.ofPrefix? a len = some b →
      (IpBlock.v6 b).IsWritable) ∧
    (∀ (name : Text) (b : IpBlock), ReverseName.block? name = some b → b.IsWritable) ∧
    ∀ r : AsRange, (ResourceKey.asn r).IsWritable :=
  ⟨ResourceKey.canonicalForm, IpBlock.canonicalForm, AsNumber.canonicalForm, AsRange.canonicalForm,
    fun _ => trivial, fun _ _ _ => IpBlock.isWritable_of_ofPrefix?,
    fun _ _ => IpBlock.isWritable_of_reverseName, fun _ => trivial⟩

example : (ResourceKey.read "as05 -AS5").toOption.map ResourceKey.render = some ("AS5" : Text) := by
  decide

end Whois

import Whois.Proofs.Block.ReverseEnds
import Whois.Proofs.Index.Space

/-!
Keys of number resources on machine words. A key is two words, and what reads, makes or writes keys
computes with them step by step. A step could leave the range of the words, cut a character or take
ends to be in order that are not. None does: each reader gives the key that is read with numbers, and
each key that can arise has its ends in order and is written as it is.
-/
namespace Whois

open Word

/-- A key as the ends of a block in one of the number spaces, in whatever order. -/
inductive WordKey where
  | v4 (ends : Ends 32)
  | v6 (ends : Ends 128)
  | asn (ends : Ends 32)
  deriving DecidableEq

namespace WordKey

variable {k : WordKey} {s : NumberSpace}

def ofEnds : (s : NumberSpace) → Ends s.width → WordKey
  | .ipv4, e => .v4 e
  | .ipv6, e => .v6 e
  | .asn, e => .asn e

def ofKey : ResourceKey → WordKey
  | .ip (.v4 b) => .v4 (.ofBlock b)
  | .ip (.v6 b) => .v6 (.ofBlock b)
  | .asn r => .asn (.ofBlock r)

/-- Whether the key begins where it ends, or before. -/
def InOrder : WordKey → Prop
  | .v4 e => e.InOrder
  | .v6 e => e.InOrder
  | .asn e => e.InOrder

theorem inOrder_ofEnds (e : Ends s.width) : (ofEnds s e).InOrder ↔ e.InOrder := by
  cases s <;> exact Iff.rfl

theorem inOrder_ofKey (key : ResourceKey) : (ofKey key).InOrder := by
  match key with
  | .ip (.v4 b) => exact Ends.inOrder_ofBlock b
  | .ip (.v6 b) => exact Ends.inOrder_ofBlock b
  | .asn r => exact Ends.inOrder_ofBlock r

/-- A key with its ends in order is one of the keys of number resources. -/
theorem InOrder.exists_eq_ofKey (h : k.InOrder) : ∃ key, k = ofKey key := by
  cases k with
  | v4 e =>
    obtain ⟨b, rfl⟩ := Ends.InOrder.exists_eq_ofBlock h
    exact ⟨.ip (.v4 b), rfl⟩
  | v6 e =>
    obtain ⟨b, rfl⟩ := Ends.InOrder.exists_eq_ofBlock h
    exact ⟨.ip (.v6 b), rfl⟩
  | asn e =>
    obtain ⟨b, rfl⟩ := Ends.InOrder.exists_eq_ofBlock h
    exact ⟨.asn b, rfl⟩

def readV4 (t : Text) : Except Stop WordKey :=
  match Text.cut? '-' t with
  | some (low, high) => (Ends.readRange Ipv4.read? low high).map .v4
  | none => (Ends.readPrefix Ipv4.read? t).map .v4

def readV6 (t : Text) : Except Stop WordKey := (Ends.readPrefix Ipv6.read? t).map .v6

def readIp (t : Text) : Except Stop WordKey := thenElse (readV4 t) .ok (readV6 t)

/-- The key of a reverse-DNS name. -/
def readReverse (name : Text) : Except Stop WordKey :=
  let name := if name.getLast? = some '.' then name.dropLast else name
  thenElse (beforeTail ".in-addr.arpa" name)
    (fun labels => (ReverseName.endsV4 (Text.split '.' labels)).map .v4)
    (thenElse (beforeTail ".ip6.arpa" name)
      (fun labels => (ReverseName.endsV6 (Text.split '.' labels)).map .v6)
      (.error .refused))

def readAsNumber (t : Text) : Except Stop (BitVec 32) := do
  let digits ← afterLead "AS" t
  let n ← orRefused (Text.below? (2 ^ 32) digits)
  return .ofFin n

def readAsRange (t : Text) : Except Stop WordKey :=
  match Text.cut? '-' t with
  | some (low, high) => do
    let lo ← readAsNumber (Text.trim low)
    let hi ← readAsNumber (Text.trim high)
    (Ends.ofBounds lo hi).map .asn
  | none => .error .refused

def read (t : Text) : Except Stop WordKey :=
  let t := Text.trim t
  thenElse (readIp t) .ok
    (thenElse (readAsNumber t) (fun n => .ok (.asn (.single n))) (readAsRange t))

theorem map_v4 (x : Option (Block 32)) : (orRefused (x.map Ends.ofBlock)).map v4 =
    orRefused ((x.map IpBlock.v4).map fun b => ofKey (.ip b)) := by
  cases x <;> rfl

theorem map_v6 (x : Option (Block 128)) : (orRefused (x.map Ends.ofBlock)).map v6 =
    orRefused ((x.map IpBlock.v6).map fun b => ofKey (.ip b)) := by
  cases x <;> rfl

theorem readV4_eq (t : Text) :
    readV4 t = orRefused ((IpBlock.readV4? t).map fun b => ofKey (.ip b)) := by
  unfold readV4 IpBlock.readV4?
  cases Text.cut? '-' t with
  | none =>
    dsimp only
    rw [Ends.readPrefix_eq (by decide), map_v4]
  | some parts =>
    dsimp only
    rw [Ends.readRange_eq, map_v4]

theorem readV6_eq (t : Text) :
    readV6 t = orRefused ((IpBlock.readV6? t).map fun b => ofKey (.ip b)) := by
  unfold readV6 IpBlock.readV6?
  rw [Ends.readPrefix_eq (by decide), map_v6]

theorem readIp_eq (t : Text) :
    readIp t = orRefused ((IpBlock.read? t).map fun b => ofKey (.ip b)) := by
  unfold readIp IpBlock.read?
  rw [readV4_eq, readV6_eq, thenElse_ok_orRefused, Option.map_or]

theorem readReverse_eq (name : Text) :
    readReverse name = orRefused ((ReverseName.block? name).map fun b => ofKey (.ip b)) := by
  unfold readReverse ReverseName.block?
  dsimp only
  generalize (if name.getLast? = some '.' then name.dropLast else name) = stem
  rw [beforeTail_eq, beforeTail_eq]
  cases Text.beforeTail? ".in-addr.arpa" stem with
  | some labels =>
    change (ReverseName.endsV4 (Text.split '.' labels)).map WordKey.v4 = _
    have hne : Text.split '.' labels ≠ [] := Text.splitWhere_ne_nil (· == '.') labels
    rw [ReverseName.endsV4_eq hne, map_v4]
  | none =>
    cases Text.beforeTail? ".ip6.arpa" stem with
    | some labels =>
      change (ReverseName.endsV6 (Text.split '.' labels)).map WordKey.v6 = _
      rw [ReverseName.endsV6_eq, map_v6]
    | none => rfl

theorem readAsNumber_eq (t : Text) :
    readAsNumber t = orRefused ((AsNumber.read t).toOption.map BitVec.ofFin) := by
  unfold readAsNumber AsNumber.read
  rw [afterLead_eq]
  cases Text.afterLead? "AS" t with
  | none => rfl
  | some digits =>
    simp only [orRefused, bind, Except.bind]
    cases Text.below? (2 ^ 32) digits <;> rfl

theorem readAsRange_eq (t : Text) :
    readAsRange t = orRefused ((AsRange.read t).toOption.map fun r => ofKey (.asn r)) := by
  unfold readAsRange AsRange.read
  cases Text.cut? '-' t with
  | none => rfl
  | some parts =>
    dsimp only
    rw [readAsNumber_eq, readAsNumber_eq]
    cases AsNumber.read (Text.trim parts.1) with
    | error misread => rfl
    | ok lo =>
      cases AsNumber.read (Text.trim parts.2) with
      | error misread => rfl
      | ok hi =>
        change (Ends.ofBounds (.ofFin lo) (.ofFin hi)).map WordKey.asn = _
        rw [Ends.ofBounds_ofFin, map_orRefused]
        simp only [bind, Except.bind]
        cases Interval.ofBounds? lo hi <;> rfl

theorem read_eq (t : Text) : read t = orRefused ((ResourceKey.read? t).map ofKey) := by
  unfold read ResourceKey.read? ResourceKey.readAs?
  dsimp only
  generalize Text.trim t = t
  rw [readIp_eq, readAsNumber_eq, readAsRange_eq]
  cases IpBlock.read? t with
  | some b => rfl
  | none =>
    cases AsNumber.read t with
    | ok n => rfl
    | error misread => cases AsRange.read t <;> rfl

def render : WordKey → Except Stop Text
  | .v4 e => e.render Ipv4.render
  | .v6 e => e.render Ipv6.render
  | .asn e => .ok (if e.lo = e.hi then AsNumber.render e.lo.toFin
      else AsNumber.render e.lo.toFin ++ " - " ++ AsNumber.render e.hi.toFin)

theorem render_ofKey (key : ResourceKey) : (ofKey key).render = .ok key.render := by
  match key with
  | .ip (.v4 b) => exact Ends.render_ofBlock (by decide) Ipv4.render b
  | .ip (.v6 b) => exact Ends.render_ofBlock (by decide) Ipv6.render b
  | .asn r =>
    change Except.ok (if BitVec.ofFin r.lo = BitVec.ofFin r.hi then AsNumber.render r.lo
      else AsRange.render r) = Except.ok (if r.lo = r.hi then AsNumber.render r.lo else _)
    by_cases h : r.lo = r.hi
    · rw [if_pos h, if_pos (congrArg BitVec.ofFin h)]
    · rw [if_neg h, if_neg (mt BitVec.ofFin.inj h)]

/-- A key arises where it is read from a text, or where it is made: around an address, of two ends, of
one number or of all. -/
inductive Arises : WordKey → Prop
  | readV4 {t : Text} {k : WordKey} (h : readV4 t = .ok k) : Arises k
  | readV6 {t : Text} {k : WordKey} (h : readV6 t = .ok k) : Arises k
  | readIp {t : Text} {k : WordKey} (h : readIp t = .ok k) : Arises k
  | readReverse {name : Text} {k : WordKey} (h : readReverse name = .ok k) : Arises k
  | readAsNumber {t : Text} {n : BitVec 32} (h : readAsNumber t = .ok n) :
      Arises (.asn (.single n))
  | readAsRange {t : Text} {k : WordKey} (h : readAsRange t = .ok k) : Arises k
  | read {t : Text} {k : WordKey} (h : read t = .ok k) : Arises k
  | ofPrefix {s : NumberSpace} {a : BitVec s.width} {len : Nat} {e : Ends s.width}
      (h : Ends.ofPrefix a len = .ok e) : Arises (ofEnds s e)
  | ofBounds {s : NumberSpace} {lo hi : BitVec s.width} {e : Ends s.width}
      (h : Ends.ofBounds lo hi = .ok e) : Arises (ofEnds s e)
  | single {s : NumberSpace} (a : BitVec s.width) : Arises (ofEnds s (.single a))
  | whole {s : NumberSpace} {e : Ends s.width} (h : Ends.whole s.width = .ok e) :
      Arises (ofEnds s e)

theorem inOrder_of_orRefused {α : Type} {f : α → ResourceKey} {x : Option α}
    (h : orRefused (x.map fun a => ofKey (f a)) = .ok k) : k.InOrder := by
  cases x with
  | none => cases h
  | some a =>
    cases h
    exact inOrder_ofKey (f a)

theorem Arises.inOrder (h : Arises k) : k.InOrder := by
  cases h with
  | readV4 h => exact inOrder_of_orRefused (readV4_eq _ ▸ h)
  | readV6 h => exact inOrder_of_orRefused (readV6_eq _ ▸ h)
  | readIp h => exact inOrder_of_orRefused (readIp_eq _ ▸ h)
  | readReverse h => exact inOrder_of_orRefused (readReverse_eq _ ▸ h)
  | readAsNumber h => exact Ends.inOrder_single _
  | readAsRange h => exact inOrder_of_orRefused (readAsRange_eq _ ▸ h)
  | read h => exact inOrder_of_orRefused (f := id) (read_eq _ ▸ h)
  | ofPrefix h => exact (inOrder_ofEnds _).mpr (Ends.inOrder_of_ofPrefix h)
  | ofBounds h => exact (inOrder_ofEnds _).mpr (Ends.inOrder_of_ofBounds h)
  | single a => exact (inOrder_ofEnds _).mpr (Ends.inOrder_single a)
  | whole h => exact (inOrder_ofEnds _).mpr (Ends.inOrder_of_whole h)

/-- No arithmetic of keys can fail. Whatever is read, words give what numbers give, and are refused only
where there is no such key; prefixes, ends and whole spaces come out as they are; and the length of a
prefix overflows exactly for ends in the wrong order. No key arises with such ends, so that every one is
written. -/
theorem arithmetic_total :
    (∀ t : Text,
      readV4 t = orRefused ((IpBlock.readV4? t).map fun b => ofKey (.ip b)) ∧
      readV6 t = orRefused ((IpBlock.readV6? t).map fun b => ofKey (.ip b)) ∧
      readIp t = orRefused ((IpBlock.read? t).map fun b => ofKey (.ip b)) ∧
      readReverse t = orRefused ((ReverseName.block? t).map fun b => ofKey (.ip b)) ∧
      readAsNumber t = orRefused ((AsNumber.read t).toOption.map .ofFin) ∧
      readAsRange t = orRefused ((AsRange.read t).toOption.map fun r => ofKey (.asn r)) ∧
      read t = orRefused ((ResourceKey.read? t).map ofKey)) ∧
    (∀ s : NumberSpace,
      (∀ (a : Number s.width) (len : Nat),
        Ends.ofPrefix (.ofFin a) len = orRefused ((Block.ofPrefix? a len).map .ofBlock)) ∧
      (∀ lo hi : Number s.width,
        Ends.ofBounds (.ofFin lo) (.ofFin hi) =
          orRefused ((Interval.ofBounds? lo hi).map .ofBlock)) ∧
      Ends.whole s.width = .ok (.ofBlock (Block.whole s.width)) ∧
      ∀ e : Ends s.width, e.prefixLen = .error .overflow ↔ ¬ e.InOrder) ∧
    ∀ k : WordKey, Arises k → k.InOrder ∧ ∃ key, k = ofKey key ∧ k.render = .ok key.render := by
  refine ⟨?_, ?_, ?_⟩
  · intro t
    exact ⟨readV4_eq t, readV6_eq t, readIp_eq t, readReverse_eq t, readAsNumber_eq t,
      readAsRange_eq t, read_eq t⟩
  · intro s
    exact ⟨Ends.ofPrefix_eq, Ends.ofBounds_ofFin, Ends.whole_eq s.width,
      fun _ => Ends.prefixLen_eq_overflow_iff⟩
  · intro k h
    obtain ⟨key, rfl⟩ := h.inOrder.exists_eq_ofKey
    exact ⟨h.inOrder, key, rfl, render_ofKey key⟩

/-- The keys of a name with a range, of all IPv6 addresses and of all AS numbers, and the prefix of
length zero around the last IPv4 address. -/
theorem arithmetic_total_extremes :
    ∃ octets v6 asn : WordKey, ∃ v4 : Ends 32,
      (readReverse "128-255.255.255.255.in-addr.arpa" = .ok octets ∧ octets.InOrder ∧
        octets.render = .ok "255.255.255.128/25") ∧
      (read "::/0" = .ok v6 ∧ v6.InOrder ∧ v6.render = .ok "::/0") ∧
      (read "AS0 - AS4294967295" = .ok asn ∧ asn.InOrder) ∧
      (Ends.ofPrefix (BitVec.allOnes 32) 0 = .ok v4 ∧ (WordKey.v4 v4).InOrder ∧
        v4.prefixLen = .ok 0#8) := by
  obtain ⟨_, _, harises⟩ := arithmetic_total
  have hoctets : readReverse "128-255.255.255.255.in-addr.arpa" =
      .ok (.v4 ⟨0xFFFFFF80#32, 0xFFFFFFFF#32⟩) := by rfl
  have hv6 : read "::/0" = .ok (.v6 ⟨0#128, BitVec.allOnes 128⟩) := by rfl
  have hasn : read "AS0 - AS4294967295" = .ok (.asn ⟨0#32, BitVec.allOnes 32⟩) := by rfl
  have hv4 : Ends.ofPrefix (BitVec.allOnes 32) 0 = .ok ⟨0#32, BitVec.allOnes 32⟩ := by rfl
  refine ⟨_, _, _, _, ⟨hoctets, (harises _ (.readReverse hoctets)).1, ?_⟩,
    ⟨hv6, (harises _ (.read hv6)).1, ?_⟩, ⟨hasn, (harises _ (.read hasn)).1⟩,
    hv4, (harises _ (.ofPrefix (s := .ipv4) hv4)).1, ?_⟩
  · decide +kernel
  · decide +kernel
  · decide +kernel

end WordKey

end Whois

import Whois.Index.Basic
import Whois.Proofs.Index.Layer

/-!
The three number spaces, each with its blocks and its layer of an index. What holds of one layer and
its blocks is carried to the index and its keys here, once for all spaces. Listing order is a total
order of the keys: first the space counts, then the start and last the end.
-/
namespace Whois

inductive NumberSpace where
  | ipv4 | ipv6 | asn
  deriving DecidableEq, Repr

namespace NumberSpace

/-- In listing order. -/
def all : List NumberSpace := [.ipv4, .ipv6, .asn]

theorem mem_all (s : NumberSpace) : s ∈ all := by cases s <;> decide

def width : NumberSpace → Nat
  | .ipv4 => 32
  | .ipv6 => 128
  | .asn => 32

end NumberSpace

namespace ResourceKey

def ofBlock : (s : NumberSpace) → Block s.width → ResourceKey
  | .ipv4, b => .ip (.v4 b)
  | .ipv6, b => .ip (.v6 b)
  | .asn, r => .asn r

/-- Every key is a block of one of the number spaces. -/
theorem exists_eq_ofBlock (key : ResourceKey) :
    ∃ (s : NumberSpace) (b : Block s.width), key = ofBlock s b := by
  match key with
  | .ip (.v4 b) => exact ⟨.ipv4, b, rfl⟩
  | .ip (.v6 b) => exact ⟨.ipv6, b, rfl⟩
  | .asn r => exact ⟨.asn, r, rfl⟩

variable {s s' : NumberSpace}

theorem ofBlock_inj {a b : Block s.width} : ofBlock s a = ofBlock s b ↔ a = b := by
  refine ⟨fun h => ?_, congrArg _⟩
  cases s with
  | ipv4 => exact IpBlock.v4.inj (ResourceKey.ip.inj h)
  | ipv6 => exact IpBlock.v6.inj (ResourceKey.ip.inj h)
  | asn => exact ResourceKey.asn.inj h

theorem ofBlock_ne_ofBlock (h : s ≠ s') (a : Block s.width) (b : Block s'.width) :
    ofBlock s a ≠ ofBlock s' b := by
  cases s <;> cases s' <;> simp_all [ofBlock]

theorem contains_ofBlock (a b : Block s.width) :
    (ofBlock s a).contains (ofBlock s b) = Interval.contains a b := by
  cases s <;> rfl

theorem contains_ofBlock_of_ne (h : s ≠ s') (a : Block s.width) (b : Block s'.width) :
    (ofBlock s a).contains (ofBlock s' b) = false := by
  cases s <;> cases s' <;> first | rfl | exact absurd rfl h

theorem contains_self (a : ResourceKey) : a.contains a = true := by
  obtain ⟨s, a, rfl⟩ := a.exists_eq_ofBlock
  rw [contains_ofBlock]
  exact Interval.contains_self a

theorem contains_trans {a b c : ResourceKey} (hab : a.contains b = true)
    (hbc : b.contains c = true) : a.contains c = true := by
  obtain ⟨s, a, rfl⟩ := a.exists_eq_ofBlock
  obtain ⟨s', b, rfl⟩ := b.exists_eq_ofBlock
  obtain ⟨s'', c, rfl⟩ := c.exists_eq_ofBlock
  by_cases hs : s = s'
  · subst hs
    by_cases hs' : s = s''
    · subst hs'
      rw [contains_ofBlock] at *
      exact Interval.contains_trans hab hbc
    · rw [contains_ofBlock_of_ne hs'] at hbc
      cases hbc
  · rw [contains_ofBlock_of_ne hs] at hab
    cases hab

/-- The number space that a key is a block of. -/
def space : ResourceKey → NumberSpace
  | .ip (.v4 _) => .ipv4
  | .ip (.v6 _) => .ipv6
  | .asn _ => .asn

theorem space_ofBlock (b : Block s.width) : (ofBlock s b).space = s := by
  cases s <;> rfl

/-- Keys of two number spaces never contain each other. -/
theorem space_eq_of_contains {a b : ResourceKey} (h : a.contains b = true) : a.space = b.space := by
  obtain ⟨s, a, rfl⟩ := a.exists_eq_ofBlock
  obtain ⟨s', b, rfl⟩ := b.exists_eq_ofBlock
  rw [space_ofBlock, space_ofBlock]
  by_contra hs
  rw [contains_ofBlock_of_ne hs] at h
  cases h

theorem isWhole_ofBlock (b : Block s.width) : (ofBlock s b).isWhole = Block.isWhole b := by
  cases s <;> rfl

theorem cmp_ofBlock (a b : Block s.width) :
    (ofBlock s a).cmp (ofBlock s b) = Interval.cmp a b := by
  cases s <;> rfl

/-- Whether `b` lies in `a` and is not `a`. -/
def strictlyContains (a b : ResourceKey) : Bool := a.contains b && decide (a ≠ b)

theorem strictlyContains_ofBlock (a b : Block s.width) :
    (ofBlock s a).strictlyContains (ofBlock s b) = Interval.strictlyContains a b := by
  simp [strictlyContains, Interval.strictlyContains, contains_ofBlock, ofBlock_inj]

theorem strictlyContains_ofBlock_of_ne (h : s ≠ s') (a : Block s.width) (b : Block s'.width) :
    (ofBlock s a).strictlyContains (ofBlock s' b) = false := by
  simp [strictlyContains, contains_ofBlock_of_ne h]

/-- The keys of one space come before those of the next. -/
theorem spaces_pairwise : NumberSpace.all.Pairwise fun s s' =>
    ∀ (a : Block s.width) (b : Block s'.width), (ofBlock s a).cmp (ofBlock s' b) = .lt := by
  simp [NumberSpace.all, ofBlock, cmp, IpBlock.cmp]

/-- The number space of a key, its start and its end. -/
def place : ResourceKey → Nat × Nat × Nat
  | .ip (.v4 b) => (0, b.lo.val, b.hi.val)
  | .ip (.v6 b) => (1, b.lo.val, b.hi.val)
  | .asn r => (2, r.lo.val, r.hi.val)

theorem place_ofBlock (b : Block s.width) :
    (ofBlock s b).place.2 = (b.lo.val, b.hi.val) := by
  cases s <;> rfl

theorem place_ofBlock_eq_iff (a : Block s.width) (b : Block s'.width) :
    (ofBlock s a).place.1 = (ofBlock s' b).place.1 ↔ s = s' := by
  cases s <;> cases s' <;> simp [ofBlock, place]

theorem cmp_ofBlock_of_ne (h : s ≠ s') (a : Block s.width) (b : Block s'.width) :
    (ofBlock s a).cmp (ofBlock s' b) = .lt ↔ (ofBlock s a).place.1 < (ofBlock s' b).place.1 := by
  cases s <;> cases s' <;> simp_all [ofBlock, cmp, IpBlock.cmp, place]

variable {a b c : ResourceKey}

/-- Of two keys of one space, the earlier start comes first, then the later end. -/
theorem cmp_eq_lt_iff : a.cmp b = .lt ↔ a.place.1 < b.place.1 ∨ a.place.1 = b.place.1 ∧
    (a.place.2.1 < b.place.2.1 ∨ a.place.2.1 = b.place.2.1 ∧ b.place.2.2 < a.place.2.2) := by
  obtain ⟨s, a, rfl⟩ := a.exists_eq_ofBlock
  obtain ⟨s', b, rfl⟩ := b.exists_eq_ofBlock
  rw [place_ofBlock_eq_iff, place_ofBlock, place_ofBlock]
  by_cases hs : s = s'
  · subst hs
    have hspace := (place_ofBlock_eq_iff a b).mpr rfl
    rw [cmp_ofBlock, Interval.cmp_eq_lt_iff, Interval.before_iff, Fin.lt_def, Fin.lt_def,
      Fin.ext_iff]
    simp [hspace]
  · rw [cmp_ofBlock_of_ne hs]
    simp [hs]

theorem eq_of_place_eq (h : a.place = b.place) : a = b := by
  obtain ⟨s, a, rfl⟩ := a.exists_eq_ofBlock
  obtain ⟨s', b, rfl⟩ := b.exists_eq_ofBlock
  have hs : s = s' := (place_ofBlock_eq_iff a b).mp (congrArg Prod.fst h)
  subst hs
  have hends := congrArg Prod.snd h
  rw [place_ofBlock, place_ofBlock, Prod.mk.injEq] at hends
  rw [ofBlock_inj]
  exact Interval.ext (Fin.ext hends.1) (Fin.ext hends.2)

theorem cmp_trans (hab : a.cmp b = .lt) (hbc : b.cmp c = .lt) : a.cmp c = .lt := by
  rw [cmp_eq_lt_iff] at *
  omega

theorem cmp_lt_or_eq_or_lt (a b : ResourceKey) : a.cmp b = .lt ∨ a = b ∨ b.cmp a = .lt := by
  by_cases h : a.place = b.place
  · exact .inr (.inl (eq_of_place_eq h))
  · rw [Prod.ext_iff, Prod.ext_iff] at h
    rw [cmp_eq_lt_iff, cmp_eq_lt_iff]
    omega

theorem cmp_eq_gt_iff : a.cmp b = .gt ↔ b.cmp a = .lt := by
  obtain ⟨s, a, rfl⟩ := a.exists_eq_ofBlock
  obtain ⟨s', b, rfl⟩ := b.exists_eq_ofBlock
  by_cases hs : s = s'
  · subst hs
    rw [cmp_ofBlock, cmp_ofBlock, Interval.cmp_eq_gt_iff, Interval.cmp_eq_lt_iff]
  · cases s <;> cases s' <;> simp_all [ofBlock, cmp, IpBlock.cmp]

theorem not_cmp_of_cmp (h : a.cmp b = .lt) : b.cmp a ≠ .lt := by
  rw [ne_eq, cmp_eq_lt_iff]
  rw [cmp_eq_lt_iff] at h
  omega

/-- A key comes before the keys that it contains. -/
theorem cmp_of_contains (h : a.contains b = true) (hne : a ≠ b) : a.cmp b = .lt := by
  obtain ⟨s, a, rfl⟩ := a.exists_eq_ofBlock
  obtain ⟨s', b, rfl⟩ := b.exists_eq_ofBlock
  by_cases hs : s = s'
  · subst hs
    rw [contains_ofBlock] at h
    have hab : a ≠ b := fun heq => hne (congrArg _ heq)
    rw [cmp_ofBlock, Interval.cmp_eq_lt_iff]
    exact Interval.before_of_contains h hab
  · rw [contains_ofBlock_of_ne hs] at h
    cases h

/-- No key lies in one that comes after it. -/
theorem contains_eq_false_of_cmp (h : a.cmp b = .lt) : b.contains a = false := by
  rw [Bool.eq_false_iff]
  intro hin
  have hne : b ≠ a := by
    rintro rfl
    exact not_cmp_of_cmp h h
  exact not_cmp_of_cmp h (cmp_of_contains hin hne)

end ResourceKey

namespace Index

variable {α : Type}

def layer (i : Index α) : (s : NumberSpace) → Layer s.width α
  | .ipv4 => i.v4
  | .ipv6 => i.v6
  | .asn => i.asn

/-- The blocks that have values, in listing order. -/
def keys (i : Index α) : List ResourceKey :=
  NumberSpace.all.flatMap fun s => (i.layer s).blocks.map (ResourceKey.ofBlock s)

def Listed (i : Index α) : Prop := ∀ s, (i.layer s).Listed

variable {i : Index α} {s : NumberSpace}

theorem valuesAt_ofBlock (b : Block s.width) :
    i.valuesAt (.ofBlock s b) = (i.layer s).valuesAt b := by
  cases s <;> rfl

theorem lookup_ofBlock [DecidableEq α] (b : Block s.width) (op : MatchOperation) :
    i.lookup (.ofBlock s b) op = (i.layer s).lookup b op := by
  cases s <;> rfl

theorem mem_keys_ofBlock {b : Block s.width} :
    .ofBlock s b ∈ i.keys ↔ b ∈ (i.layer s).blocks := by
  simp only [keys, List.mem_flatMap, List.mem_map]
  constructor
  · rintro ⟨s', _, b', hb', heq⟩
    by_cases hs : s' = s
    · subst hs
      rwa [← ResourceKey.ofBlock_inj.mp heq]
    · exact absurd heq (ResourceKey.ofBlock_ne_ofBlock hs b' b)
  · intro hb
    exact ⟨s, s.mem_all, b, hb, rfl⟩

/-- A selection of keys of one space is a selection of the blocks of its layer. -/
theorem filter_keys {p : ResourceKey → Bool}
    (h : ∀ (s' : NumberSpace) (b : Block s'.width), s' ≠ s → p (.ofBlock s' b) = false) :
    i.keys.filter p =
      ((i.layer s).blocks.filter fun b => p (.ofBlock s b)).map (.ofBlock s) := by
  have hnone : ∀ s', s' ≠ s →
      ((i.layer s').blocks.map (ResourceKey.ofBlock s')).filter p = [] := by
    intro s' hne
    rw [List.filter_eq_nil_iff]
    intro key hkey
    obtain ⟨b, _, rfl⟩ := List.mem_map.mp hkey
    simp [h s' b hne]
  have hsome : ((i.layer s).blocks.map (ResourceKey.ofBlock s)).filter p =
      ((i.layer s).blocks.filter fun b => p (.ofBlock s b)).map (.ofBlock s) := by
    rw [List.filter_map]
    rfl
  rw [← hsome]
  cases s <;>
    simp only [keys, NumberSpace.all, List.flatMap_cons, List.flatMap_nil, List.append_nil,
      List.filter_append] <;>
    simp [hnone]

theorem keys_pairwise (h : i.Listed) : i.keys.Pairwise fun a b => a.cmp b = .lt := by
  refine List.pairwise_flatMap.mpr ⟨fun s _ => ?_, ?_⟩
  · rw [List.pairwise_map]
    refine (Layer.blocks_pairwise (h s)).imp ?_
    intro a b hab
    rw [ResourceKey.cmp_ofBlock]
    simp [Interval.cmp, hab]
  · refine ResourceKey.spaces_pairwise.imp ?_
    intro s s' hs a ha b hb
    obtain ⟨a, _, rfl⟩ := List.mem_map.mp ha
    obtain ⟨b, _, rfl⟩ := List.mem_map.mp hb
    exact hs a b

end Index

end Whois

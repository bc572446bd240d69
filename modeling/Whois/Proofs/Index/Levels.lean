import Whois.Proofs.Index.Restriction

/-!
Walks that are repeated level by level. Where each block holds its own key, an operation finds
blocks, and can be started again from each of them. Repeated steps down find every block inside a
key, and repeated steps up find the blocks around it one by one, if no two blocks overlap without
one containing the other.
-/
namespace Whois

namespace Interval

variable {α : Type} [LE α] [DecidableLE α]

/-- Whether two intervals have a value in common. -/
def meets (a b : Interval α) : Bool := decide (a.lo ≤ b.hi) && decide (b.lo ≤ a.hi)

theorem meets_of_contains [Std.IsLinearOrder α] {a b c : Interval α} (ha : a.contains c = true)
    (hb : b.contains c = true) : a.meets b = true := by
  rw [contains_iff] at ha hb
  have hab : a.lo ≤ b.hi := Std.le_trans ha.1 (Std.le_trans c.lo_le_hi hb.2)
  have hba : b.lo ≤ a.hi := Std.le_trans hb.1 (Std.le_trans c.lo_le_hi ha.2)
  simp [meets, hab, hba]

end Interval

theorem Block.size_lt_of_strictlyContains {w : Nat} {a b : Block w}
    (h : a.strictlyContains b = true) : b.size < a.size := by
  rw [Interval.strictlyContains_iff, Interval.contains_iff, ne_eq, Interval.ext_iff, Fin.ext_iff,
    Fin.ext_iff, Fin.le_def, Fin.le_def] at h
  obtain ⟨⟨hlo, hhi⟩, hne⟩ := h
  have hle : b.lo.val ≤ b.hi.val := b.lo_le_hi
  unfold Block.size
  omega

namespace ResourceKey

variable {a b c : ResourceKey}

/-- Whether two keys have a number in common. -/
def meets : (a b : ResourceKey) → Bool
  | .ip (.v4 a), .ip (.v4 b) => Interval.meets a b
  | .ip (.v6 a), .ip (.v6 b) => Interval.meets a b
  | .asn a, .asn b => Interval.meets a b
  | _, _ => false

theorem meets_ofBlock {s : NumberSpace} (a b : Block s.width) :
    (ofBlock s a).meets (ofBlock s b) = Interval.meets a b := by
  cases s <;> rfl

theorem meets_of_contains (ha : a.contains c = true) (hb : b.contains c = true) :
    a.meets b = true := by
  obtain ⟨s, a, rfl⟩ := a.exists_eq_ofBlock
  obtain ⟨s', b, rfl⟩ := b.exists_eq_ofBlock
  obtain ⟨s'', c, rfl⟩ := c.exists_eq_ofBlock
  by_cases hs : s = s''
  · subst hs
    by_cases hs' : s' = s
    · subst hs'
      rw [contains_ofBlock] at ha hb
      rw [meets_ofBlock]
      exact Interval.meets_of_contains ha hb
    · rw [contains_ofBlock_of_ne hs'] at hb
      cases hb
  · rw [contains_ofBlock_of_ne hs] at ha
    cases ha

/-- How many numbers a key holds. -/
def size : ResourceKey → Nat
  | .ip (.v4 b) => Block.size b
  | .ip (.v6 b) => Block.size b
  | .asn r => Block.size r

theorem size_ofBlock {s : NumberSpace} (b : Block s.width) : (ofBlock s b).size = b.size := by
  cases s <;> rfl

theorem strictlyContains_iff : a.strictlyContains b = true ↔ a.contains b = true ∧ a ≠ b := by
  simp [strictlyContains]

theorem size_lt_of_strictlyContains (h : a.strictlyContains b = true) : b.size < a.size := by
  obtain ⟨s, a, rfl⟩ := a.exists_eq_ofBlock
  obtain ⟨s', b, rfl⟩ := b.exists_eq_ofBlock
  by_cases hs : s = s'
  · subst hs
    rw [strictlyContains_ofBlock] at h
    rw [size_ofBlock, size_ofBlock]
    exact Block.size_lt_of_strictlyContains h
  · rw [strictlyContains_ofBlock_of_ne hs] at h
    cases h

theorem strictlyContains_of_contains (hab : a.contains b = true)
    (hbc : b.strictlyContains c = true) : a.strictlyContains c = true := by
  obtain ⟨hin, hne⟩ := strictlyContains_iff.mp hbc
  refine strictlyContains_iff.mpr ⟨contains_trans hab hin, ?_⟩
  rintro rfl
  exact not_cmp_of_cmp (cmp_of_contains hin hne) (cmp_of_contains hab hne.symm)

theorem strictlyContains_trans (hab : a.strictlyContains b = true)
    (hbc : b.strictlyContains c = true) : a.strictlyContains c = true :=
  strictlyContains_of_contains (strictlyContains_iff.mp hab).1 hbc

end ResourceKey

namespace Index

/-- The index in which each of some blocks holds its own key. -/
def ofKeys (keys : List ResourceKey) : Index ResourceKey :=
  ofList (keys.map fun key => (key, key))

theorem mem_keys_ofKeys {keys : List ResourceKey} {b : ResourceKey} :
    b ∈ (ofKeys keys).keys ↔ b ∈ keys := by
  unfold ofKeys
  rw [mem_keys_ofList]
  simp

theorem valuesAt_ofKeys {keys : List ResourceKey} {b : ResourceKey} (h : b ∈ keys) :
    (ofKeys keys).valuesAt b = [b] := by
  have hmem : ∀ v, v ∈ valuesUnder (keys.map fun key => (key, key)) b ↔ v ∈ [b] := by
    intro v
    rw [mem_valuesUnder, List.mem_singleton]
    constructor
    · intro hv
      obtain ⟨k, _, hk⟩ := List.mem_map.mp hv
      cases hk
      rfl
    · rintro rfl
      exact List.mem_map.mpr ⟨v, h, rfl⟩
  have hperm := (List.perm_ext_iff_of_nodup (nodup_eraseDups _) (List.nodup_singleton b)).mpr hmem
  unfold ofKeys
  rw [valuesAt_ofList]
  exact List.perm_singleton.mp hperm

section Blocks
variable {blocks : List ResourceKey} {key b c : ResourceKey} {op : MatchOperation}

theorem mem_of_mem_reach (h : b ∈ reach blocks key op) : b ∈ blocks := by
  have hlast : ∀ {p : ResourceKey → Bool}, b ∈ (blocks.filter p).getLast?.toList → b ∈ blocks :=
    fun hb => List.mem_of_mem_filter (List.mem_of_getLast? (Option.mem_toList.mp hb))
  cases op with
  | exact => exact List.mem_of_mem_filter h
  | oneLess => exact hlast h
  | exactOrOneLess =>
    simp only [reach] at h
    split at h
    next hkey => rwa [List.mem_singleton.mp h]
    next => exact hlast h
  | allLess => exact List.mem_of_mem_filter h
  | oneMore => exact List.mem_of_mem_filter h
  | allMore => exact List.mem_of_mem_filter h

theorem nodup_reach (h : blocks.Nodup) : (reach blocks key op).Nodup := by
  have htoList : ∀ nearest : Option ResourceKey, nearest.toList.Nodup := by
    intro nearest
    cases nearest <;> simp
  cases op with
  | exact => exact h.filter _
  | oneLess => exact htoList _
  | exactOrOneLess =>
    obtain ⟨nearest, hreach⟩ := reach_of_isNearest (.inr rfl) blocks key
    rw [hreach]
    exact htoList nearest
  | allLess => exact h.filter _
  | oneMore => exact h.filter _
  | allMore => exact h.filter _

end Blocks

/-- Where each block holds its own key, an operation finds the blocks that it reaches. -/
theorem lookup_ofKeys (keys : List ResourceKey) (key : ResourceKey) (op : MatchOperation) :
    (ofKeys keys).lookup key op = reach (ofKeys keys).keys key op := by
  have hlisted : (ofKeys keys).Listed := listed_ofList _
  have hnodup := ResourceKey.nodup_of_sorted (keys_pairwise hlisted)
  have hvalues : (reach (ofKeys keys).keys key op).flatMap (ofKeys keys).valuesAt =
      (reach (ofKeys keys).keys key op).flatMap fun b => [b] := by
    apply List.flatMap_congr
    intro b hb
    exact valuesAt_ofKeys (mem_keys_ofKeys.mp (mem_of_mem_reach hb))
  rw [lookup_eq hlisted, hvalues, List.flatMap_singleton', eraseDups_of_nodup (nodup_reach hnodup)]

/-- The levels that are found when a step is repeated from every block of the level before, until it
finds nothing. -/
inductive Levels (step : ResourceKey → List ResourceKey) :
    (level : List ResourceKey) → (next : List (List ResourceKey)) → Prop
  | stop {level : List ResourceKey} (h : level.flatMap step = []) : Levels step level []
  | step {level : List ResourceKey} {next : List (List ResourceKey)} (h : level.flatMap step ≠ [])
      (hnext : Levels step (level.flatMap step) next) :
    Levels step level (level.flatMap step :: next)

section Blocks
variable {blocks : List ResourceKey} {key b : ResourceKey}

/-- Of the blocks that contain a key the last is the nearest. -/
theorem reach_exactOrOneLess (hsorted : blocks.Pairwise fun a b => a.cmp b = .lt)
    (key : ResourceKey) :
    reach blocks key .exactOrOneLess = (reach blocks key .allLess).getLast?.toList := by
  unfold reach
  by_cases hkey : key ∈ blocks
  · have hlast : (blocks.filter fun b => decide (b = key)).getLast? =
        (blocks.filter (·.contains key)).getLast? := by
      apply getLast?_filter_of_imp
      · intro b hb
        rw [of_decide_eq_true hb]
        exact key.contains_self
      · intro b hb
        -- The key is listed after all that contain it, so only itself can be the last.
        by_contra hne
        have hne : b ≠ key := by simpa using hne
        obtain ⟨earlier, hsplit⟩ := List.getLast?_eq_some_iff.mp hb
        have hin : b.contains key = true := (List.mem_filter.mp (List.mem_of_getLast? hb)).2
        have hmem : key ∈ blocks.filter (·.contains key) :=
          List.mem_filter.mpr ⟨hkey, key.contains_self⟩
        have hpairs := hsorted.filter (·.contains key)
        rw [hsplit] at hmem hpairs
        have hearlier : key ∈ earlier := by
          rw [List.mem_append, List.mem_singleton] at hmem
          exact hmem.resolve_right (Ne.symm hne)
        have hafter := (List.pairwise_append.mp hpairs).2.2 key hearlier b (by simp)
        exact ResourceKey.not_cmp_of_cmp hafter (ResourceKey.cmp_of_contains hin hne)
    rw [if_pos hkey, ← hlast, filter_eq_of_mem hsorted hkey]
    rfl
  · have hstrict : blocks.filter (·.strictlyContains key) = blocks.filter (·.contains key) := by
      apply List.filter_congr
      intro b hb
      have hne : b ≠ key := fun heq => hkey (heq ▸ hb)
      simp [ResourceKey.strictlyContains, hne]
    rw [if_neg hkey, hstrict]

/-- A block lies inside a key if it is on the first level below it or inside a block there. -/
theorem mem_reach_allMore_iff (hsorted : blocks.Pairwise fun a b => a.cmp b = .lt) :
    b ∈ reach blocks key .allMore ↔
      ∃ c ∈ reach blocks key .oneMore, b = c ∨ b ∈ reach blocks c .allMore := by
  constructor
  · intro hb
    obtain ⟨hmem, hin⟩ := List.mem_filter.mp hb
    obtain ⟨c, hc, hcb⟩ := exists_oneMore_contains hsorted hmem hin
    refine ⟨c, hc, ?_⟩
    by_cases hbc : b = c
    · exact .inl hbc
    · right
      exact List.mem_filter.mpr
        ⟨hmem, ResourceKey.strictlyContains_iff.mpr ⟨hcb, Ne.symm hbc⟩⟩
  · rintro ⟨c, hc, hb⟩
    obtain ⟨hcmem, hfirst⟩ := List.mem_filter.mp hc
    have hfirst : FirstLevelIn blocks key c := of_decide_eq_true hfirst
    rcases hb with rfl | hb
    · exact List.mem_filter.mpr ⟨hcmem, hfirst.1⟩
    · obtain ⟨hmem, hin⟩ := List.mem_filter.mp hb
      exact List.mem_filter.mpr ⟨hmem, ResourceKey.strictlyContains_trans hfirst.1 hin⟩

theorem size_lt_of_mem_oneMore (h : b ∈ reach blocks key .oneMore) : b.size < key.size := by
  have hfirst : FirstLevelIn blocks key b := of_decide_eq_true (List.mem_filter.mp h).2
  exact ResourceKey.size_lt_of_strictlyContains hfirst.1

/-- Step by step down every block inside a level is found. The walk ends, since from level to level
the blocks get smaller. -/
theorem exists_levels_oneMore (hsorted : blocks.Pairwise fun a b => a.cmp b = .lt)
    {level : List ResourceKey} {n : Nat} (hsize : ∀ a ∈ level, a.size < n) :
    ∃ levels, Levels (reach blocks · .oneMore) level levels ∧
      ∀ b, b ∈ levels.flatten ↔ ∃ a ∈ level, b ∈ reach blocks a .allMore := by
  induction n generalizing level with
  | zero =>
    have hempty : level = [] := List.eq_nil_iff_forall_not_mem.mpr fun a ha =>
      Nat.not_lt_zero _ (hsize a ha)
    subst hempty
    exact ⟨[], .stop rfl, by simp⟩
  | succ n ih =>
    have hnext : ∀ b, (∃ a ∈ level, b ∈ reach blocks a .allMore) ↔
        ∃ c ∈ level.flatMap (reach blocks · .oneMore), b = c ∨ b ∈ reach blocks c .allMore := by
      intro b
      constructor
      · rintro ⟨a, ha, hb⟩
        obtain ⟨c, hc, hb⟩ := (mem_reach_allMore_iff hsorted).mp hb
        exact ⟨c, List.mem_flatMap.mpr ⟨a, ha, hc⟩, hb⟩
      · rintro ⟨c, hc, hb⟩
        obtain ⟨a, ha, hc⟩ := List.mem_flatMap.mp hc
        exact ⟨a, ha, (mem_reach_allMore_iff hsorted).mpr ⟨c, hc, hb⟩⟩
    simp only [hnext]
    by_cases hnone : level.flatMap (reach blocks · .oneMore) = []
    · refine ⟨[], .stop hnone, ?_⟩
      rw [hnone]
      simp
    · have hsmaller : ∀ c ∈ level.flatMap (reach blocks · .oneMore), c.size < n := by
        intro c hc
        obtain ⟨a, ha, hc⟩ := List.mem_flatMap.mp hc
        have hlt := size_lt_of_mem_oneMore hc
        have hle := hsize a ha
        omega
      obtain ⟨levels, hlevels, hmem⟩ := ih hsmaller
      refine ⟨_ :: levels, .step hnone hlevels, ?_⟩
      intro b
      rw [List.flatten_cons, List.mem_append, hmem]
      constructor
      · rintro (hb | ⟨c, hc, hb⟩)
        · exact ⟨b, hb, .inl rfl⟩
        · exact ⟨c, hc, .inr hb⟩
      · rintro ⟨c, hc, rfl | hb⟩
        · exact .inl hc
        · exact .inr ⟨c, hc, hb⟩

/-- Whether of any two blocks one contains the other, or they have nothing in common. -/
def IsHierarchy (blocks : List ResourceKey) : Prop :=
  ∀ a ∈ blocks, ∀ b ∈ blocks, a.contains b = true ∨ b.contains a = true ∨ a.meets b = false

instance (blocks : List ResourceKey) : Decidable (IsHierarchy blocks) :=
  inferInstanceAs (Decidable (∀ a ∈ blocks, ∀ b ∈ blocks, _ ∨ _ ∨ _))

/-- The blocks around the nearest block around a key are the other blocks around the key. -/
theorem filter_strictlyContains_of_getLast? (hsorted : blocks.Pairwise fun a b => a.cmp b = .lt)
    (hblocks : IsHierarchy blocks) {outer : List ResourceKey}
    (hlast : blocks.filter (·.strictlyContains key) = outer ++ [b]) :
    blocks.filter (·.strictlyContains b) = outer := by
  have hpairs := hsorted.filter (·.strictlyContains key)
  have hnodup := ResourceKey.nodup_of_sorted hpairs
  rw [hlast] at hpairs hnodup
  have hbmem : b ∈ blocks.filter (·.strictlyContains key) := by simp [hlast]
  obtain ⟨hb, hbaround⟩ := List.mem_filter.mp hbmem
  have haround : ∀ c ∈ blocks,
      c.strictlyContains b = (c.strictlyContains key && decide (c ≠ b)) := by
    intro c hc
    rw [Bool.eq_iff_iff, Bool.and_eq_true, decide_eq_true_iff]
    constructor
    · intro hcb
      exact ⟨ResourceKey.strictlyContains_trans hcb hbaround,
        (ResourceKey.strictlyContains_iff.mp hcb).2⟩
    · rintro ⟨hcaround, hne⟩
      refine ResourceKey.strictlyContains_iff.mpr ⟨?_, hne⟩
      have hckey := (ResourceKey.strictlyContains_iff.mp hcaround).1
      have hbkey := (ResourceKey.strictlyContains_iff.mp hbaround).1
      have hcb : c.cmp b = .lt := by
        have hcmem : c ∈ blocks.filter (·.strictlyContains key) := List.mem_filter.mpr ⟨hc, hcaround⟩
        rw [hlast, List.mem_append, List.mem_singleton] at hcmem
        exact (List.pairwise_append.mp hpairs).2.2 c (hcmem.resolve_right hne) b (by simp)
      -- Both hold the key, and the one listed first cannot lie in the other.
      rcases hblocks c hc b hb with hin | hin | hapart
      · exact hin
      · exact absurd (ResourceKey.cmp_of_contains hin hne.symm) (ResourceKey.not_cmp_of_cmp hcb)
      · rw [ResourceKey.meets_of_contains hckey hbkey] at hapart
        cases hapart
  calc blocks.filter (·.strictlyContains b)
      = (blocks.filter (·.strictlyContains key)).filter fun c => decide (c ≠ b) := by
        rw [List.filter_filter]
        apply List.filter_congr
        intro c hc
        rw [haround c hc, Bool.and_comm]
    _ = outer := by
        have hother : ∀ c ∈ outer, c ≠ b := fun c hc =>
          (List.nodup_append.mp hnodup).2.2 c hc b (by simp)
        rw [hlast, List.filter_append, List.filter_eq_self.mpr (by simpa using hother)]
        simp

/-- Step by step up the blocks around a key are found one after the other, the nearest first. -/
theorem levels_oneLess (hsorted : blocks.Pairwise fun a b => a.cmp b = .lt)
    (hblocks : IsHierarchy blocks) {around : List ResourceKey}
    (haround : blocks.filter (·.strictlyContains key) = around) :
    Levels (reach blocks · .oneLess) [key] (around.reverse.map fun b => [b]) := by
  induction around using List.reverseRecOn generalizing key with
  | nil =>
    refine .stop ?_
    change (blocks.filter (·.strictlyContains key)).getLast?.toList ++ [] = []
    rw [haround]
    rfl
  | append_singleton outer b ih =>
    have hstep : [key].flatMap (reach blocks · .oneLess) = [b] := by
      change (blocks.filter (·.strictlyContains key)).getLast?.toList ++ [] = [b]
      rw [haround, List.getLast?_concat]
      rfl
    have hrest := ih (filter_strictlyContains_of_getLast? hsorted hblocks haround)
    rw [List.reverse_append, List.reverse_singleton, List.singleton_append, List.map_cons, ← hstep]
    refine .step (by simp [hstep]) ?_
    rwa [hstep]

end Blocks

/-- Where each block holds its own key, the six operations fit together. The exact block or the
nearest around it is the last of all that contain the key. What lies inside a key is the first level
below it with all that lies inside that, so that repeated steps down end and find exactly the blocks
inside the key. Repeated steps up find one block at a time, and all blocks around the key from the
nearest on, unless two blocks overlap without one containing the other. -/
theorem lookup_ofKeys_levels (keys : List ResourceKey) (key : ResourceKey) :
    (ofKeys keys).lookup key .exactOrOneLess =
      ((ofKeys keys).lookup key .allLess).getLast?.toList ∧
    (∀ b, b ∈ (ofKeys keys).lookup key .allMore ↔
      ∃ c ∈ (ofKeys keys).lookup key .oneMore, b = c ∨ b ∈ (ofKeys keys).lookup c .allMore) ∧
    (∃ levels, Levels ((ofKeys keys).lookup · .oneMore) [key] levels ∧
      ∀ b, b ∈ levels.flatten ↔ b ∈ keys ∧ key.strictlyContains b = true) ∧
    (IsHierarchy keys → Levels ((ofKeys keys).lookup · .oneLess) [key]
      ((((ofKeys keys).lookup key .allLess).filter fun b => decide (b ≠ key)).reverse.map
        fun b => [b])) := by
  have hsorted : (ofKeys keys).keys.Pairwise fun a b => a.cmp b = .lt :=
    keys_pairwise (listed_ofList _)
  simp only [lookup_ofKeys]
  refine ⟨reach_exactOrOneLess hsorted key, fun b => mem_reach_allMore_iff hsorted, ?_, ?_⟩
  · have hsize : ∀ a ∈ [key], a.size < key.size + 1 := by simp
    obtain ⟨levels, hlevels, hmem⟩ := exists_levels_oneMore hsorted hsize
    refine ⟨levels, hlevels, ?_⟩
    intro b
    rw [hmem]
    simp [reach, mem_keys_ofKeys]
  · intro hkeys
    have hblocks : IsHierarchy (ofKeys keys).keys := fun a ha b hb =>
      hkeys a (mem_keys_ofKeys.mp ha) b (mem_keys_ofKeys.mp hb)
    apply levels_oneLess hsorted hblocks
    rw [reach, List.filter_filter]
    apply List.filter_congr
    intro b _
    rw [ResourceKey.strictlyContains, Bool.and_comm]

/-- Up from a range that lies in two others: first the one right around it, then the outer one. -/
theorem lookup_ofKeys_levels_nested :
    let outer : ResourceKey := .asn ⟨64, 127, by decide⟩
    let inner : ResourceKey := .asn ⟨72, 79, by decide⟩
    let key := ResourceKey.ofAsNumber 73
    let apart := ResourceKey.ofAsNumber 80
    IsHierarchy [key, apart, inner, outer] ∧
      Levels ((ofKeys [key, apart, inner, outer]).lookup · .oneLess) [key] [[inner], [outer]] := by
  intro outer inner key apart
  have hkeys : IsHierarchy [key, apart, inner, outer] := by decide
  have haround : ((ofKeys [key, apart, inner, outer]).lookup key .allLess).filter
      (fun b => decide (b ≠ key)) = [outer, inner] := by decide
  have hlevels := (lookup_ofKeys_levels [key, apart, inner, outer] key).2.2.2 hkeys
  rw [haround] at hlevels
  exact ⟨hkeys, hlevels⟩

end Index

end Whois

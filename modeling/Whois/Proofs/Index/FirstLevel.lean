import Whois.Proofs.Index.Content

/-!
The first level below a key: the blocks strictly inside it that no other such block contains. A walk
finds exactly these, also where blocks overlap without one containing the other.
-/
namespace Whois.Index

variable {α : Type} [DecidableEq α]

/-- Whether a block lies strictly inside a key, and inside no other such block of a list. -/
def FirstLevelIn (blocks : List ResourceKey) (key b : ResourceKey) : Prop :=
  key.strictlyContains b = true ∧
    ∀ c ∈ blocks, key.strictlyContains c = true → c ≠ b → ¬ c.contains b = true

instance (blocks : List ResourceKey) (key b : ResourceKey) :
    Decidable (FirstLevelIn blocks key b) :=
  inferInstanceAs (Decidable (_ ∧ ∀ c ∈ blocks, _ → _ → ¬ _))

/-- Keys of other number spaces do not count. -/
theorem firstLevelIn_ofBlock {s : NumberSpace} {keys : List ResourceKey}
    {blocks : List (Block s.width)} (h : ∀ c, .ofBlock s c ∈ keys ↔ c ∈ blocks)
    (a b : Block s.width) :
    FirstLevelIn keys (.ofBlock s a) (.ofBlock s b) ↔ Layer.FirstLevelIn blocks a b := by
  unfold FirstLevelIn Layer.FirstLevelIn
  rw [ResourceKey.strictlyContains_ofBlock]
  apply and_congr_right
  intro _
  constructor
  · intro hall c hc hin hcb
    by_contra hne
    refine hall (.ofBlock s c) ((h c).mpr hc) ?_ ?_ ?_
    · rwa [ResourceKey.strictlyContains_ofBlock]
    · rwa [ne_eq, ResourceKey.ofBlock_inj]
    · rwa [ResourceKey.contains_ofBlock]
  · intro hall key hkey hin hne hkb
    obtain ⟨s', c, rfl⟩ := key.exists_eq_ofBlock
    by_cases hs : s = s'
    · subst hs
      rw [ResourceKey.strictlyContains_ofBlock] at hin
      rw [ResourceKey.contains_ofBlock] at hkb
      exact hne (congrArg _ (hall c ((h c).mp hkey) hin hkb))
    · rw [ResourceKey.strictlyContains_ofBlock_of_ne hs] at hin
      exact absurd hin Bool.false_ne_true

/-- One level more specific, a lookup finds the values of the first level below the key: the blocks
in listing order, under each block its values in order of insertion, and each value once. -/
theorem lookup_oneMore_ofList (entries : List (ResourceKey × α)) (key : ResourceKey) :
    ∃ found : List ResourceKey,
      found.Pairwise (fun a b => a.cmp b = .lt) ∧
      (∀ b, b ∈ found ↔ (∃ e ∈ entries, e.1 = b) ∧ FirstLevelIn (entries.map (·.1)) key b) ∧
      (ofList entries).lookup key .oneMore =
        (found.flatMap (valuesUnder entries)).eraseDups := by
  obtain ⟨s, b, rfl⟩ := key.exists_eq_ofBlock
  have hkeys : ∀ c : Block s.width, .ofBlock s c ∈ entries.map (·.1) ↔
      c ∈ ((ofList entries).layer s).blocks := by
    intro c
    rw [← mem_keys_ofBlock, mem_keys_ofList, List.mem_map]
  have hselect : ((ofList entries).layer s).select b .oneMore =
      ((ofList entries).layer s).filter fun e =>
        decide (FirstLevelIn (entries.map (·.1)) (.ofBlock s b) (.ofBlock s e.block)) := by
    rw [Layer.select_oneMore (listed_ofList entries s)]
    apply List.filter_congr
    intro e _
    rw [decide_eq_decide]
    exact (firstLevelIn_ofBlock hkeys b e.block).symm
  obtain ⟨found, hsorted, hmem, hlookup⟩ := lookup_ofList_of_select
    (p := fun k => decide (FirstLevelIn (entries.map (·.1)) (.ofBlock s b) k)) hselect (by
      intro s' b' hs
      simp [FirstLevelIn, ResourceKey.strictlyContains_ofBlock_of_ne (Ne.symm hs)])
  exact ⟨found, hsorted, by simpa only [decide_eq_true_eq] using hmem, hlookup⟩

end Whois.Index

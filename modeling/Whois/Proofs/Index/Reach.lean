import Mathlib.Data.List.Count
import Whois.Proofs.Index.FirstLevel
import Whois.Proofs.Index.LessSpecific

/-!
What an operation reaches from a key, as a selection from the list of all blocks. The six operations
find the values of the blocks that they reach, and nothing else about an index matters to them.
-/
namespace Whois.Index

variable {α : Type} {i : Index α} {key : ResourceKey}

/-- The blocks that an operation reaches from a key, among blocks in listing order. -/
def reach (blocks : List ResourceKey) (key : ResourceKey) : MatchOperation → List ResourceKey
  | .exact => blocks.filter fun b => decide (b = key)
  | .oneLess => (blocks.filter (·.strictlyContains key)).getLast?.toList
  | .exactOrOneLess =>
    if key ∈ blocks then [key] else (blocks.filter (·.strictlyContains key)).getLast?.toList
  | .allLess => blocks.filter (·.contains key)
  | .oneMore => blocks.filter fun b => decide (FirstLevelIn blocks key b)
  | .allMore => blocks.filter (key.strictlyContains ·)

theorem filter_eq_of_mem {blocks : List ResourceKey}
    (h : blocks.Pairwise fun a b => a.cmp b = .lt) (hmem : key ∈ blocks) :
    (blocks.filter fun b => decide (b = key)) = [key] := by
  rw [List.filter_eq, List.count_eq_one_of_mem (ResourceKey.nodup_of_sorted h) hmem]
  rfl

theorem valuesAt_eq_nil (h : key ∉ i.keys) : i.valuesAt key = [] := by
  obtain ⟨s, b, rfl⟩ := key.exists_eq_ofBlock
  rw [mem_keys_ofBlock] at h
  rw [valuesAt_ofBlock, Layer.valuesAt_eq_nil h]

variable [DecidableEq α]

theorem lookup_allLess (h : i.Listed) (key : ResourceKey) :
    i.lookup key .allLess = ((i.keys.filter (·.contains key)).flatMap i.valuesAt).eraseDups := by
  obtain ⟨s, b, rfl⟩ := key.exists_eq_ofBlock
  refine lookup_of_select h ?_ fun s' b' hs => ResourceKey.contains_ofBlock_of_ne hs b' b
  change ((i.layer s).lessSpecific b) = _
  rw [Layer.lessSpecific_eq_filter (h s)]
  apply List.filter_congr
  intro e _
  exact (ResourceKey.contains_ofBlock e.block b).symm

theorem lookup_allMore (h : i.Listed) (key : ResourceKey) :
    i.lookup key .allMore =
      ((i.keys.filter (key.strictlyContains ·)).flatMap i.valuesAt).eraseDups := by
  obtain ⟨s, b, rfl⟩ := key.exists_eq_ofBlock
  refine lookup_of_select h ?_ fun s' b' hs =>
    ResourceKey.strictlyContains_ofBlock_of_ne (Ne.symm hs) b b'
  change ((i.layer s).moreSpecific b) = _
  rw [Layer.moreSpecific_eq_filter (h s)]
  apply List.filter_congr
  intro e _
  exact (ResourceKey.strictlyContains_ofBlock b e.block).symm

theorem lookup_oneMore (h : i.Listed) (key : ResourceKey) :
    i.lookup key .oneMore =
      ((i.keys.filter fun b => decide (FirstLevelIn i.keys key b)).flatMap
        i.valuesAt).eraseDups := by
  obtain ⟨s, b, rfl⟩ := key.exists_eq_ofBlock
  refine lookup_of_select h ?_ ?_
  · rw [Layer.select_oneMore (h s)]
    apply List.filter_congr
    intro e _
    rw [decide_eq_decide]
    exact (firstLevelIn_ofBlock (fun c => mem_keys_ofBlock) b e.block).symm
  · intro s' b' hs
    simp [FirstLevelIn, ResourceKey.strictlyContains_ofBlock_of_ne (Ne.symm hs)]

/-- A lookup finds the values of the blocks that its operation reaches, in listing order and each
once. -/
theorem lookup_eq (h : i.Listed) (key : ResourceKey) (op : MatchOperation) :
    i.lookup key op = ((reach i.keys key op).flatMap i.valuesAt).eraseDups := by
  have hexact : i.lookup key .exact =
      ((i.keys.filter fun b => decide (b = key)).flatMap i.valuesAt).eraseDups := by
    rw [lookup_exact]
    by_cases hmem : key ∈ i.keys
    · rw [filter_eq_of_mem (keys_pairwise h) hmem, List.flatMap_singleton]
    · have hnone : (i.keys.filter fun b => decide (b = key)) = [] := by
        rw [List.filter_eq_nil_iff]
        intro b hb heq
        exact hmem (of_decide_eq_true heq ▸ hb)
      rw [valuesAt_eq_nil hmem, hnone, List.flatMap_nil]
  cases op with
  | exact => exact hexact
  | oneLess => exact lookup_oneLess_of_listed h key
  | exactOrOneLess =>
    unfold reach
    rw [lookup_exactOrOneLess, lookup_exact, lookup_oneLess_of_listed h]
    split
    · rw [List.flatMap_singleton]
    · rfl
  | allLess => exact lookup_allLess h key
  | oneMore => exact lookup_oneMore h key
  | allMore => exact lookup_allMore h key

end Whois.Index

import Whois.Proofs.Index.ListingOrder
import Whois.Proofs.Index.Restriction

/-!
Operations that look at every block for itself. What they find is known from the insertions: the
values of the blocks asked for, in the listing order of the blocks and each once.
-/
namespace Whois.Index

variable {op : MatchOperation} {key b : ResourceKey}

/-- Whether such an operation finds the values of a block. The other operations also look at the
blocks around it. -/
def selects (key : ResourceKey) (op : MatchOperation) (b : ResourceKey) : Bool :=
  match op with
  | .exact => decide (b = key)
  | .allLess => b.contains key
  | .allMore => key.strictlyContains b
  | .oneLess | .exactOrOneLess | .oneMore => false

theorem reach_eq_filter_selects (h : IsPointwise op) (blocks : List ResourceKey) :
    reach blocks key op = blocks.filter (selects key op) := by
  rcases h with rfl | rfl | rfl
  · rfl
  · rfl
  · rfl

variable {α : Type} [DecidableEq α]

theorem valuesUnder_filter_selects (entries : List (ResourceKey × α))
    (h : selects key op b = true) :
    valuesUnder (entries.filter fun e => selects key op e.1) b = valuesUnder entries b := by
  unfold valuesUnder
  rw [List.filter_filter]
  congr 2
  apply List.filter_congr
  intro e _
  by_cases hb : e.1 = b <;> simp [hb, h]

/-- A lookup finds the values that were inserted under the blocks asked for. -/
theorem lookup_ofList_of_isPointwise (h : IsPointwise op) (entries : List (ResourceKey × α))
    (key : ResourceKey) :
    (ofList entries).lookup key op = ((inListingOrder (·.1)
      (entries.filter fun e => selects key op e.1)).map (·.2)).eraseDups := by
  have hlisted := listed_ofList entries
  have hsorted := (keys_pairwise hlisted).filter (selects key op)
  have hmem : ∀ e ∈ entries.filter (fun e => selects key op e.1),
      e.1 ∈ (ofList entries).keys.filter (selects key op) := by
    intro e he
    obtain ⟨he, hselects⟩ := List.mem_filter.mp he
    exact List.mem_filter.mpr ⟨mem_keys_ofList.mpr ⟨e, he, rfl⟩, hselects⟩
  have hvalues : ((ofList entries).keys.filter (selects key op)).flatMap (ofList entries).valuesAt =
      ((ofList entries).keys.filter (selects key op)).flatMap
        (valuesUnder (entries.filter fun e => selects key op e.1)) := by
    apply List.flatMap_congr
    intro b hb
    rw [valuesAt_ofList, valuesUnder_filter_selects entries (List.mem_filter.mp hb).2]
  rw [lookup_eq hlisted, reach_eq_filter_selects h, hvalues,
    inListingOrder_eq_flatMap hsorted hmem, List.map_flatMap]
  exact eraseDups_flatMap_eraseDups _ _

/-- Whether `values` lists what was inserted under the blocks that satisfy `p`: one block after the
other in listing order, so that each comes before the blocks in it, under each block its values in
the order in which they were inserted, and each value where it occurs first. -/
def Lists (entries : List (ResourceKey × α)) (p : ResourceKey → Prop) (values : List α) : Prop :=
  ∃ blocks : List ResourceKey,
    (blocks.Pairwise fun a b => a.cmp b = .lt ∧ b.contains a = false) ∧
    (∀ b, b ∈ blocks ↔ (∃ e ∈ entries, e.1 = b) ∧ p b) ∧
    values = (blocks.flatMap fun b => (entries.filter (·.1 = b)).map (·.2)).eraseDups

theorem Lists.congr {entries : List (ResourceKey × α)} {p q : ResourceKey → Prop} {values : List α}
    (h : Lists entries p values) (hpq : ∀ b, p b ↔ q b) : Lists entries q values := by
  obtain ⟨blocks, hsorted, hmem, hvalues⟩ := h
  refine ⟨blocks, hsorted, fun b => ?_, hvalues⟩
  rw [hmem, hpq]

theorem lists_of_isPointwise (h : IsPointwise op) (entries : List (ResourceKey × α))
    (key : ResourceKey) :
    Lists entries (fun b => selects key op b = true) ((ofList entries).lookup key op) := by
  have hlisted := listed_ofList entries
  have hsorted := (keys_pairwise hlisted).filter (selects key op)
  have hvalues : (ofList entries).valuesAt = valuesUnder entries :=
    funext fun b => valuesAt_ofList entries b
  refine ⟨(ofList entries).keys.filter (selects key op), ?_, ?_, ?_⟩
  · exact hsorted.imp fun hab => ⟨hab, ResourceKey.contains_eq_false_of_cmp hab⟩
  · intro b
    rw [List.mem_filter, mem_keys_ofList]
  · rw [lookup_eq hlisted, reach_eq_filter_selects h, hvalues]
    exact eraseDups_flatMap_eraseDups _ _

/-- The exact block, all blocks around a key with the key itself, and all blocks inside a key: a
lookup lists what was inserted under the blocks asked for, wherever in the key's number space they
are, and under no others. -/
theorem lookup_ofList_lists (entries : List (ResourceKey × α)) (key : ResourceKey) :
    Lists entries (fun b => b = key) ((ofList entries).lookup key .exact) ∧
    Lists entries (fun b => b.space = key.space ∧ b.contains key = true)
      ((ofList entries).lookup key .allLess) ∧
    Lists entries (fun b => b.space = key.space ∧ key.contains b = true ∧ b ≠ key)
      ((ofList entries).lookup key .allMore) := by
  refine ⟨?_, ?_, ?_⟩
  · apply (lists_of_isPointwise (.inl rfl) entries key).congr
    intro b
    exact decide_eq_true_iff
  · apply (lists_of_isPointwise (.inr (.inl rfl)) entries key).congr
    intro b
    exact ⟨fun hin => ⟨ResourceKey.space_eq_of_contains hin, hin⟩, And.right⟩
  · apply (lists_of_isPointwise (.inr (.inr rfl)) entries key).congr
    intro b
    change key.strictlyContains b = true ↔ _
    rw [ResourceKey.strictlyContains, Bool.and_eq_true, decide_eq_true_iff, ne_comm (a := b)]
    exact ⟨fun h => ⟨(ResourceKey.space_eq_of_contains h.1).symm, h⟩, And.right⟩

end Whois.Index

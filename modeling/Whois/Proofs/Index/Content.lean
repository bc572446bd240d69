import Mathlib.Data.List.Induction
import Whois.Proofs.Index.Space

/-!
What an index holds after a sequence of insertions: the blocks that were named, and under each block
the values that were inserted there, in order and each once.
-/
namespace Whois.Index

variable {α : Type} [DecidableEq α] {i : Index α}

section Insertion
variable {s s' : NumberSpace}

theorem layer_insert_self (b : Block s.width) (v : α) :
    (i.insert (.ofBlock s b) v).layer s = (i.layer s).insert b v := by
  cases s <;> rfl

theorem layer_insert_of_ne (h : s' ≠ s) (b : Block s.width) (v : α) :
    (i.insert (.ofBlock s b) v).layer s' = i.layer s' := by
  cases s <;> cases s' <;> first | rfl | exact absurd rfl h

theorem Listed.insert (h : i.Listed) (key : ResourceKey) (v : α) : (i.insert key v).Listed := by
  obtain ⟨s, b, rfl⟩ := key.exists_eq_ofBlock
  intro s'
  by_cases hs : s' = s
  · subst hs
    rw [layer_insert_self]
    exact (h s').insert b v
  · rw [layer_insert_of_ne hs]
    exact h s'

theorem mem_keys_insert {key key' : ResourceKey} {v : α} :
    key' ∈ (i.insert key v).keys ↔ key' = key ∨ key' ∈ i.keys := by
  obtain ⟨s, b, rfl⟩ := key.exists_eq_ofBlock
  obtain ⟨s', b', rfl⟩ := key'.exists_eq_ofBlock
  rw [mem_keys_ofBlock, mem_keys_ofBlock]
  by_cases hs : s' = s
  · subst hs
    rw [layer_insert_self, Layer.mem_blocks_insert, ResourceKey.ofBlock_inj]
  · rw [layer_insert_of_ne hs]
    simp [ResourceKey.ofBlock_ne_ofBlock hs b' b]

/-- Only the values of the block itself change. -/
theorem valuesAt_insert (h : i.Listed) (key key' : ResourceKey) (v : α) :
    (i.insert key v).valuesAt key' =
      if key' = key then Layer.added v (i.valuesAt key) else i.valuesAt key' := by
  obtain ⟨s, b, rfl⟩ := key.exists_eq_ofBlock
  obtain ⟨s', b', rfl⟩ := key'.exists_eq_ofBlock
  rw [valuesAt_ofBlock, valuesAt_ofBlock, valuesAt_ofBlock]
  by_cases hs : s' = s
  · subst hs
    rw [layer_insert_self, Layer.valuesAt_insert (h s')]
    simp only [ResourceKey.ofBlock_inj]
  · rw [layer_insert_of_ne hs, if_neg (ResourceKey.ofBlock_ne_ofBlock hs b' b)]

end Insertion

/-- The values inserted under a block, in order, later repetitions left out. -/
def valuesUnder (entries : List (ResourceKey × α)) (key : ResourceKey) : List α :=
  ((entries.filter (·.1 = key)).map (·.2)).eraseDups

theorem mem_valuesUnder {entries : List (ResourceKey × α)} {key : ResourceKey} {v : α} :
    v ∈ valuesUnder entries key ↔ (key, v) ∈ entries := by
  unfold valuesUnder
  rw [List.mem_eraseDups, List.mem_map]
  constructor
  · intro ⟨e, he, hv⟩
    obtain ⟨he, hkey⟩ := List.mem_filter.mp he
    have hkey : e.1 = key := of_decide_eq_true hkey
    exact hkey ▸ hv ▸ he
  · intro he
    exact ⟨(key, v), List.mem_filter.mpr ⟨he, decide_eq_true rfl⟩, rfl⟩

theorem ofList_concat (entries : List (ResourceKey × α)) (key : ResourceKey) (v : α) :
    ofList (entries ++ [(key, v)]) = (ofList entries).insert key v := by
  simp [ofList]

theorem eraseDups_concat (values : List α) (v : α) :
    (values ++ [v]).eraseDups = Layer.added v values.eraseDups := by
  rw [List.eraseDups_append]
  by_cases h : v ∈ values <;> simp [List.removeAll, Layer.added, List.eraseDups_cons, h]

theorem valuesUnder_concat (entries : List (ResourceKey × α)) (key key' : ResourceKey) (v : α) :
    valuesUnder (entries ++ [(key, v)]) key' =
      if key' = key then Layer.added v (valuesUnder entries key) else valuesUnder entries key' := by
  unfold valuesUnder
  rw [List.filter_append, List.map_append]
  by_cases h : key' = key
  · subst h
    rw [if_pos rfl, ← eraseDups_concat]
    simp
  · simp [h, Ne.symm h]

theorem listed_ofList (entries : List (ResourceKey × α)) : (ofList entries).Listed := by
  induction entries using List.reverseRecOn with
  | nil => intro s; cases s <;> exact List.Pairwise.nil
  | append_singleton entries e ih =>
    rw [ofList_concat]
    exact ih.insert e.1 e.2

/-- The blocks of an index are those that an insertion named. -/
theorem mem_keys_ofList {entries : List (ResourceKey × α)} {key : ResourceKey} :
    key ∈ (ofList entries).keys ↔ ∃ e ∈ entries, e.1 = key := by
  induction entries using List.reverseRecOn with
  | nil =>
    have hempty : (ofList ([] : List (ResourceKey × α))).keys = [] := rfl
    simp [hempty]
  | append_singleton entries e ih =>
    rw [ofList_concat, mem_keys_insert, ih]
    simp only [List.mem_append, List.mem_singleton, or_and_right, exists_or, exists_eq_left]
    rw [or_comm, eq_comm]

theorem valuesAt_ofList (entries : List (ResourceKey × α)) (key : ResourceKey) :
    (ofList entries).valuesAt key = valuesUnder entries key := by
  induction entries using List.reverseRecOn with
  | nil =>
    obtain ⟨s, b, rfl⟩ := key.exists_eq_ofBlock
    cases s <;> rfl
  | append_singleton entries e ih =>
    rw [ofList_concat, valuesAt_insert (listed_ofList entries), valuesUnder_concat]
    by_cases h : key = e.1
    · subst h
      rw [if_pos rfl, if_pos rfl, ih]
    · rw [if_neg h, if_neg h, ih]

section Lookups
variable {s : NumberSpace} {b : Block s.width} {op : MatchOperation} {p : ResourceKey → Bool}

/-- A walk that selects the entries of a layer by their blocks finds the values of the blocks it
selects, in listing order and each once. -/
theorem lookup_of_select (h : i.Listed)
    (hselect : (i.layer s).select b op = (i.layer s).filter fun e => p (.ofBlock s e.block))
    (hspace : ∀ (s' : NumberSpace) (b' : Block s'.width), s' ≠ s → p (.ofBlock s' b') = false) :
    i.lookup (.ofBlock s b) op = ((i.keys.filter p).flatMap i.valuesAt).eraseDups := by
  have hlayer : i.valuesAt ∘ ResourceKey.ofBlock s = (i.layer s).valuesAt :=
    funext fun b => valuesAt_ofBlock b
  rw [lookup_ofBlock, Layer.lookup, hselect,
    Layer.flatMap_values_filter (h s) fun b => p (.ofBlock s b), filter_keys hspace,
    List.flatMap_map, ← hlayer]
  rfl

theorem lookup_ofList_of_select {entries : List (ResourceKey × α)}
    (hselect : ((ofList entries).layer s).select b op =
      ((ofList entries).layer s).filter fun e => p (.ofBlock s e.block))
    (hspace : ∀ (s' : NumberSpace) (b' : Block s'.width), s' ≠ s → p (.ofBlock s' b') = false) :
    ∃ found : List ResourceKey,
      found.Pairwise (fun a b => a.cmp b = .lt) ∧
      (∀ k, k ∈ found ↔ (∃ e ∈ entries, e.1 = k) ∧ p k = true) ∧
      (ofList entries).lookup (.ofBlock s b) op =
        (found.flatMap (valuesUnder entries)).eraseDups := by
  have hlisted := listed_ofList entries
  have hvalues : valuesUnder entries = (ofList entries).valuesAt :=
    funext fun key => (valuesAt_ofList entries key).symm
  refine ⟨(ofList entries).keys.filter p, (keys_pairwise hlisted).filter _, fun k => ?_, ?_⟩
  · rw [List.mem_filter, mem_keys_ofList]
  · rw [hvalues]
    exact lookup_of_select hlisted hselect hspace

end Lookups

end Whois.Index

import Whois.Proofs.Index.ListingOrder
import Whois.Proofs.Index.Reach

/-!
Insertion, block by block. An index is what was inserted under each of its blocks: an insertion adds
one value to one block or changes nothing, so the order of insertions under different blocks does
not matter, and no block is without values.
-/
namespace Whois

namespace Layer

variable {w : Nat} {α : Type}

/-- Changes the values of a block, none at first if the block is new. The answer is what the change
answers. -/
def change {β : Type} (f : List α → β × List α) (b : Block w) : Layer w α → β × Layer w α
  | [] => ((f []).1, [⟨b, (f []).2⟩])
  | e :: rest =>
    if b = e.block then ((f e.values).1, ⟨b, (f e.values).2⟩ :: rest)
    else if b.before e.block then ((f []).1, ⟨b, (f []).2⟩ :: e :: rest)
    else ((change f b rest).1, e :: (change f b rest).2)

/-- Appends a value, unless it is there. The answer tells whether it was appended. -/
def append [DecidableEq α] (v : α) (values : List α) : Bool × List α :=
  if v ∈ values then (false, values) else (true, values ++ [v])

theorem append_eq [DecidableEq α] (v : α) (values : List α) :
    append v values = (!decide (v ∈ values), added v values) := by
  unfold append added
  by_cases h : v ∈ values <;> simp [h]

/-- To change a block by appending a value is to insert it. A block that is new gets the value, so
none is left empty. -/
theorem change_append [DecidableEq α] {layer : Layer w α} (h : layer.Listed) (b : Block w) (v : α) :
    layer.change (append v) b = (!decide (v ∈ layer.valuesAt b), layer.insert b v) := by
  induction layer with
  | nil => simp [change, append_eq, insert, added, valuesAt, entry?]
  | cons e rest ih =>
    obtain ⟨he, hrest⟩ := List.pairwise_cons.mp h
    unfold change Layer.insert
    rw [valuesAt_cons]
    split
    next heq =>
      rw [if_pos heq.symm, append_eq]
      rfl
    next hne =>
      rw [if_neg (Ne.symm hne)]
      split
      next hbefore =>
        have hnew : valuesAt rest b = [] := by
          apply valuesAt_eq_nil
          intro hmem
          obtain ⟨d, hd, rfl⟩ := List.mem_map.mp hmem
          exact Interval.not_before_of_before hbefore (he d hd)
        simp [append_eq, added, hnew]
      next => rw [ih hrest]

theorem eq_map_blocks {layer : Layer w α} (h : layer.Listed) :
    layer = layer.blocks.map fun b => ⟨b, layer.valuesAt b⟩ := by
  unfold blocks
  rw [List.map_map]
  conv_lhs => rw [← List.map_id layer]
  apply List.map_congr_left
  intro e he
  simp [valuesAt_block h he]

/-- A layer in listing order is known from its blocks and their values. -/
theorem eq_of_listed {layer layer' : Layer w α} (h : layer.Listed) (h' : layer'.Listed)
    (hblocks : ∀ b, b ∈ layer.blocks ↔ b ∈ layer'.blocks)
    (hvalues : ∀ b, layer.valuesAt b = layer'.valuesAt b) : layer = layer' := by
  have hsame : layer.blocks = layer'.blocks :=
    eq_of_pairwise_of_mem_iff (fun _ _ => Interval.not_before_of_before) (blocks_pairwise h)
      (blocks_pairwise h') hblocks
  rw [eq_map_blocks h, eq_map_blocks h', hsame]
  simp only [hvalues]

end Layer

namespace Index

variable {α : Type} {i i' : Index α}

theorem eq_of_layers (h : ∀ s, i.layer s = i'.layer s) : i = i' := by
  obtain ⟨v4, v6, asn⟩ := i
  obtain ⟨v4', v6', asn'⟩ := i'
  have hv4 : v4 = v4' := h .ipv4
  have hv6 : v6 = v6' := h .ipv6
  have hasn : asn = asn' := h .asn
  rw [hv4, hv6, hasn]

/-- An index in listing order is known from its blocks and their values. -/
theorem eq_of_listed (h : i.Listed) (h' : i'.Listed) (hkeys : ∀ key, key ∈ i.keys ↔ key ∈ i'.keys)
    (hvalues : ∀ key, i.valuesAt key = i'.valuesAt key) : i = i' := by
  apply eq_of_layers
  intro s
  apply Layer.eq_of_listed (h s) (h' s)
  · intro b
    rw [← mem_keys_ofBlock, ← mem_keys_ofBlock, hkeys]
  · intro b
    rw [← valuesAt_ofBlock, ← valuesAt_ofBlock, hvalues]

theorem size_eq_length_keys (i : Index α) : i.size = i.keys.length := by
  have hlength : ∀ s, ((i.layer s).blocks.map (ResourceKey.ofBlock s)).length =
      (i.layer s).length := by
    intro s
    rw [List.length_map]
    exact List.length_map _
  simp only [keys, NumberSpace.all, List.flatMap_cons, List.flatMap_nil, List.length_append,
    hlength]
  exact Nat.add_assoc ..

variable [DecidableEq α]

/-- Adds a value to a block. The answer tells whether the block did not have it. -/
def add (i : Index α) (key : ResourceKey) (v : α) : Bool × Index α :=
  match key with
  | .ip (.v4 b) => (i.v4.change (Layer.append v) b).map id fun layer => { i with v4 := layer }
  | .ip (.v6 b) => (i.v6.change (Layer.append v) b).map id fun layer => { i with v6 := layer }
  | .asn r => (i.asn.change (Layer.append v) r).map id fun layer => { i with asn := layer }

theorem add_eq (h : i.Listed) (key : ResourceKey) (v : α) :
    i.add key v = (!i.holds key v, i.insert key v) := by
  match key with
  | .ip (.v4 b) =>
    exact congrArg (Prod.map id fun layer => { i with v4 := layer })
      (Layer.change_append (h .ipv4) b v)
  | .ip (.v6 b) =>
    exact congrArg (Prod.map id fun layer => { i with v6 := layer })
      (Layer.change_append (h .ipv6) b v)
  | .asn r =>
    exact congrArg (Prod.map id fun layer => { i with asn := layer })
      (Layer.change_append (h .asn) r v)

/-- `i'` is `i` with a value appended to those of one block. -/
structure Appends (i i' : Index α) (key : ResourceKey) (v : α) : Prop where
  valuesAt_self : i'.valuesAt key = i.valuesAt key ++ [v]
  valuesAt_of_ne : ∀ key', key' ≠ key → i'.valuesAt key' = i.valuesAt key'
  mem_keys_iff : ∀ key', key' ∈ i'.keys ↔ key' = key ∨ key' ∈ i.keys

theorem appends_insert (h : i.Listed) {key : ResourceKey} {v : α} (hnew : v ∉ i.valuesAt key) :
    Appends i (i.insert key v) key v where
  valuesAt_self := by
    rw [valuesAt_insert h, if_pos rfl]
    exact if_neg hnew
  valuesAt_of_ne key' hne := by rw [valuesAt_insert h, if_neg hne]
  mem_keys_iff _ := mem_keys_insert

theorem insert_eq_self (h : i.Listed) {key : ResourceKey} {v : α} (hv : v ∈ i.valuesAt key) :
    i.insert key v = i := by
  apply eq_of_listed (h.insert key v) h
  · intro key'
    rw [mem_keys_insert, or_iff_right_iff_imp]
    rintro rfl
    by_contra hkey
    rw [valuesAt_eq_nil hkey] at hv
    cases hv
  · intro key'
    rw [valuesAt_insert h]
    split
    next heq => rw [heq, Layer.added, if_pos hv]
    next => rfl

theorem insert_comm (h : i.Listed) {key key' : ResourceKey} (hne : key ≠ key') (v v' : α) :
    (i.insert key v).insert key' v' = (i.insert key' v').insert key v := by
  apply eq_of_listed ((h.insert key v).insert key' v') ((h.insert key' v').insert key v)
  · intro k
    simp only [mem_keys_insert]
    exact or_left_comm
  · intro k
    simp only [valuesAt_insert (h.insert key v), valuesAt_insert (h.insert key' v'),
      valuesAt_insert h]
    grind

variable {entries entries' : List (ResourceKey × α)} {key : ResourceKey} {v : α}

theorem add_ofList (entries : List (ResourceKey × α)) (key : ResourceKey) (v : α) :
    (ofList entries).add key v =
      (!decide ((key, v) ∈ entries), ofList (entries ++ [(key, v)])) := by
  rw [add_eq (listed_ofList entries), ofList_concat, holds, valuesAt_ofList]
  simp only [mem_valuesUnder]

/-- Every block has a value, and none twice. -/
theorem values_of_mem_layer {s : NumberSpace} {e : Entry s.width α}
    (he : e ∈ (ofList entries).layer s) : e.values ≠ [] ∧ e.values.Nodup := by
  have hvalues : e.values = valuesUnder entries (.ofBlock s e.block) := by
    rw [← valuesAt_ofList, valuesAt_ofBlock, Layer.valuesAt_block (listed_ofList entries s) he]
  have hkey : .ofBlock s e.block ∈ (ofList entries).keys :=
    mem_keys_ofBlock.mpr (List.mem_map_of_mem he)
  obtain ⟨e', he', hkey'⟩ := mem_keys_ofList.mp hkey
  have hv : e'.2 ∈ valuesUnder entries (.ofBlock s e.block) := by
    rwa [mem_valuesUnder, ← hkey']
  rw [hvalues]
  exact ⟨List.ne_nil_of_mem hv, nodup_eraseDups _⟩

theorem size_ofList (entries : List (ResourceKey × α)) :
    (ofList entries).size = (entries.map (·.1)).eraseDups.length := by
  have hnodup := ResourceKey.nodup_of_sorted (keys_pairwise (listed_ofList entries))
  have hperm : (ofList entries).keys.Perm (entries.map (·.1)).eraseDups := by
    rw [List.perm_ext_iff_of_nodup hnodup (nodup_eraseDups _)]
    intro key
    rw [mem_keys_ofList, List.mem_eraseDups, List.mem_map]
  rw [size_eq_length_keys, hperm.length_eq]

/-- What was inserted under each block, in order, makes an index. -/
theorem ofList_eq_of_filter_eq (h : ∀ key, (entries.filter fun e => decide (e.1 = key)) =
    entries'.filter fun e => decide (e.1 = key)) : ofList entries = ofList entries' := by
  apply eq_of_listed (listed_ofList entries) (listed_ofList entries')
  · intro key
    simp only [mem_keys_ofList, mem_iff_of_filter_eq h]
  · intro key
    rw [valuesAt_ofList, valuesAt_ofList, valuesUnder, valuesUnder, h key]

theorem mem_lookup_iff {op : MatchOperation} : v ∈ (ofList entries).lookup key op ↔
    ∃ b ∈ reach (ofList entries).keys key op, (b, v) ∈ entries := by
  rw [lookup_eq (listed_ofList entries), List.mem_eraseDups, List.mem_flatMap]
  simp only [valuesAt_ofList, mem_valuesUnder]

theorem keys_eq_of_perm (h : entries.Perm entries') :
    (ofList entries).keys = (ofList entries').keys := by
  apply eq_of_pairwise_of_mem_iff (fun _ _ => ResourceKey.not_cmp_of_cmp)
    (keys_pairwise (listed_ofList entries)) (keys_pairwise (listed_ofList entries'))
  intro key
  simp only [mem_keys_ofList, h.mem_iff]

theorem mem_lookup_of_perm (h : entries.Perm entries') (key : ResourceKey) (op : MatchOperation)
    (v : α) : v ∈ (ofList entries).lookup key op ↔ v ∈ (ofList entries').lookup key op := by
  simp only [mem_lookup_iff, keys_eq_of_perm h, h.mem_iff]

/-- An index is what was inserted under each block. An insertion answers whether its value was not yet
inserted under its block, and then that value follows the others of the block and nothing else
changes; if it was, nothing changes at all. Every block has a value and none twice, and the size is
the number of blocks that insertions named. Insertions under different blocks can be exchanged, so
that the same insertions under each block, each in their order, make the same index; and whatever
their order, a lookup finds the same values. -/
theorem ofList_blockwise :
    (∀ (entries : List (ResourceKey × α)) (key : ResourceKey) (v : α),
      ((ofList entries).add key v).2 = ofList (entries ++ [(key, v)]) ∧
      (((ofList entries).add key v).1 = true ↔ (key, v) ∉ entries) ∧
      (((ofList entries).add key v).1 = false →
        ((ofList entries).add key v).2 = ofList entries) ∧
      (((ofList entries).add key v).1 = true →
        Appends (ofList entries) ((ofList entries).add key v).2 key v)) ∧
    (∀ (entries : List (ResourceKey × α)) (s : NumberSpace), ∀ e ∈ (ofList entries).layer s,
      e.values ≠ [] ∧ e.values.Nodup) ∧
    (∀ entries : List (ResourceKey × α),
      (ofList entries).size = (entries.map (·.1)).eraseDups.length) ∧
    (∀ (entries : List (ResourceKey × α)) (key key' : ResourceKey) (v v' : α), key ≠ key' →
      (((ofList entries).add key v).2.add key' v').1 = ((ofList entries).add key' v').1 ∧
      (((ofList entries).add key v).2.add key' v').2 =
        (((ofList entries).add key' v').2.add key v).2) ∧
    (∀ entries entries' : List (ResourceKey × α),
      (∀ key, (entries.filter fun e => decide (e.1 = key)) =
        entries'.filter fun e => decide (e.1 = key)) → ofList entries = ofList entries') ∧
    ∀ entries entries' : List (ResourceKey × α), entries.Perm entries' →
      ∀ (key : ResourceKey) (op : MatchOperation) (v : α),
        v ∈ (ofList entries).lookup key op ↔ v ∈ (ofList entries').lookup key op := by
  refine ⟨?_, fun _ _ _ => values_of_mem_layer, size_ofList, ?_, fun _ _ => ofList_eq_of_filter_eq,
    fun _ _ => mem_lookup_of_perm⟩
  · intro entries key v
    have hlisted := listed_ofList entries
    rw [add_ofList, ofList_concat, Bool.not_eq_true', Bool.not_eq_false', decide_eq_false_iff_not,
      decide_eq_true_iff]
    refine ⟨rfl, Iff.rfl, fun hmem => ?_, fun hnew => ?_⟩
    · apply insert_eq_self hlisted
      rwa [valuesAt_ofList, mem_valuesUnder]
    · apply appends_insert hlisted
      rwa [valuesAt_ofList, mem_valuesUnder]
  · intro entries key key' v v' hne
    simp only [add_ofList]
    constructor
    · simp [Ne.symm hne]
    · simp only [ofList_concat]
      exact insert_comm (listed_ofList entries) hne v v'

/-- All IPv4 addresses and all AS numbers: two blocks with the same ends in two number spaces. -/
theorem ofList_blockwise_twoSpaces :
    let v4 : ResourceKey := .ip (.v4 (Block.whole 32))
    let asn : ResourceKey := .asn (Block.whole 32)
    (((ofList [(v4, 1)]).add v4 1).1 = false ∧
      ((ofList [(v4, 1)]).add v4 1).2 = ofList [(v4, 1)]) ∧
    (((ofList [(v4, 1)]).add asn 1).1 = true ∧
      Appends (ofList [(v4, 1)]) ((ofList [(v4, 1)]).add asn 1).2 asn 1) ∧
    (∀ e ∈ (ofList [(v4, 1), (asn, 1)]).layer .asn, e.values ≠ [] ∧ e.values.Nodup) ∧
    (v4 ≠ asn ∧
      (((ofList [(v4, 1)]).add v4 2).2.add asn 1).1 = ((ofList [(v4, 1)]).add asn 1).1 ∧
      (((ofList [(v4, 1)]).add v4 2).2.add asn 1).2 =
        (((ofList [(v4, 1)]).add asn 1).2.add v4 2).2) ∧
    ofList [(v4, 1), (asn, 2)] = ofList [(asn, 2), (v4, 1)] ∧
    ([(v4, 1), (v4, 2)].Perm [(v4, 2), (v4, 1)] ∧
      (2 ∈ (ofList [(v4, 1), (v4, 2)]).lookup v4 .exact ↔
        2 ∈ (ofList [(v4, 2), (v4, 1)]).lookup v4 .exact)) := by
  intro v4 asn
  obtain ⟨hadd, hvalues, _, hcomm, hsame, hperm⟩ := ofList_blockwise (α := Nat)
  have hrepeated : ((ofList [(v4, 1)]).add v4 1).1 = false := by decide
  have hnew : ((ofList [(v4, 1)]).add asn 1).1 = true := by decide
  have hne : v4 ≠ asn := by decide
  have hfilter : ∀ key, ([(v4, 1), (asn, 2)].filter fun e => decide (e.1 = key)) =
      [(asn, 2), (v4, 1)].filter fun e => decide (e.1 = key) := by
    intro key
    by_cases hkey : v4 = key
    · subst hkey
      decide
    · simp [List.filter_cons, hkey]
  have hswap : [(v4, 1), (v4, 2)].Perm [(v4, 2), (v4, 1)] := List.Perm.swap ..
  exact ⟨⟨hrepeated, (hadd [(v4, 1)] v4 1).2.2.1 hrepeated⟩,
    ⟨hnew, (hadd [(v4, 1)] asn 1).2.2.2 hnew⟩, hvalues _ .asn,
    ⟨hne, hcomm [(v4, 1)] v4 asn 2 1 hne⟩, hsame _ _ hfilter,
    ⟨hswap, hperm _ _ hswap v4 .exact 2⟩⟩

end Index

end Whois

import Whois.Proofs.Index.Content
import Whois.Proofs.List

/-!
The blocks around a key. One level less specific, a walk takes the last of them in listing order:
one of the smallest blocks around the key, and the only one if these blocks are nested. Of blocks
that overlap without one containing the other it misses all but the last.
-/
namespace Whois

namespace Layer

variable {w : Nat} {α : Type} {layer : Layer w α}

/-- The entries that contain a key, wherever they stand. -/
theorem lessSpecific_eq_filter (h : layer.Listed) (key : Block w) :
    layer.lessSpecific key = layer.filter (·.block.contains key) := by
  have hpast : ∀ b : Block w, key.before b = true → b.contains key = false := by
    intro b hb
    rw [Bool.eq_false_iff]
    intro hin
    have hne : b ≠ key := fun heq => Interval.ne_of_before hb heq.symm
    exact Interval.not_before_of_before hb (Interval.before_of_contains hin hne)
  unfold lessSpecific upTo
  apply filter_takeWhile h
  · intro e he
    exact hpast e.block (by simpa using he)
  · intro d e hd hde
    have hd : key.before d.block = true := by simpa using hd
    exact hpast e.block (Interval.before_trans hd hde)

/-- One level less specific is the last of the blocks around a key. -/
theorem oneLess?_eq_getLast? (h : layer.Listed) (key : Block w) :
    layer.oneLess? key = (layer.filter (·.block.strictlyContains key)).getLast? := by
  unfold oneLess?
  rw [lessSpecific_eq_filter h, List.filter_filter]
  congr 2
  funext e
  rw [Interval.strictlyContains, Bool.and_comm]
  congr 1
  exact (decide_not).symm

theorem isSome_entry?_iff {b : Block w} : (layer.entry? b).isSome = true ↔ b ∈ layer.blocks := by
  unfold entry? blocks
  rw [List.find?_isSome, List.mem_map]
  simp only [beq_iff_eq]

theorem flatMap_entry?_values (layer : Layer w α) (b : Block w) :
    (layer.entry? b).toList.flatMap (·.values) = layer.valuesAt b := by
  unfold valuesAt
  cases layer.entry? b with
  | none => rfl
  | some e => exact List.flatMap_singleton ..

section Lookup
variable [DecidableEq α]

theorem lookup_exact (layer : Layer w α) (key : Block w) :
    layer.lookup key .exact = (layer.valuesAt key).eraseDups := by
  unfold lookup select
  rw [flatMap_entry?_values]

theorem lookup_exactOrOneLess (layer : Layer w α) (key : Block w) :
    layer.lookup key .exactOrOneLess =
      if key ∈ layer.blocks then layer.lookup key .exact else layer.lookup key .oneLess := by
  unfold lookup select
  dsimp only
  cases hentry : layer.entry? key with
  | none =>
    have hnot : key ∉ layer.blocks := by
      rw [← isSome_entry?_iff, hentry]
      exact Bool.false_ne_true
    rw [Option.none_or, if_neg hnot]
  | some e =>
    have hmem : key ∈ layer.blocks := by
      rw [← isSome_entry?_iff, hentry]
      rfl
    rw [Option.some_or, if_pos hmem]

/-- The values found one level less specific are those of the last block around the key. -/
theorem lookup_oneLess (h : layer.Listed) (key : Block w) :
    layer.lookup key .oneLess =
      ((layer.blocks.filter (·.strictlyContains key)).getLast?.toList.flatMap
        layer.valuesAt).eraseDups := by
  have hblocks : layer.blocks.filter (·.strictlyContains key) =
      (layer.filter (·.block.strictlyContains key)).map (·.block) := by
    unfold blocks
    rw [List.filter_map]
    rfl
  unfold lookup select
  dsimp only
  rw [oneLess?_eq_getLast? h, hblocks, List.getLast?_map]
  cases hlast : (layer.filter (·.block.strictlyContains key)).getLast? with
  | none => rfl
  | some e =>
    have hmem : e ∈ layer := List.mem_of_mem_filter (List.mem_of_getLast? hlast)
    simp [valuesAt_block h hmem]

end Lookup

end Layer

namespace ResourceKey

theorem nodup_of_sorted {keys : List ResourceKey} (h : keys.Pairwise fun a b => a.cmp b = .lt) :
    keys.Nodup := by
  rw [List.nodup_iff_pairwise_ne]
  refine h.imp ?_
  rintro a b hab rfl
  exact not_cmp_of_cmp hab hab

end ResourceKey

namespace Index

variable {α : Type} [DecidableEq α]

/-- Whether a block strictly contains a key, and contains no other such block of a list. -/
def FirstLevelAround (blocks : List ResourceKey) (key b : ResourceKey) : Prop :=
  b.strictlyContains key = true ∧
    ∀ c ∈ blocks, c.strictlyContains key = true → c ≠ b → ¬ b.contains c = true

instance (blocks : List ResourceKey) (key b : ResourceKey) :
    Decidable (FirstLevelAround blocks key b) :=
  inferInstanceAs (Decidable (_ ∧ ∀ c ∈ blocks, _ → _ → ¬ _))

theorem lookup_oneLess_of_listed {i : Index α} (h : i.Listed) (key : ResourceKey) :
    i.lookup key .oneLess =
      ((i.keys.filter (·.strictlyContains key)).getLast?.toList.flatMap i.valuesAt).eraseDups := by
  obtain ⟨s, b, rfl⟩ := key.exists_eq_ofBlock
  have hkeys : i.keys.filter (·.strictlyContains (.ofBlock s b)) =
      ((i.layer s).blocks.filter (·.strictlyContains b)).map (.ofBlock s) := by
    rw [filter_keys (s := s) fun s' b' hs => ResourceKey.strictlyContains_ofBlock_of_ne hs b' b]
    congr 2
    funext c
    exact ResourceKey.strictlyContains_ofBlock c b
  rw [lookup_ofBlock, Layer.lookup_oneLess (h s), hkeys, List.getLast?_map]
  cases ((i.layer s).blocks.filter (·.strictlyContains b)).getLast? with
  | none => rfl
  | some c => simp [valuesAt_ofBlock]

theorem lookup_exact (i : Index α) (key : ResourceKey) :
    i.lookup key .exact = (i.valuesAt key).eraseDups := by
  obtain ⟨s, b, rfl⟩ := key.exists_eq_ofBlock
  rw [lookup_ofBlock, valuesAt_ofBlock, Layer.lookup_exact]

theorem lookup_exactOrOneLess (i : Index α) (key : ResourceKey) :
    i.lookup key .exactOrOneLess =
      if key ∈ i.keys then i.lookup key .exact else i.lookup key .oneLess := by
  obtain ⟨s, b, rfl⟩ := key.exists_eq_ofBlock
  rw [lookup_ofBlock, lookup_ofBlock, lookup_ofBlock, Layer.lookup_exactOrOneLess]
  simp only [mem_keys_ofBlock]

theorem eraseDups_valuesUnder (entries : List (ResourceKey × α)) (key : ResourceKey) :
    (valuesUnder entries key).eraseDups = valuesUnder entries key :=
  eraseDups_of_nodup (nodup_eraseDups _)

theorem lookup_exact_ofList (entries : List (ResourceKey × α)) (key : ResourceKey) :
    (ofList entries).lookup key .exact = valuesUnder entries key := by
  rw [lookup_exact, valuesAt_ofList, eraseDups_valuesUnder]

/-- The last block around a key contains no other, since what a block contains is listed after
it. -/
theorem firstLevelAround_of_getLast? {blocks : List ResourceKey} {key b : ResourceKey}
    (hsorted : blocks.Pairwise fun a b => a.cmp b = .lt)
    (hlast : (blocks.filter (·.strictlyContains key)).getLast? = some b) :
    FirstLevelAround blocks key b := by
  obtain ⟨earlier, hsplit⟩ := List.getLast?_eq_some_iff.mp hlast
  have hmem : b ∈ blocks.filter (·.strictlyContains key) := List.mem_of_getLast? hlast
  refine ⟨(List.mem_filter.mp hmem).2, ?_⟩
  intro c hc haround hne hin
  have hearlier : c ∈ earlier := by
    have hc : c ∈ blocks.filter (·.strictlyContains key) := List.mem_filter.mpr ⟨hc, haround⟩
    rw [hsplit, List.mem_append, List.mem_singleton] at hc
    exact hc.resolve_right hne
  have hcb : c.cmp b = .lt := by
    have hpairs := hsorted.filter (·.strictlyContains key)
    rw [hsplit, List.pairwise_append] at hpairs
    exact hpairs.2.2 c hearlier b (by simp)
  have hbc : b.cmp c = .lt := ResourceKey.cmp_of_contains hin (Ne.symm hne)
  exact ResourceKey.not_cmp_of_cmp hcb hbc

theorem getLast?_filter_firstLevelAround {blocks : List ResourceKey}
    (hsorted : blocks.Pairwise fun a b => a.cmp b = .lt) (key : ResourceKey) :
    (blocks.filter fun b => decide (FirstLevelAround blocks key b)).getLast? =
      (blocks.filter (·.strictlyContains key)).getLast? := by
  apply getLast?_filter_of_imp
  · intro b hb
    exact (of_decide_eq_true hb).1
  · intro b hb
    exact decide_eq_true (firstLevelAround_of_getLast? hsorted hb)

/-- Whether of any two blocks around a key one contains the other. -/
def NestedAround (blocks : List ResourceKey) (key : ResourceKey) : Prop :=
  ∀ b ∈ blocks, ∀ c ∈ blocks, b.strictlyContains key = true → c.strictlyContains key = true →
    b.contains c = true ∨ c.contains b = true

/-- Of two smallest blocks neither contains the other, so nested blocks have one smallest. -/
theorem NestedAround.eq_of_firstLevelAround {blocks : List ResourceKey} {key b c : ResourceKey}
    (h : NestedAround blocks key) (hb : b ∈ blocks) (hc : c ∈ blocks)
    (hbaround : FirstLevelAround blocks key b) (hcaround : FirstLevelAround blocks key c) :
    b = c := by
  by_contra hne
  rcases h b hb c hc hbaround.1 hcaround.1 with hin | hin
  · exact hbaround.2 c hc hcaround.1 (Ne.symm hne) hin
  · exact hcaround.2 b hb hbaround.1 hne hin

/-- Of nested blocks around a key, the last is all of the smallest. -/
theorem NestedAround.toList_getLast? {blocks : List ResourceKey} {key : ResourceKey}
    (h : NestedAround blocks key) (hsorted : blocks.Pairwise fun a b => a.cmp b = .lt) :
    (blocks.filter fun b => decide (FirstLevelAround blocks key b)).getLast?.toList =
      blocks.filter fun b => decide (FirstLevelAround blocks key b) := by
  apply toList_getLast?_of_forall_eq (ResourceKey.nodup_of_sorted (hsorted.filter _))
  intro b hb c hc
  obtain ⟨hb, hbaround⟩ := List.mem_filter.mp hb
  obtain ⟨hc, hcaround⟩ := List.mem_filter.mp hc
  exact h.eq_of_firstLevelAround hb hc (of_decide_eq_true hbaround) (of_decide_eq_true hcaround)

/-- One level less specific, a lookup finds the values of the last of the smallest blocks around the
key, and together with the exact block it does so where that block has no values. These are all that
the smallest blocks hold if the blocks around the key are nested. -/
theorem lookup_oneLess_ofList (entries : List (ResourceKey × α)) (key : ResourceKey) :
    ∃ found : List ResourceKey,
      found.Pairwise (fun a b => a.cmp b = .lt) ∧
      (∀ b, b ∈ found ↔ (∃ e ∈ entries, e.1 = b) ∧ FirstLevelAround (entries.map (·.1)) key b) ∧
      (ofList entries).lookup key .oneLess =
        found.getLast?.toList.flatMap (valuesUnder entries) ∧
      (ofList entries).lookup key .exactOrOneLess =
        (if ∃ e ∈ entries, e.1 = key then valuesUnder entries key
          else (ofList entries).lookup key .oneLess) ∧
      (NestedAround (entries.map (·.1)) key →
        (ofList entries).lookup key .oneLess =
          (found.flatMap (valuesUnder entries)).eraseDups) := by
  have hlisted := listed_ofList entries
  have hsorted := keys_pairwise hlisted
  have hkeys : ∀ b, b ∈ entries.map (·.1) ↔ b ∈ (ofList entries).keys := by
    intro b
    rw [mem_keys_ofList, List.mem_map]
  have haround : ∀ b, FirstLevelAround (ofList entries).keys key b ↔
      FirstLevelAround (entries.map (·.1)) key b := by
    intro b
    simp only [FirstLevelAround, hkeys]
  have hvalues : (ofList entries).valuesAt = valuesUnder entries := by
    funext b
    exact valuesAt_ofList entries b
  let found := (ofList entries).keys.filter fun b =>
    decide (FirstLevelAround (ofList entries).keys key b)
  have hlookup : (ofList entries).lookup key .oneLess =
      found.getLast?.toList.flatMap (valuesUnder entries) := by
    rw [lookup_oneLess_of_listed hlisted, ← getLast?_filter_firstLevelAround hsorted, hvalues]
    cases found.getLast? with
    | none => rfl
    | some b => simp [eraseDups_valuesUnder]
  refine ⟨found, hsorted.filter _, ?_, hlookup, ?_, ?_⟩
  · intro b
    rw [List.mem_filter, mem_keys_ofList, decide_eq_true_eq, haround]
  · rw [lookup_exactOrOneLess, lookup_exact_ofList]
    simp only [mem_keys_ofList]
  · intro hnested
    have hnested : NestedAround (ofList entries).keys key := by
      intro b hb c hc
      exact hnested b ((hkeys b).mpr hb) c ((hkeys c).mpr hc)
    have hall : found.getLast?.toList = found := hnested.toList_getLast? hsorted
    conv_rhs => rw [← hall]
    rw [hlookup]
    cases found.getLast? with
    | none => rfl
    | some b => simp [eraseDups_valuesUnder]

/-- Two blocks overlap around an address, the smaller one first. Its value is not found. -/
theorem lookup_oneLess_misses_overlapping :
    ∃ a b key : ResourceKey,
      (ResourceKey.read? "10.0.0.0 - 10.0.0.10" = some a ∧
        ResourceKey.read? "10.0.0.5 - 10.0.0.255" = some b ∧
        ResourceKey.read? "10.0.0.7" = some key) ∧
      FirstLevelAround [a, b] key a ∧ FirstLevelAround [a, b] key b ∧
      (ofList [(a, ("A" : Text)), (b, "B")]).lookup key .oneLess = ["B"] ∧
      (ofList [(a, ("A" : Text)), (b, "B")]).lookup key .exactOrOneLess = ["B"] := by
  refine ⟨_, _, _, ⟨rfl, rfl, rfl⟩, ?_⟩
  decide +kernel

end Index

end Whois

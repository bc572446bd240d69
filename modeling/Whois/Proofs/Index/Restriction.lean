import Mathlib.Data.List.Nodup
import Whois.Proofs.Index.Reach

/-!
Walks among the values of one kind. Whether the values are chosen before the walk or after it makes
no difference where the walk looks at every block for itself. Where it stops at the nearest block,
a block without values of the kind can hide one that has some; but nothing is found that would not
be found among these values alone.
-/
namespace Whois.Index

section Blocks
variable {blocks : List ResourceKey} {kept : ResourceKey → Bool} {key b : ResourceKey}
  {op : MatchOperation}

/-- Whether an operation looks at every block for itself, and not for the nearest. -/
def IsPointwise (op : MatchOperation) : Prop := op = .exact ∨ op = .allLess ∨ op = .allMore

theorem reach_filter_of_isPointwise (h : IsPointwise op) :
    reach (blocks.filter kept) key op = (reach blocks key op).filter kept := by
  rcases h with rfl | rfl | rfl
  · exact List.filter_comm ..
  · exact List.filter_comm ..
  · exact List.filter_comm ..

theorem getLast?_filter_of_getLast? {α : Type} {p : α → Bool} {l : List α} {a : α}
    (h : l.getLast? = some a) (ha : p a = true) : (l.filter p).getLast? = some a := by
  obtain ⟨rest, rfl⟩ := List.getLast?_eq_some_iff.mp h
  rw [List.filter_append, List.filter_cons_of_pos ha, List.filter_nil, List.getLast?_concat]

/-- The nearest block around a key is still the nearest if others are left out. -/
theorem getLast?_around_filter
    (h : (blocks.filter (·.strictlyContains key)).getLast? = some b) (hb : kept b = true) :
    ((blocks.filter kept).filter (·.strictlyContains key)).getLast? = some b := by
  rw [List.filter_comm]
  exact getLast?_filter_of_getLast? h hb

theorem getLast?_around_filter_of_forall
    (h : ∀ b ∈ (blocks.filter (·.strictlyContains key)).getLast?.toList, kept b = true) :
    ((blocks.filter kept).filter (·.strictlyContains key)).getLast? =
      (blocks.filter (·.strictlyContains key)).getLast? := by
  cases hlast : (blocks.filter (·.strictlyContains key)).getLast? with
  | none =>
    rw [List.getLast?_eq_none_iff] at hlast
    rw [List.filter_comm, hlast]
    rfl
  | some b =>
    rw [hlast] at h
    exact getLast?_around_filter hlast (h b (List.mem_singleton_self b))

theorem FirstLevelIn.filter (h : FirstLevelIn blocks key b) :
    FirstLevelIn (blocks.filter kept) key b :=
  ⟨h.1, fun c hc => h.2 c (List.mem_filter.mp hc).1⟩

/-- What is kept of the blocks that a walk reaches is reached among the blocks that are kept. -/
theorem mem_reach_filter (h : b ∈ reach blocks key op) (hb : kept b = true) :
    b ∈ reach (blocks.filter kept) key op := by
  cases op with
  | exact =>
    rw [reach_filter_of_isPointwise (.inl rfl)]
    exact List.mem_filter.mpr ⟨h, hb⟩
  | allLess =>
    rw [reach_filter_of_isPointwise (.inr (.inl rfl))]
    exact List.mem_filter.mpr ⟨h, hb⟩
  | allMore =>
    rw [reach_filter_of_isPointwise (.inr (.inr rfl))]
    exact List.mem_filter.mpr ⟨h, hb⟩
  | oneLess =>
    unfold reach at h ⊢
    rw [Option.mem_toList] at h ⊢
    exact getLast?_around_filter h hb
  | exactOrOneLess =>
    simp only [reach] at h ⊢
    split at h
    next hkey =>
      have hbkey : b = key := List.mem_singleton.mp h
      subst hbkey
      rw [if_pos (List.mem_filter.mpr ⟨hkey, hb⟩)]
      exact h
    next hkey =>
      have hnot : key ∉ blocks.filter kept := fun hmem => hkey (List.mem_filter.mp hmem).1
      rw [if_neg hnot, Option.mem_toList]
      exact getLast?_around_filter (Option.mem_toList.mp h) hb
  | oneMore =>
    unfold reach at h ⊢
    obtain ⟨hmem, hfirst⟩ := List.mem_filter.mp h
    have hfirst : FirstLevelIn blocks key b := of_decide_eq_true hfirst
    exact List.mem_filter.mpr ⟨List.mem_filter.mpr ⟨hmem, hb⟩, decide_eq_true hfirst.filter⟩

/-- Whether an operation stops at the nearest block around the key. -/
def IsNearest (op : MatchOperation) : Prop := op = .oneLess ∨ op = .exactOrOneLess

/-- Such an operation reaches one block at most. -/
theorem reach_of_isNearest (h : IsNearest op) (blocks : List ResourceKey) (key : ResourceKey) :
    ∃ nearest : Option ResourceKey, reach blocks key op = nearest.toList := by
  rcases h with rfl | rfl
  · exact ⟨_, rfl⟩
  · simp only [reach]
    split
    · exact ⟨some key, rfl⟩
    · exact ⟨_, rfl⟩

theorem filter_reach_of_isNearest (h : IsNearest op) :
    (reach blocks key op).filter kept = [] ∨
      (reach blocks key op).filter kept = reach (blocks.filter kept) key op := by
  obtain ⟨nearest, hreach⟩ := reach_of_isNearest h blocks key
  obtain ⟨nearestKept, hreachKept⟩ := reach_of_isNearest h (blocks.filter kept) key
  cases nearest with
  | none =>
    left
    rw [hreach]
    rfl
  | some b =>
    cases hb : kept b with
    | false =>
      left
      rw [hreach]
      exact List.filter_cons_of_neg (by simp [hb])
    | true =>
      right
      have hmem : b ∈ reach (blocks.filter kept) key op := by
        apply mem_reach_filter _ hb
        rw [hreach]
        exact List.mem_singleton_self b
      rw [hreachKept, Option.mem_toList] at hmem
      rw [hreach, hreachKept, hmem]
      exact List.filter_cons_of_pos hb

/-- The first block around one that lies in the key is in no other. -/
theorem exists_oneMore_contains (hsorted : blocks.Pairwise fun a b => a.cmp b = .lt)
    (hb : b ∈ blocks) (hin : key.strictlyContains b = true) :
    ∃ d ∈ reach blocks key .oneMore, d.contains b = true := by
  have haround : b ∈ blocks.filter fun d => key.strictlyContains d && d.contains b := by
    rw [List.mem_filter, hin, ResourceKey.contains_self]
    exact ⟨hb, rfl⟩
  obtain ⟨d, rest, hsplit⟩ := List.exists_cons_of_ne_nil (List.ne_nil_of_mem haround)
  have hd : d ∈ blocks.filter fun d => key.strictlyContains d && d.contains b := by
    rw [hsplit]
    exact List.mem_cons_self
  obtain ⟨hd, hdin, hdb⟩ : d ∈ blocks ∧ key.strictlyContains d = true ∧ d.contains b = true := by
    rwa [List.mem_filter, Bool.and_eq_true] at hd
  refine ⟨d, List.mem_filter.mpr ⟨hd, decide_eq_true ⟨hdin, ?_⟩⟩, hdb⟩
  intro c hc hcin hne hcd
  have hcrest : c ∈ rest := by
    have hcb := ResourceKey.contains_trans hcd hdb
    have hmem : c ∈ blocks.filter fun d => key.strictlyContains d && d.contains b := by
      rw [List.mem_filter, hcin, hcb]
      exact ⟨hc, rfl⟩
    rw [hsplit] at hmem
    exact (List.mem_cons.mp hmem).resolve_left hne
  have hdc : d.cmp c = .lt := by
    have hpairs := hsorted.filter fun d => key.strictlyContains d && d.contains b
    rw [hsplit] at hpairs
    exact List.rel_of_pairwise_cons hpairs hcrest
  exact ResourceKey.not_cmp_of_cmp hdc (ResourceKey.cmp_of_contains hcd hne)

theorem firstLevelIn_filter_iff (hsorted : blocks.Pairwise fun a b => a.cmp b = .lt)
    (h : ∀ b ∈ reach blocks key .oneMore, kept b = true) (hb : b ∈ blocks) :
    FirstLevelIn (blocks.filter kept) key b ∧ kept b = true ↔ FirstLevelIn blocks key b := by
  constructor
  · intro ⟨hfirst, hkept⟩
    obtain ⟨d, hd, hdb⟩ := exists_oneMore_contains hsorted hb hfirst.1
    obtain ⟨hdmem, hdfirst⟩ := List.mem_filter.mp hd
    have hdfirst : FirstLevelIn blocks key d := of_decide_eq_true hdfirst
    by_cases hdeq : d = b
    · exact hdeq ▸ hdfirst
    · have hdkept : d ∈ blocks.filter kept := List.mem_filter.mpr ⟨hdmem, h d hd⟩
      exact absurd hdb (hfirst.2 d hdkept hdfirst.1 hdeq)
  · intro hfirst
    exact ⟨hfirst.filter, h b (List.mem_filter.mpr ⟨hb, decide_eq_true hfirst⟩)⟩

/-- A walk that only reaches blocks that are kept is the same among these. -/
theorem reach_filter_of_forall (hsorted : blocks.Pairwise fun a b => a.cmp b = .lt)
    (h : ∀ b ∈ reach blocks key op, kept b = true) :
    reach (blocks.filter kept) key op = reach blocks key op := by
  have hself : (reach blocks key op).filter kept = reach blocks key op := List.filter_eq_self.mpr h
  cases op with
  | exact => rw [reach_filter_of_isPointwise (.inl rfl), hself]
  | allLess => rw [reach_filter_of_isPointwise (.inr (.inl rfl)), hself]
  | allMore => rw [reach_filter_of_isPointwise (.inr (.inr rfl)), hself]
  | oneLess =>
    unfold reach at h ⊢
    rw [getLast?_around_filter_of_forall h]
  | exactOrOneLess =>
    simp only [reach] at h ⊢
    by_cases hkey : key ∈ blocks
    · rw [if_pos hkey] at h ⊢
      rw [if_pos (List.mem_filter.mpr ⟨hkey, h key (List.mem_singleton_self key)⟩)]
    · have hnot : key ∉ blocks.filter kept := fun hmem => hkey (List.mem_filter.mp hmem).1
      rw [if_neg hkey] at h ⊢
      rw [if_neg hnot, getLast?_around_filter_of_forall h]
  | oneMore =>
    change (blocks.filter kept).filter _ = blocks.filter _
    rw [List.filter_filter]
    apply List.filter_congr
    intro b hb
    rw [Bool.eq_iff_iff, Bool.and_eq_true, decide_eq_true_iff, decide_eq_true_iff]
    exact firstLevelIn_filter_iff hsorted h hb

end Blocks

variable {α : Type}

/-- The insertions of wanted values. -/
def restrict (entries : List (ResourceKey × α)) (wanted : α → Bool) : List (ResourceKey × α) :=
  entries.filter fun e => wanted e.2

/-- Whether a block has a value that is wanted. -/
def hasWanted (entries : List (ResourceKey × α)) (wanted : α → Bool) (key : ResourceKey) : Bool :=
  entries.any fun e => decide (e.1 = key) && wanted e.2

variable {entries : List (ResourceKey × α)} {wanted : α → Bool} {key : ResourceKey}
  {op : MatchOperation} {v : α}

theorem hasWanted_iff :
    hasWanted entries wanted key = true ↔ ∃ e ∈ entries, e.1 = key ∧ wanted e.2 = true := by
  simp [hasWanted]

variable [DecidableEq α]

theorem valuesUnder_restrict (key : ResourceKey) :
    valuesUnder (restrict entries wanted) key = (valuesUnder entries key).filter wanted := by
  unfold valuesUnder restrict
  rw [← eraseDups_filter, List.filter_map, List.filter_comm]
  rfl

theorem mem_keys_restrict :
    key ∈ (ofList (restrict entries wanted)).keys ↔ hasWanted entries wanted key = true := by
  rw [mem_keys_ofList, hasWanted_iff]
  unfold restrict
  constructor
  · intro ⟨e, he, heq⟩
    obtain ⟨he, hv⟩ := List.mem_filter.mp he
    exact ⟨e, he, heq, hv⟩
  · intro ⟨e, he, heq, hv⟩
    exact ⟨e, List.mem_filter.mpr ⟨he, hv⟩, heq⟩

/-- The blocks that are left are those with a wanted value. -/
theorem keys_restrict :
    (ofList (restrict entries wanted)).keys =
      (ofList entries).keys.filter (hasWanted entries wanted) := by
  have hleft := keys_pairwise (listed_ofList (restrict entries wanted))
  have hright := (keys_pairwise (listed_ofList entries)).filter (hasWanted entries wanted)
  have hmem : ∀ b, b ∈ (ofList (restrict entries wanted)).keys ↔
      b ∈ (ofList entries).keys.filter (hasWanted entries wanted) := by
    intro b
    rw [mem_keys_restrict, List.mem_filter, mem_keys_ofList]
    constructor
    · intro hb
      obtain ⟨e, he, heq, _⟩ := hasWanted_iff.mp hb
      exact ⟨⟨e, he, heq⟩, hb⟩
    · exact fun hb => hb.2
  exact eq_of_pairwise_of_mem_iff (fun _ _ => ResourceKey.not_cmp_of_cmp) hleft hright hmem

theorem valuesAt_restrict (key : ResourceKey) :
    (ofList (restrict entries wanted)).valuesAt key =
      ((ofList entries).valuesAt key).filter wanted := by
  rw [valuesAt_ofList, valuesAt_ofList, valuesUnder_restrict]

theorem valuesAt_restrict_eq_nil (h : hasWanted entries wanted key = false) :
    (ofList (restrict entries wanted)).valuesAt key = [] := by
  apply valuesAt_eq_nil
  rw [mem_keys_restrict, h]
  exact Bool.false_ne_true

/-- Blocks without wanted values do not count. -/
theorem flatMap_valuesAt_restrict (blocks : List ResourceKey) :
    (blocks.filter (hasWanted entries wanted)).flatMap
        (ofList (restrict entries wanted)).valuesAt =
      blocks.flatMap (ofList (restrict entries wanted)).valuesAt := by
  induction blocks with
  | nil => rfl
  | cons b rest ih =>
    cases hb : hasWanted entries wanted b with
    | true => rw [List.filter_cons_of_pos hb, List.flatMap_cons, List.flatMap_cons, ih]
    | false =>
      rw [List.filter_cons_of_neg (by simp [hb]), List.flatMap_cons, valuesAt_restrict_eq_nil hb,
        List.nil_append, ih]

theorem filter_lookup_ofList (key : ResourceKey) (op : MatchOperation) :
    ((ofList entries).lookup key op).filter wanted =
      ((reach (ofList entries).keys key op).flatMap
        (ofList (restrict entries wanted)).valuesAt).eraseDups := by
  rw [lookup_eq (listed_ofList entries), ← eraseDups_filter, List.filter_flatMap]
  congr 2
  funext b
  exact (valuesAt_restrict b).symm

theorem lookup_restrict (key : ResourceKey) (op : MatchOperation) :
    (ofList (restrict entries wanted)).lookup key op =
      ((reach ((ofList entries).keys.filter (hasWanted entries wanted)) key op).flatMap
        (ofList (restrict entries wanted)).valuesAt).eraseDups := by
  rw [lookup_eq (listed_ofList _), keys_restrict]

theorem filter_lookup_of_isPointwise (h : IsPointwise op) :
    ((ofList entries).lookup key op).filter wanted =
      (ofList (restrict entries wanted)).lookup key op := by
  rw [filter_lookup_ofList, lookup_restrict, reach_filter_of_isPointwise h,
    flatMap_valuesAt_restrict]

theorem mem_lookup_restrict (hv : v ∈ ((ofList entries).lookup key op).filter wanted) :
    v ∈ (ofList (restrict entries wanted)).lookup key op := by
  rw [filter_lookup_ofList, ← flatMap_valuesAt_restrict, List.mem_eraseDups,
    List.mem_flatMap] at hv
  obtain ⟨b, hb, hvb⟩ := hv
  obtain ⟨hreach, hkept⟩ := List.mem_filter.mp hb
  rw [lookup_restrict, List.mem_eraseDups, List.mem_flatMap]
  exact ⟨b, mem_reach_filter hreach hkept, hvb⟩

theorem filter_lookup_of_isNearest (h : IsNearest op) :
    ((ofList entries).lookup key op).filter wanted = [] ∨
      ((ofList entries).lookup key op).filter wanted =
        (ofList (restrict entries wanted)).lookup key op := by
  rw [filter_lookup_ofList, ← flatMap_valuesAt_restrict, lookup_restrict]
  rcases filter_reach_of_isNearest h with hnone | hsame
  · left
    rw [hnone]
    rfl
  · right
    rw [hsame]

/-- If a walk only reaches blocks with a wanted value, none of them hides another. -/
theorem filter_lookup_of_forall_hasWanted
    (h : ∀ b ∈ reach (ofList entries).keys key op, hasWanted entries wanted b = true) :
    ((ofList entries).lookup key op).filter wanted =
      (ofList (restrict entries wanted)).lookup key op := by
  rw [filter_lookup_ofList, lookup_restrict,
    reach_filter_of_forall (keys_pairwise (listed_ofList entries)) h]

end Whois.Index

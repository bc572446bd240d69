import Mathlib.Data.List.Basic
import Whois.Index.Layer
import Whois.Proofs.Interval

/-!
Layers that insertion builds: their blocks stand in listing order, each once, and a walk from a key
selects blocks by what they contain, wherever they stand.
-/
namespace Whois.Layer

variable {w : Nat} {α : Type}

/-- Every block is listed before those that follow it. So no block stands twice. -/
def Listed (layer : Layer w α) : Prop :=
  layer.Pairwise fun d e => d.block.before e.block = true

def blocks (layer : Layer w α) : List (Block w) := layer.map (·.block)

theorem blocks_cons (e : Entry w α) (layer : Layer w α) :
    blocks (e :: layer) = e.block :: layer.blocks := rfl

theorem blocks_pairwise {layer : Layer w α} (h : layer.Listed) :
    layer.blocks.Pairwise fun a b => a.before b = true :=
  List.pairwise_map.mpr h

theorem valuesAt_cons (e : Entry w α) (layer : Layer w α) (b : Block w) :
    valuesAt (e :: layer) b = if e.block = b then e.values else layer.valuesAt b := by
  unfold valuesAt entry?
  by_cases h : e.block = b <;> simp [h]

theorem valuesAt_eq_nil {layer : Layer w α} {b : Block w} (h : b ∉ layer.blocks) :
    layer.valuesAt b = [] := by
  induction layer with
  | nil => rfl
  | cons e rest ih =>
    simp only [blocks, List.map_cons, List.mem_cons, not_or] at h
    rw [valuesAt_cons, if_neg (Ne.symm h.1)]
    exact ih h.2

/-- In listing order the values of a block are those of the entry that holds it. -/
theorem valuesAt_block {layer : Layer w α} (h : layer.Listed) {e : Entry w α} (he : e ∈ layer) :
    layer.valuesAt e.block = e.values := by
  induction layer with
  | nil => simp at he
  | cons d rest ih =>
    obtain ⟨hd, hrest⟩ := List.pairwise_cons.mp h
    rw [valuesAt_cons]
    rcases List.mem_cons.mp he with rfl | he
    · rw [if_pos rfl]
    · have hne : d.block ≠ e.block := fun heq =>
        Interval.not_before_self e.block (heq ▸ hd e he)
      rw [if_neg hne]
      exact ih hrest he

/-- The values that the selected entries hold are the values of their blocks. -/
theorem flatMap_values_filter {layer : Layer w α} (h : layer.Listed) (p : Block w → Bool) :
    (layer.filter (p ·.block)).flatMap (·.values) =
      (layer.blocks.filter p).flatMap layer.valuesAt := by
  have hmap : layer.blocks.filter p = (layer.filter (p ·.block)).map (·.block) := by
    simp [blocks, List.filter_map, Function.comp_def]
  rw [hmap, List.flatMap_map]
  apply List.flatMap_congr
  intro e he
  exact (valuesAt_block h (List.mem_of_mem_filter he)).symm

section Insertion
variable [DecidableEq α]

theorem mem_blocks_insert {b c : Block w} {v : α} {layer : Layer w α} :
    c ∈ (layer.insert b v).blocks ↔ c = b ∨ c ∈ layer.blocks := by
  induction layer with
  | nil => simp [insert, blocks]
  | cons e rest ih =>
    unfold insert
    split
    next h => simp [blocks, h]
    next =>
      split
      next => simp [blocks]
      next =>
        have hcons : ∀ rest' : Layer w α,
            c ∈ blocks (e :: rest') ↔ c = e.block ∨ c ∈ rest'.blocks :=
          fun rest' => by simp [blocks]
        rw [hcons, hcons, ih]
        exact or_left_comm

theorem Listed.insert {layer : Layer w α} (h : layer.Listed) (b : Block w) (v : α) :
    (layer.insert b v).Listed := by
  induction layer with
  | nil => exact List.pairwise_singleton _ _
  | cons e rest ih =>
    obtain ⟨he, hrest⟩ := List.pairwise_cons.mp h
    unfold Layer.insert
    split
    next heq =>
      subst heq
      exact List.pairwise_cons.mpr ⟨he, hrest⟩
    next hne =>
      split
      next hbefore =>
        refine List.pairwise_cons.mpr ⟨?_, h⟩
        intro d hd
        rcases List.mem_cons.mp hd with rfl | hd
        · exact hbefore
        · exact Interval.before_trans hbefore (he d hd)
      next hnot =>
        refine List.pairwise_cons.mpr ⟨?_, ih hrest⟩
        intro d hd
        rcases mem_blocks_insert.mp (List.mem_map_of_mem hd) with hb | hmem
        · rcases Interval.before_or_eq_or_before b e.block with hbe | heq | heb
          · exact absurd hbe hnot
          · exact absurd heq hne
          · exact hb ▸ heb
        · obtain ⟨d', hd', heq⟩ := List.mem_map.mp hmem
          exact heq ▸ he d' hd'

/-- The values of a block after one more was added. -/
def added (v : α) (values : List α) : List α := if v ∈ values then values else values ++ [v]

theorem valuesAt_insert {layer : Layer w α} (h : layer.Listed) (b c : Block w) (v : α) :
    (layer.insert b v).valuesAt c =
      if c = b then added v (layer.valuesAt b) else layer.valuesAt c := by
  induction layer with
  | nil =>
    by_cases hc : c = b
    · simp [Layer.insert, valuesAt, entry?, added, hc]
    · simp [Layer.insert, valuesAt, entry?, hc, Ne.symm hc]
  | cons e rest ih =>
    obtain ⟨he, hrest⟩ := List.pairwise_cons.mp h
    unfold Layer.insert
    split
    next heq =>
      subst heq
      by_cases hc : c = e.block
      · simp [valuesAt_cons, added, hc]
      · simp [valuesAt_cons, hc, Ne.symm hc]
    next hne =>
      split
      next hbefore =>
        -- the block is new, since all that follows is listed after it
        have hnew : valuesAt (e :: rest) b = [] := by
          apply valuesAt_eq_nil
          intro hmem
          obtain ⟨d, hd, rfl⟩ := List.mem_map.mp hmem
          rcases List.mem_cons.mp hd with rfl | hd
          · exact hne rfl
          · exact Interval.not_before_of_before hbefore (he d hd)
        by_cases hc : c = b
        · rw [if_pos hc, hnew, valuesAt_cons, if_pos hc.symm]
          rfl
        · rw [if_neg hc, valuesAt_cons, if_neg (Ne.symm hc)]
      next hnot =>
        rw [valuesAt_cons, valuesAt_cons, valuesAt_cons, ih hrest]
        by_cases hc : c = b
        · simp [hc, Ne.symm hne]
        · simp [hc]

end Insertion

theorem filter_dropWhile {β : Type} {p q : β → Bool} (h : ∀ x, p x = true → q x = false)
    (l : List β) : (l.dropWhile p).filter q = l.filter q := by
  induction l with
  | nil => rfl
  | cons x l ih =>
    rw [List.dropWhile_cons]
    split
    next hp => rw [ih, List.filter_cons_of_neg (by simp [h x hp])]
    next => rfl

/-- Nothing is lost where a walk stops, if nothing at or after that place is looked for. -/
theorem filter_takeWhile {β : Type} {p q : β → Bool} {r : β → β → Prop} {l : List β}
    (hl : l.Pairwise r) (hstop : ∀ x, p x = false → q x = false)
    (hafter : ∀ x y, p x = false → r x y → q y = false) :
    (l.takeWhile p).filter q = l.filter q := by
  induction l with
  | nil => rfl
  | cons x l ih =>
    obtain ⟨hx, hl⟩ := List.pairwise_cons.mp hl
    rw [List.takeWhile_cons]
    split
    next => rw [List.filter_cons, List.filter_cons, ih hl]
    next hp =>
      have hp := Bool.eq_false_iff.mpr hp
      rw [List.filter_nil, List.filter_cons_of_neg (by simp [hstop x hp]), eq_comm,
        List.filter_eq_nil_iff]
      intro y hy
      simp [hafter x y hp (hx y hy)]

/-- The entries strictly inside a key, wherever they stand. -/
theorem moreSpecific_eq_filter {layer : Layer w α} (h : layer.Listed) (key : Block w) :
    layer.moreSpecific key = layer.filter (key.strictlyContains ·.block) := by
  have hbefore : ∀ e : Entry w α, e.block.before key = true →
      key.strictlyContains e.block = false := by
    intro e he
    rw [Bool.eq_false_iff, ne_eq, Interval.strictlyContains_iff]
    rintro ⟨hin, hne⟩
    exact Interval.not_before_of_before (Interval.before_of_contains hin hne) he
  have hpast : ∀ b : Block w, ¬ b.lo ≤ key.hi → key.strictlyContains b = false := by
    intro b hb
    rw [Bool.eq_false_iff, ne_eq, Interval.strictlyContains_iff, Interval.contains_iff]
    rintro ⟨⟨_, hhi⟩, _⟩
    exact hb (Std.le_trans b.lo_le_hi hhi)
  have hdrop : (layer.dropWhile fun e => e.block.before key).Pairwise
      fun d e => d.block.before e.block = true :=
    h.sublist (List.dropWhile_sublist _)
  unfold moreSpecific startingIn
  rw [filter_takeWhile hdrop, filter_dropWhile hbefore]
  · intro e he
    exact hpast _ (by simpa using he)
  · intro d e hd hde
    apply hpast
    rw [Interval.before_iff] at hde
    have hd : ¬ d.block.lo ≤ key.hi := by simpa using hd
    grind

/-- Whether no other block of a list contains `b`. -/
def Outermost (blocks : List (Block w)) (b : Block w) : Prop :=
  ∀ o ∈ blocks, o.contains b = true → o = b

instance (blocks : List (Block w)) (b : Block w) : Decidable (Outermost blocks b) :=
  inferInstanceAs (Decidable (∀ o ∈ blocks, o.contains b = true → o = b))

theorem outermost_cons_iff {a b : Block w} {blocks : List (Block w)} :
    Outermost (a :: blocks) b ↔ (a.contains b = true → a = b) ∧ Outermost blocks b :=
  List.forall_mem_cons

/-- The walk that forgets all but the last kept entry keeps exactly the entries that no other
contains. The kept entry ends last of all so far, so it contains whatever an earlier one does. -/
theorem outermostAfter_eq_filter {outer : Block w} {layer : Layer w α}
    (h : (outer :: layer.blocks).Pairwise fun a b => a.before b = true) :
    outermostAfter outer layer =
      layer.filter fun e => decide (Outermost (outer :: layer.blocks) e.block) := by
  induction layer generalizing outer with
  | nil => rfl
  | cons e rest ih =>
    rw [blocks_cons] at h ⊢
    obtain ⟨houter, hlisted⟩ := List.pairwise_cons.mp h
    obtain ⟨he, hrest⟩ := List.pairwise_cons.mp hlisted
    have hoe : outer.before e.block = true := houter _ (List.mem_cons_self ..)
    have hox : ∀ x ∈ rest, outer.before x.block = true := fun x hx =>
      houter _ (List.mem_cons_of_mem _ (List.mem_map_of_mem hx))
    have hex : ∀ x ∈ rest, e.block.before x.block = true := fun x hx =>
      he _ (List.mem_map_of_mem hx)
    unfold outermostAfter
    split
    next hin =>
      have hdropped : ¬ Outermost (outer :: e.block :: blocks rest) e.block := fun hall =>
        Interval.ne_of_before hoe (hall outer (List.mem_cons_self ..) hin)
      rw [List.filter_cons_of_neg (by simpa using hdropped),
        ih (List.pairwise_cons.mpr ⟨fun b hb => houter b (List.mem_cons_of_mem _ hb), hrest⟩)]
      apply List.filter_congr
      intro x hx
      rw [decide_eq_decide]
      rw [outermost_cons_iff, outermost_cons_iff, outermost_cons_iff]
      constructor
      · rintro ⟨ho, hr⟩
        exact ⟨ho, fun hc => absurd (ho (Interval.contains_trans hin hc))
          (Interval.ne_of_before (hox x hx)), hr⟩
      · rintro ⟨ho, _, hr⟩
        exact ⟨ho, hr⟩
    next hout =>
      have hkept : Outermost (outer :: e.block :: blocks rest) e.block := by
        rw [outermost_cons_iff, outermost_cons_iff]
        refine ⟨fun hc => absurd hc hout, fun _ => rfl, fun o ho hc => ?_⟩
        by_contra hne
        exact Interval.not_before_of_before (he o ho) (Interval.before_of_contains hc hne)
      rw [List.filter_cons_of_pos (by simpa using hkept), ih hlisted]
      congr 1
      apply List.filter_congr
      intro x hx
      rw [decide_eq_decide]
      rw [outermost_cons_iff (a := outer)]
      refine ⟨fun hr => ⟨fun hc => ?_, hr⟩, fun hr => hr.2⟩
      -- whatever lies in `outer` lies in the entry kept after it
      have hec := Interval.contains_of_before_of_not_contains hoe hout (hex x hx) hc
      exact absurd (hr e.block (List.mem_cons_self ..) hec) (Interval.ne_of_before (hex x hx))

theorem outermost_eq_filter {layer : Layer w α} (h : layer.Listed) :
    outermost layer = layer.filter fun e => decide (Outermost layer.blocks e.block) := by
  cases layer with
  | nil => rfl
  | cons e rest =>
    have hlisted := blocks_pairwise h
    rw [blocks_cons] at hlisted ⊢
    have hfirst : Outermost (e.block :: blocks rest) e.block := by
      rw [outermost_cons_iff]
      refine ⟨fun _ => rfl, fun o ho hc => ?_⟩
      by_contra hne
      exact Interval.not_before_of_before ((List.pairwise_cons.mp hlisted).1 o ho)
        (Interval.before_of_contains hc hne)
    change e :: outermostAfter e.block rest = _
    rw [List.filter_cons_of_pos (by simpa using hfirst), outermostAfter_eq_filter hlisted]

/-- Whether a block lies strictly inside a key, and inside no other such block of a list. -/
def FirstLevelIn (blocks : List (Block w)) (key b : Block w) : Prop :=
  key.strictlyContains b = true ∧
    ∀ c ∈ blocks, key.strictlyContains c = true → c.contains b = true → c = b

instance (blocks : List (Block w)) (key b : Block w) : Decidable (FirstLevelIn blocks key b) :=
  inferInstanceAs (Decidable (_ ∧ ∀ c ∈ blocks, _ → _ → _))

theorem select_oneMore {layer : Layer w α} (h : layer.Listed) (key : Block w) :
    layer.select key .oneMore =
      layer.filter fun e => decide (FirstLevelIn layer.blocks key e.block) := by
  have hinner : Listed (layer.filter (key.strictlyContains ·.block)) := h.filter _
  change outermost (layer.moreSpecific key) = _
  rw [moreSpecific_eq_filter h, outermost_eq_filter hinner, List.filter_filter]
  apply List.filter_congr
  intro e _
  have hblocks : ∀ c, c ∈ blocks (layer.filter (key.strictlyContains ·.block)) ↔
      c ∈ layer.blocks ∧ key.strictlyContains c = true := by
    intro c
    simp only [blocks, List.mem_map, List.mem_filter]
    constructor
    · rintro ⟨d, ⟨hd, hin⟩, rfl⟩
      exact ⟨⟨d, hd, rfl⟩, hin⟩
    · rintro ⟨⟨d, hd, rfl⟩, hin⟩
      exact ⟨d, ⟨hd, hin⟩, rfl⟩
  have houter : Outermost (blocks (layer.filter (key.strictlyContains ·.block))) e.block ↔
      ∀ c ∈ layer.blocks, key.strictlyContains c = true → c.contains e.block = true →
        c = e.block := by
    simp only [Outermost, hblocks, and_imp]
  rw [Bool.eq_iff_iff, Bool.and_eq_true, decide_eq_true_eq, decide_eq_true_eq, houter]
  exact and_comm

end Whois.Layer

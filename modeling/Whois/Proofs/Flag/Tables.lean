import Whois.Flag.Tables
import Whois.Proofs.Flag.Lookup

/-!
Flag tables are filled unless a flag is given twice. Every spelling of a flag that is given then finds
it, and so does the search through the list of flags.
-/
namespace Whois

namespace Table

variable {κ α : Type} [DecidableEq κ]

theorem lookup_filter_ne {k k' : κ} (h : k' ≠ k) (entries : List (κ × α)) :
    (entries.filter (·.1 ≠ k)).lookup k' = entries.lookup k' := by
  induction entries with
  | nil => rfl
  | cons entry entries ih =>
    by_cases hentry : entry.1 = k
    · have hk' : (k' == entry.1) = false := by rwa [hentry, beq_eq_false_iff_ne]
      rw [List.filter_cons_of_neg (by simpa using hentry), ih, List.lookup_cons, hk']
    · rw [List.filter_cons_of_pos (by simpa using hentry), List.lookup_cons, List.lookup_cons, ih]

theorem get?_put (t : Table κ α) (k k' : κ) (a : α) :
    (t.put k a).get? k' = if k' = k then some a else t.get? k' := by
  unfold get? put
  rw [List.lookup_cons]
  split_ifs with hk
  · rw [beq_iff_eq.mpr hk]
  · rw [beq_eq_false_iff_ne.mpr hk]
    exact lookup_filter_ne hk t.entries

theorem size_put {t : Table κ α} {k : κ} (h : t.get? k = none) (a : α) :
    (t.put k a).size = t.size + 1 := by
  have hfilter : t.entries.filter (·.1 ≠ k) = t.entries := by
    rw [List.filter_eq_self]
    intro entry hentry
    have hkey := List.lookup_eq_none_iff.mp h entry hentry
    rw [bne_iff_ne] at hkey
    exact decide_eq_true hkey.symm
  exact congrArg (List.length · + 1) hfilter

end Table

variable {f : Flag} {s : Spelling} {spec : FlagSpec}

namespace Flag

/-- The places of the spellings of a flag. -/
def slots (f : Flag) : List (Char ⊕ Text) := f.spellings.map Spelling.slot

theorem nodup_slots (f : Flag) : f.slots.Nodup := by cases f <;> decide

theorem slot_of_mem (h : s ∈ f.spellings) : s.slot =
    match s with
    | .letter c => .inl c
    | .name word => .inr (Text.lower word) := by
  cases s with
  | letter c => rfl
  | name word =>
    have hlength := one_lt_length_of_name h
    match word with
    | [] => cases hlength
    | [_] => exact absurd hlength (Nat.lt_irrefl 1)
    | _ :: _ :: _ => rfl

/-- No two flags have a spelling in the same place. -/
theorem eq_of_mem_slots {f f' : Flag} {k : Char ⊕ Text} (h : k ∈ f.slots) (h' : k ∈ f'.slots) :
    f = f' := by
  obtain ⟨s, hs, rfl⟩ := List.mem_map.mp h
  obtain ⟨s', hs', hslot⟩ := List.mem_map.mp h'
  refine eq_of_clashes hs hs' ?_
  rw [slot_of_mem hs, slot_of_mem hs'] at hslot
  cases s <;> cases s' <;> simp_all [Spelling.clashes, Text.alike]

theorem inl_mem_slots {c : Char} : .inl c ∈ f.slots ↔ ∃ s ∈ f.spellings, s.text = [c] := by
  rw [exists_text_eq_singleton]
  unfold slots
  rw [List.mem_map]
  constructor
  · rintro ⟨s, hs, hslot⟩
    rw [slot_of_mem hs] at hslot
    cases s with
    | letter d =>
      cases hslot
      exact hs
    | name w => cases hslot
  · exact fun h => ⟨_, h, rfl⟩

theorem inr_mem_slots {word : Text} : .inr (Text.lower word) ∈ f.slots ↔
    ∃ s ∈ f.spellings, 1 < s.text.length ∧ Text.alike word s.text = true := by
  rw [exists_alike_text]
  unfold slots
  rw [List.mem_map]
  constructor
  · rintro ⟨s, hs, hslot⟩
    rw [slot_of_mem hs] at hslot
    cases s with
    | letter d => cases hslot
    | name w => exact ⟨w, hs, beq_iff_eq.mpr (Sum.inr.inj hslot).symm⟩
  · rintro ⟨w, hw, halike⟩
    refine ⟨_, hw, ?_⟩
    rw [slot_of_mem hw, beq_iff_eq.mp halike]

end Flag

namespace FlagTables

variable {t : FlagTables} {done specs : List FlagSpec}

/-- The flag that has a place in the tables. -/
def owner? (t : FlagTables) : Char ⊕ Text → Option Flag
  | .inl c => t.letters.get? c
  | .inr word => t.names.get? word

/-- What the tables hold once the given flags are registered. -/
structure Holds (t : FlagTables) (done : List FlagSpec) : Prop where
  spec : ∀ f spec, t.spec? f = some spec ↔ spec ∈ done ∧ spec.flag = f
  owner : ∀ k f, t.owner? k = some f ↔ (∃ spec ∈ done, spec.flag = f) ∧ k ∈ f.slots
  size : t.size = done.length

theorem holds_empty : Holds empty [] := by
  refine ⟨fun f spec => ?_, fun k f => ?_, rfl⟩
  · refine ⟨fun h => ?_, fun h => absurd h.1 List.not_mem_nil⟩
    cases h
  · refine ⟨fun h => ?_, fun ⟨⟨_, h, _⟩, _⟩ => absurd h List.not_mem_nil⟩
    cases k <;> cases h

theorem addSpelling_taken (f : Flag) (h : (t.owner? s.slot).isSome = true) :
    addSpelling f t s = .error s := by
  unfold addSpelling
  cases hslot : s.slot with
  | inl c =>
    rw [hslot] at h
    exact if_pos h
  | inr word =>
    rw [hslot] at h
    exact if_pos h

/-- A spelling whose place is free takes it, and nothing else changes. -/
theorem addSpelling_free (f : Flag) (h : t.owner? s.slot = none) :
    ∃ t', addSpelling f t s = .ok t' ∧ t'.specs = t.specs ∧
      ∀ k, t'.owner? k = if k = s.slot then some f else t.owner? k := by
  have hnot : ¬ (t.owner? s.slot).isSome = true := by rw [h]; exact Bool.false_ne_true
  unfold addSpelling
  cases hslot : s.slot with
  | inl c =>
    rw [hslot] at hnot
    refine ⟨_, if_neg hnot, rfl, fun k => ?_⟩
    cases k with
    | inl d => simp only [owner?, Table.get?_put, Sum.inl.injEq]
    | inr word => rfl
  | inr word =>
    rw [hslot] at hnot
    refine ⟨_, if_neg hnot, rfl, fun k => ?_⟩
    cases k with
    | inl d => rfl
    | inr word' => simp only [owner?, Table.get?_put, Sum.inr.injEq]

/-- Spellings whose places are free and differ from each other all take them. -/
theorem foldlM_addSpelling (f : Flag) (spellings : List Spelling)
    (hfree : ∀ s ∈ spellings, t.owner? s.slot = none)
    (hnodup : (spellings.map Spelling.slot).Nodup) :
    ∃ t', spellings.foldlM (addSpelling f) t = .ok t' ∧ t'.specs = t.specs ∧
      ∀ k f', t'.owner? k = some f' ↔
        t.owner? k = some f' ∨ k ∈ spellings.map Spelling.slot ∧ f = f' := by
  induction spellings generalizing t with
  | nil => exact ⟨t, rfl, rfl, fun k f' => by simp⟩
  | cons s spellings ih =>
    rw [List.map_cons, List.nodup_cons] at hnodup
    have hs := hfree s List.mem_cons_self
    obtain ⟨t₁, hadd, hspecs₁, howner₁⟩ := addSpelling_free f hs
    have hfree₁ : ∀ s' ∈ spellings, t₁.owner? s'.slot = none := by
      intro s' hs'
      have hne : s'.slot ≠ s.slot := fun h => hnodup.1 (h ▸ List.mem_map_of_mem hs')
      rw [howner₁, if_neg hne]
      exact hfree s' (List.mem_cons_of_mem _ hs')
    obtain ⟨t₂, hrest, hspecs₂, howner₂⟩ := ih hfree₁ hnodup.2
    refine ⟨t₂, ?_, hspecs₂.trans hspecs₁, fun k f' => ?_⟩
    · rw [List.foldlM_cons, hadd]
      exact hrest
    · rw [howner₂, howner₁, List.map_cons, List.mem_cons]
      split_ifs with hk
      · subst hk
        simp [hs, hnodup.1]
      · simp only [hk, false_or]

/-- A flag that is registered already is refused for its first spelling. -/
theorem Holds.add_registered (h : t.Holds done) (hmem : spec.flag ∈ done.map (·.flag)) :
    ∃ s, spec.flag.spellings.head? = some s ∧ t.add spec = .error s := by
  obtain ⟨first, others, hspellings⟩ := List.exists_cons_of_ne_nil spec.flag.spellings_ne_nil
  have howner : t.owner? first.slot = some spec.flag := by
    rw [h.owner, Flag.slots, hspellings]
    exact ⟨List.mem_map.mp hmem, List.mem_cons_self⟩
  refine ⟨first, by rw [hspellings, List.head?_cons], ?_⟩
  unfold FlagTables.add
  rw [hspellings, List.foldlM_cons, addSpelling_taken _ (by rw [howner, Option.isSome_some])]
  rfl

/-- The places of a flag that is not registered are free. -/
theorem Holds.owner?_eq_none (h : t.Holds done) (hnew : f ∉ done.map (·.flag)) {k : Char ⊕ Text}
    (hk : k ∈ f.slots) : t.owner? k = none := by
  rw [Option.eq_none_iff_forall_ne_some]
  intro f' hf'
  obtain ⟨hregistered, hk'⟩ := (h.owner _ _).mp hf'
  obtain rfl := Flag.eq_of_mem_slots hk hk'
  exact hnew (List.mem_map.mpr hregistered)

theorem Holds.spec?_eq_none (h : t.Holds done) (hnew : f ∉ done.map (·.flag)) :
    t.spec? f = none := by
  rw [Option.eq_none_iff_forall_ne_some]
  intro spec hspec
  exact hnew (List.mem_map.mpr ⟨spec, (h.spec _ _).mp hspec⟩)

/-- A flag is registered once it has its places and its use is known. -/
theorem Holds.put {t₁ : FlagTables} (h : t.Holds done) (hnew : spec.flag ∉ done.map (·.flag))
    (hspecs : t₁.specs = t.specs) (howner : ∀ k f, t₁.owner? k = some f ↔
      t.owner? k = some f ∨ k ∈ spec.flag.slots ∧ spec.flag = f) :
    Holds { t₁ with specs := t₁.specs.put spec.flag spec } (spec :: done) := by
  rw [hspecs]
  constructor
  case spec =>
    intro f spec'
    have hold : t.specs.get? f = some spec' ↔ spec' ∈ done ∧ spec'.flag = f := h.spec f spec'
    unfold spec?
    rw [Table.get?_put, List.mem_cons]
    split_ifs with hf
    · subst hf
      rw [Option.some_inj]
      refine ⟨fun heq => ⟨.inl heq.symm, by rw [heq]⟩, ?_⟩
      rintro ⟨rfl | hmem, hflag⟩
      · rfl
      · exact absurd (List.mem_map.mpr ⟨spec', hmem, hflag⟩) hnew
    · rw [hold]
      refine ⟨fun ⟨hmem, hflag⟩ => ⟨.inr hmem, hflag⟩, ?_⟩
      rintro ⟨rfl | hmem, hflag⟩
      · exact absurd hflag.symm hf
      · exact ⟨hmem, hflag⟩
  case owner =>
    intro k f
    change t₁.owner? k = some f ↔ _
    rw [howner, h.owner, List.exists_mem_cons_iff, or_and_right, or_comm]
    apply or_congr_left
    rw [and_comm]
    exact and_congr_right fun heq => by rw [heq]
  case size =>
    have hnone : t.specs.get? spec.flag = none := h.spec?_eq_none hnew
    exact (Table.size_put hnone spec).trans (congrArg (· + 1) h.size)

/-- Any other flag is registered. -/
theorem Holds.add_new (h : t.Holds done) (hnew : spec.flag ∉ done.map (·.flag)) :
    ∃ t', t.add spec = .ok t' ∧ t'.Holds (spec :: done) := by
  have hfree : ∀ s ∈ spec.flag.spellings, t.owner? s.slot = none := fun s hs =>
    h.owner?_eq_none hnew (List.mem_map_of_mem hs)
  obtain ⟨t₁, hfold, hspecs, howner⟩ :=
    foldlM_addSpelling spec.flag spec.flag.spellings hfree spec.flag.nodup_slots
  refine ⟨_, ?_, h.put hnew hspecs howner⟩
  unfold FlagTables.add
  rw [hfold]
  rfl

/-- The filling ends where the search for a clash finds one, and else registers all flags. -/
theorem Holds.foldlM_add (h : t.Holds done) (specs : List FlagSpec) :
    match Registry.firstClash? done specs with
    | some s => specs.foldlM FlagTables.add t = .error s
    | none => ∃ t', specs.foldlM FlagTables.add t = .ok t' ∧ t'.Holds (specs.reverse ++ done) := by
  induction specs generalizing t done with
  | nil => exact ⟨t, rfl, h⟩
  | cons spec rest ih =>
    rw [Registry.firstClash?_cons]
    split_ifs with hmem
    · obtain ⟨s, hs, hadd⟩ := h.add_registered hmem
      rw [hs, List.foldlM_cons, hadd]
      rfl
    · obtain ⟨t₁, hadd, hholds⟩ := h.add_new hmem
      rw [List.foldlM_cons, hadd, List.reverse_cons, List.append_assoc]
      exact ih hholds

/-- What can be looked up in the tables of the given flags. -/
structure Finds (t : FlagTables) (specs : List FlagSpec) : Prop where
  /-- A longer spelling finds its flag, whatever its case. -/
  name : ∀ word spec, t.name? word = some spec ↔ spec ∈ specs ∧
    ∃ s ∈ spec.flag.spellings, 1 < s.text.length ∧ Text.alike word s.text = true
  /-- A spelling of one character finds its flag as it stands. -/
  letter : ∀ c spec, t.letter? c = some spec ↔ spec ∈ specs ∧
    ∃ s ∈ spec.flag.spellings, s.text = [c]
  spec : ∀ f spec, t.spec? f = some spec ↔ spec ∈ specs ∧ spec.flag = f
  size : t.size = specs.length
  flagsIn_sublist : ∀ g, (t.flagsIn g).Sublist Flag.all
  flagsIn_nodup : ∀ g, (t.flagsIn g).Nodup
  mem_flagsIn : ∀ g f, f ∈ t.flagsIn g ↔ ∃ spec ∈ specs, spec.flag = f ∧ spec.group = g

/-- A place in the tables leads to the use of its flag. -/
theorem Holds.bind_owner? (h : t.Holds done) (k : Char ⊕ Text) :
    (t.owner? k).bind t.spec? = some spec ↔ spec ∈ done ∧ k ∈ spec.flag.slots := by
  rw [Option.bind_eq_some_iff]
  constructor
  · rintro ⟨f, hf, hspec⟩
    obtain ⟨hmem, rfl⟩ := (h.spec _ _).mp hspec
    exact ⟨hmem, ((h.owner _ _).mp hf).2⟩
  · rintro ⟨hmem, hslot⟩
    exact ⟨spec.flag, (h.owner _ _).mpr ⟨⟨spec, hmem, rfl⟩, hslot⟩, (h.spec _ _).mpr ⟨hmem, rfl⟩⟩

theorem Holds.finds (h : t.Holds done) (hmem : ∀ spec, spec ∈ done ↔ spec ∈ specs)
    (hlength : done.length = specs.length) : t.Finds specs := by
  have hall : Flag.all.Nodup := by decide
  have hsublist : ∀ g, (t.flagsIn g).Sublist Flag.all := fun g => List.filter_sublist
  constructor
  case name =>
    intro word spec
    rw [← hmem, ← Flag.inr_mem_slots]
    exact h.bind_owner? (.inr (Text.lower word))
  case letter =>
    intro c spec
    rw [← hmem, ← Flag.inl_mem_slots]
    exact h.bind_owner? (.inl c)
  case spec =>
    intro f spec
    rw [h.spec, hmem]
  case size => rw [h.size, hlength]
  case flagsIn_sublist => exact hsublist
  case flagsIn_nodup => exact fun g => (hsublist g).nodup hall
  case mem_flagsIn =>
    intro g f
    unfold flagsIn
    rw [List.mem_filter, Option.any_eq_true]
    simp only [f.mem_all, true_and, h.spec, hmem, beq_iff_eq, and_assoc]

end FlagTables

/-- Whether the search through a list of flags finds what tables hold. -/
structure Registry.Agrees (r : Registry) (t : FlagTables) : Prop where
  name : r.name? = t.name?
  letter : r.letter? = t.letter?
  spec : r.spec? = t.spec?
  size : r.size = t.size
  flagsIn : r.flagsIn = t.flagsIn

theorem FlagTables.Finds.agrees {r : Registry} {t : FlagTables} (h : t.Finds r.specs) :
    r.Agrees t := by
  have hspec : r.spec? = t.spec? := by
    funext f
    apply Option.ext
    intro spec
    rw [h.spec, Registry.spec?_eq_some_iff]
  constructor
  case name =>
    funext word
    apply Option.ext
    intro spec
    rw [h.name, Registry.name?_eq_some_iff, Flag.exists_alike_text]
  case letter =>
    funext c
    apply Option.ext
    intro spec
    rw [h.letter, Registry.letter?_eq_some_iff, Flag.exists_text_eq_singleton]
  case spec => exact hspec
  case size => exact h.size.symm
  case flagsIn =>
    funext g
    unfold Registry.flagsIn FlagTables.flagsIn
    rw [hspec]

namespace FlagTables

/-- The tables are filled unless a flag is given twice. Then each of the flags is found by exactly its
spellings, and in its group in listing order. The search through the list of the flags ends at the
same spelling as the filling, or finds the same flags as the tables. -/
theorem ofSpecs_finds (specs : List FlagSpec) :
    ((∃ s, ofSpecs specs = .error s) ↔ ¬ (specs.map (·.flag)).Nodup) ∧
      (∀ t, ofSpecs specs = .ok t → t.Finds specs) ∧
      (∀ s, ofSpecs specs = .error s ↔ Registry.ofSpecs specs = .error s) ∧
      ∀ t r, ofSpecs specs = .ok t → Registry.ofSpecs specs = .ok r → r.Agrees t := by
  have hfold := holds_empty.foldlM_add specs
  have herror : ∀ s, ofSpecs specs = .error s ↔ Registry.ofSpecs specs = .error s := by
    intro s
    rw [Registry.ofSpecs_eq_error_iff]
    unfold ofSpecs
    cases hclash : Registry.firstClash? [] specs with
    | none =>
      rw [hclash] at hfold
      obtain ⟨t, ht, _⟩ := hfold
      rw [ht]
      constructor
      · intro h
        cases h
      · intro h
        cases h
    | some s' =>
      rw [hclash] at hfold
      rw [hfold, Except.error.injEq, Option.some_inj]
  have hfinds : ∀ t, ofSpecs specs = .ok t → t.Finds specs := by
    intro t ht
    unfold ofSpecs at ht
    cases hclash : Registry.firstClash? [] specs with
    | some s =>
      rw [hclash, ht] at hfold
      cases hfold
    | none =>
      rw [hclash, ht] at hfold
      obtain ⟨t', ht', hholds⟩ := hfold
      cases ht'
      exact hholds.finds (fun spec => by simp) (by simp)
  refine ⟨?_, hfinds, herror, fun t r ht hr => ?_⟩
  · rw [← Registry.exists_error_iff]
    exact exists_congr herror
  · have hspecs := Registry.specs_of_ofSpecs hr
    exact (hspecs ▸ hfinds t ht).agrees

/-- Case counts in `-l` and `-L`, and a flag can be put into another group than its own. -/
theorem ofSpecs_finds_otherGroup :
    ∃ t, ofSpecs [⟨.allLess, .switch, .output, false⟩, .new .oneLess .optional true] = .ok t ∧
      t.Finds [⟨.allLess, .switch, .output, false⟩, .new .oneLess .optional true] := by
  obtain ⟨herror, hfinds, _⟩ :=
    ofSpecs_finds [⟨.allLess, .switch, .output, false⟩, .new .oneLess .optional true]
  cases hmade : ofSpecs [⟨.allLess, .switch, .output, false⟩, .new .oneLess .optional true] with
  | error s => exact absurd (by decide) (herror.mp ⟨s, hmade⟩)
  | ok t => exact ⟨t, rfl, hfinds t hmade⟩

end FlagTables

end Whois

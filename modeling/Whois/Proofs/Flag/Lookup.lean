import Whois.Proofs.Flag.Registry

/-!
Registries of any flags. Distinct flags share no spelling, so a list of specs makes a registry unless
a flag stands in it twice, and every spelling of a listed flag finds it.
-/
namespace Whois

/-- No two flags have a spelling in common, since all flags can be registered together. -/
theorem Flag.eq_of_clashes {f f' : Flag} {s s' : Spelling} (hs : s ∈ f.spellings)
    (hs' : s' ∈ f'.spellings) (h : s.clashes s' = true) : f = f' := by
  rw [← f.flag_standardSpec] at hs
  rw [← f'.flag_standardSpec] at hs'
  have hspec : f.standardSpec = f'.standardSpec :=
    Registry.eq_of_answersTo (Registry.standardSpec_mem_standard f)
      (Registry.standardSpec_mem_standard f') (FlagSpec.answersTo_of_mem hs)
      (List.any_eq_true.mpr ⟨s', hs', h⟩)
  rw [← f.flag_standardSpec, hspec, f'.flag_standardSpec]

theorem FlagSpec.answersTo_iff {spec : FlagSpec} {f : Flag} {s : Spelling}
    (hs : s ∈ f.spellings) : spec.answersTo s = true ↔ spec.flag = f := by
  constructor
  · intro h
    obtain ⟨s', hs', hclash⟩ := List.any_eq_true.mp h
    exact (Flag.eq_of_clashes hs hs' hclash).symm
  · rintro rfl
    exact FlagSpec.answersTo_of_mem hs

/-- A name has more characters than a letter. -/
theorem Flag.one_lt_length_of_name {f : Flag} {w : Text} (h : .name w ∈ f.spellings) :
    1 < w.length := by
  cases f <;> simp [Flag.spellings] at h <;> subst h <;> decide

variable {f : Flag} {word : Text} {c : Char}

/-- A letter is a spelling of one character. -/
theorem Flag.exists_text_eq_singleton :
    (∃ s ∈ f.spellings, s.text = [c]) ↔ .letter c ∈ f.spellings := by
  constructor
  · rintro ⟨s, hs, htext⟩
    cases s with
    | letter d =>
      cases htext
      exact hs
    | name w =>
      have hlength := Flag.one_lt_length_of_name hs
      rw [show w = [c] from htext] at hlength
      exact absurd hlength (by simp)
  · exact fun h => ⟨_, h, rfl⟩

/-- A name is a spelling of several characters. -/
theorem Flag.exists_alike_text :
    (∃ s ∈ f.spellings, 1 < s.text.length ∧ Text.alike word s.text = true) ↔
      ∃ w, .name w ∈ f.spellings ∧ Text.alike word w = true := by
  constructor
  · rintro ⟨s, hs, hlength, halike⟩
    cases s with
    | letter d => simp [Spelling.text] at hlength
    | name w => exact ⟨w, hs, halike⟩
  · rintro ⟨w, hw, halike⟩
    exact ⟨_, hw, Flag.one_lt_length_of_name hw, halike⟩

namespace Registry

variable {r : Registry} {known specs rest : List FlagSpec} {spec : FlagSpec}

/-- One more flag clashes with the ones before it if it is among them, and then by its first
spelling. -/
theorem firstClash?_cons : firstClash? known (spec :: rest) =
    if spec.flag ∈ known.map (·.flag) then spec.flag.spellings.head?
    else firstClash? (spec :: known) rest := by
  have hanswers : ∀ s ∈ spec.flag.spellings, known.any (·.answersTo s) =
      decide (spec.flag ∈ known.map (·.flag)) := by
    intro s hs
    rw [Bool.eq_iff_iff, List.any_eq_true, decide_eq_true_iff, List.mem_map]
    simp only [FlagSpec.answersTo_iff hs]
  obtain ⟨s, others, hspellings⟩ := List.exists_cons_of_ne_nil spec.flag.spellings_ne_nil
  conv => lhs; unfold firstClash?
  split_ifs with hmem
  · have hfind : spec.flag.spellings.find? (fun s => known.any (·.answersTo s)) = some s := by
      have hs : s ∈ spec.flag.spellings := hspellings ▸ List.mem_cons_self
      rw [hspellings, List.find?_cons_of_pos]
      rw [hanswers s hs, decide_eq_true hmem]
    rw [hfind, hspellings, List.head?_cons]
  · have hfind : spec.flag.spellings.find? (fun s => known.any (·.answersTo s)) = none := by
      rw [List.find?_eq_none]
      intro s hs
      rw [hanswers s hs, decide_eq_false hmem]
      exact Bool.false_ne_true
    rw [hfind]

/-- There is no clash among flags that are all different. -/
theorem firstClash?_eq_none_iff : firstClash? known specs = none ↔
    (specs.map (·.flag)).Nodup ∧ ∀ spec ∈ specs, spec.flag ∉ known.map (·.flag) := by
  induction specs generalizing known with
  | nil => simp [firstClash?]
  | cons spec rest ih =>
    have hhead : spec.flag.spellings.head? ≠ none := by
      rw [ne_eq, List.head?_eq_none_iff]
      exact spec.flag.spellings_ne_nil
    rw [firstClash?_cons, List.map_cons, List.nodup_cons, List.forall_mem_cons]
    split_ifs with hmem
    · simp only [hhead, false_iff]
      rintro ⟨_, hspec, _⟩
      exact hspec hmem
    · rw [ih]
      simp only [List.map_cons, List.mem_cons, not_or, hmem, not_false_eq_true, true_and]
      constructor
      · rintro ⟨hnodup, hrest⟩
        refine ⟨⟨?_, hnodup⟩, fun spec' hspec' => (hrest spec' hspec').2⟩
        intro hin
        obtain ⟨spec', hspec', hflag⟩ := List.mem_map.mp hin
        exact (hrest spec' hspec').1 hflag
      · rintro ⟨⟨hnew, hnodup⟩, hrest⟩
        refine ⟨hnodup, fun spec' hspec' => ⟨?_, hrest spec' hspec'⟩⟩
        intro hflag
        exact hnew (List.mem_map.mpr ⟨spec', hspec', hflag⟩)

theorem ofSpecs_eq_error_iff {s : Spelling} :
    ofSpecs specs = .error s ↔ firstClash? [] specs = some s := by
  unfold ofSpecs
  split <;> simp_all

/-- A list makes a registry unless a flag stands in it twice. -/
theorem exists_error_iff :
    (∃ s, ofSpecs specs = .error s) ↔ ¬ (specs.map (·.flag)).Nodup := by
  have hnone : firstClash? [] specs = none ↔ (specs.map (·.flag)).Nodup := by
    rw [firstClash?_eq_none_iff]
    simp
  simp only [ofSpecs_eq_error_iff]
  rw [← hnone, ← ne_eq, Option.ne_none_iff_exists']

theorem specs_of_ofSpecs (h : ofSpecs specs = .ok r) : r.specs = specs := by
  unfold ofSpecs at h
  split at h
  · cases h
  · cases h
    rfl

theorem spec?_eq_some_iff : r.spec? f = some spec ↔ spec ∈ r.specs ∧ spec.flag = f := by
  refine ⟨spec?_eq_some, ?_⟩
  rintro ⟨hmem, rfl⟩
  exact spec?_flag hmem

end Registry

end Whois

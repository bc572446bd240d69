import Mathlib.Data.List.Nodup
import Mathlib.Data.List.Pairwise
import Whois.Flag.Registry

/-!
A registry holds every flag once, because two specs of one flag would share all its spellings. For
the same reason a spelling finds the one flag that it stands for.
-/
namespace Whois

namespace Spelling

theorem clashes_self (s : Spelling) : s.clashes s = true := by
  cases s <;> simp [Spelling.clashes, Text.alike]

theorem clashes_comm (s t : Spelling) : s.clashes t = t.clashes s := by
  cases s <;> cases t <;> simp [Spelling.clashes, Text.alike, Bool.beq_comm]

theorem clashes_trans {s t u : Spelling} (hst : s.clashes t = true) (htu : t.clashes u = true) :
    s.clashes u = true := by
  cases s <;> cases t <;> cases u <;> simp_all [Spelling.clashes, Text.alike]

/-- Whether a letter is no dash, and whether a name is not empty and holds no equals sign. -/
def IsPlain : Spelling → Prop
  | .letter c => c ≠ '-'
  | .name word => word ≠ [] ∧ '=' ∉ Text.lower word

instance : (s : Spelling) → Decidable s.IsPlain
  | .letter _ => inferInstanceAs (Decidable (_ ≠ _))
  | .name _ => inferInstanceAs (Decidable (_ ≠ _ ∧ ¬ _))

end Spelling

theorem Flag.spellings_ne_nil (f : Flag) : f.spellings ≠ [] := by
  cases f <;> simp [Flag.spellings]

theorem Flag.isPlain_of_mem_spellings (f : Flag) : ∀ s ∈ f.spellings, s.IsPlain := by
  cases f <;> decide

theorem Flag.flag_standardSpec (f : Flag) : f.standardSpec.flag = f := by
  cases f <;> rfl

theorem Flag.group_standardSpec (f : Flag) : f.standardSpec.group = f.group := by
  cases f <;> rfl

theorem FlagSpec.answersTo_of_mem {spec : FlagSpec} {s : Spelling} (h : s ∈ spec.flag.spellings) :
    spec.answersTo s = true := by
  unfold FlagSpec.answersTo
  rw [List.any_eq_true]
  exact ⟨s, h, s.clashes_self⟩

theorem FlagSpec.answersTo_letter_iff {spec : FlagSpec} {c : Char} :
    spec.answersTo (.letter c) = true ↔ .letter c ∈ spec.flag.spellings := by
  refine ⟨fun h => ?_, FlagSpec.answersTo_of_mem⟩
  obtain ⟨s, hs, hclash⟩ := List.any_eq_true.mp h
  cases s with
  | letter d =>
    have hd : c = d := by simpa [Spelling.clashes] using hclash
    exact hd ▸ hs
  | name word => simp [Spelling.clashes] at hclash

theorem FlagSpec.answersTo_name_iff {spec : FlagSpec} {word : Text} :
    spec.answersTo (.name word) = true ↔
      ∃ w, .name w ∈ spec.flag.spellings ∧ Text.alike word w = true := by
  constructor
  · intro h
    obtain ⟨s, hs, hclash⟩ := List.any_eq_true.mp h
    cases s with
    | letter d => simp [Spelling.clashes] at hclash
    | name w => exact ⟨w, hs, hclash⟩
  · rintro ⟨w, hw, halike⟩
    exact List.any_eq_true.mpr ⟨.name w, hw, halike⟩

namespace Registry

/-- Where no clash is found, no spec answers to a spelling of a later one. -/
theorem firstClash?_eq_none {known specs : List FlagSpec} (h : firstClash? known specs = none) :
    (∀ spec ∈ specs, ∀ s ∈ spec.flag.spellings, ∀ k ∈ known, ¬ k.answersTo s = true) ∧
      specs.Pairwise fun a b => ∀ s ∈ b.flag.spellings, ¬ a.answersTo s = true := by
  induction specs generalizing known with
  | nil => exact ⟨by simp, List.Pairwise.nil⟩
  | cons spec rest ih =>
    unfold firstClash? at h
    split at h
    next => cases h
    next hfind =>
      obtain ⟨hknown, hrest⟩ := ih h
      have hspec : ∀ s ∈ spec.flag.spellings, ∀ k ∈ known, ¬ k.answersTo s = true := by
        intro s hs k hk hks
        have hnot := List.find?_eq_none.mp hfind s hs
        exact hnot (List.any_eq_true.mpr ⟨k, hk, hks⟩)
      constructor
      · intro spec' hspec' s hs k hk
        rcases List.mem_cons.mp hspec' with rfl | hspec'
        · exact hspec s hs k hk
        · exact hknown spec' hspec' s hs k (List.mem_cons_of_mem _ hk)
      · refine List.pairwise_cons.mpr ⟨?_, hrest⟩
        intro b hb s hs
        exact hknown b hb s hs spec (by simp)

theorem nodup_flags (r : Registry) : (r.specs.map (·.flag)).Nodup := by
  rw [List.nodup_iff_pairwise_ne, List.pairwise_map]
  apply (firstClash?_eq_none r.no_clash).2.imp
  intro a b hab heq
  obtain ⟨s, hs⟩ := List.exists_mem_of_ne_nil _ b.flag.spellings_ne_nil
  exact hab s hs (FlagSpec.answersTo_of_mem (heq ▸ hs))

/-- No spelling stands for two registered flags. -/
theorem eq_of_answersTo {r : Registry} {a b : FlagSpec} {s : Spelling} (ha : a ∈ r.specs)
    (hb : b ∈ r.specs) (has : a.answersTo s = true) (hbs : b.answersTo s = true) : a = b := by
  have hsymm : Std.Symm fun a b : FlagSpec => a.answersTo s = true → b.answersTo s = true → a = b :=
    ⟨fun a b hab hbs has => (hab has hbs).symm⟩
  have hpairs : r.specs.Pairwise fun a b =>
      a.answersTo s = true → b.answersTo s = true → a = b := by
    apply (firstClash?_eq_none r.no_clash).2.imp
    intro a b hab has hbs
    obtain ⟨t, ht, hst⟩ := List.any_eq_true.mp has
    obtain ⟨u, hu, hsu⟩ := List.any_eq_true.mp hbs
    -- the spelling of the later flag stands for the earlier one too
    rw [Spelling.clashes_comm] at hsu
    have hut := Spelling.clashes_trans hsu hst
    exact absurd (List.any_eq_true.mpr ⟨t, ht, hut⟩) (hab u hu)
  exact hpairs.forall_of_forall (fun _ _ _ _ => rfl) ha hb has hbs

theorem find?_answersTo_eq_some_iff {r : Registry} {s : Spelling} {spec : FlagSpec} :
    r.specs.find? (·.answersTo s) = some spec ↔ spec ∈ r.specs ∧ spec.answersTo s = true := by
  constructor
  · intro h
    exact ⟨List.mem_of_find?_eq_some h, by simpa using List.find?_some h⟩
  · intro ⟨hmem, hspec⟩
    cases hfound : r.specs.find? (·.answersTo s) with
    | none => exact absurd hspec (List.find?_eq_none.mp hfound spec hmem)
    | some found =>
      have hanswers : found.answersTo s = true := by simpa using List.find?_some hfound
      rw [eq_of_answersTo (List.mem_of_find?_eq_some hfound) hmem hanswers hspec]

/-- A letter finds the registered flag that it is a spelling of. -/
theorem letter?_eq_some_iff {r : Registry} {c : Char} {spec : FlagSpec} :
    r.letter? c = some spec ↔ spec ∈ r.specs ∧ .letter c ∈ spec.flag.spellings := by
  unfold letter?
  rw [find?_answersTo_eq_some_iff, FlagSpec.answersTo_letter_iff]

/-- A name finds the registered flag that it is a spelling of, whatever its case. -/
theorem name?_eq_some_iff {r : Registry} {word : Text} {spec : FlagSpec} :
    r.name? word = some spec ↔ spec ∈ r.specs ∧
      ∃ w, .name w ∈ spec.flag.spellings ∧ Text.alike word w = true := by
  unfold name?
  rw [find?_answersTo_eq_some_iff, FlagSpec.answersTo_name_iff]

theorem spec?_flag {r : Registry} {spec : FlagSpec} (h : spec ∈ r.specs) :
    r.spec? spec.flag = some spec := by
  cases hfound : r.spec? spec.flag with
  | none =>
    have hnot := List.find?_eq_none.mp hfound spec h
    simp at hnot
  | some found =>
    obtain ⟨hmem, hflag⟩ := spec?_eq_some hfound
    rw [List.inj_on_of_nodup_map r.nodup_flags hmem h hflag]

/-- Whether a flag may be given several times with different values. -/
def isRepeatable (r : Registry) (f : Flag) : Bool := (r.spec? f).any (·.repeatable)

theorem isRepeatable_flag {r : Registry} {spec : FlagSpec} (h : spec ∈ r.specs) :
    r.isRepeatable spec.flag = spec.repeatable := by
  unfold isRepeatable
  rw [spec?_flag h, Option.any_some]

theorem mem_standard {spec : FlagSpec} :
    spec ∈ standard.specs ↔ spec = spec.flag.standardSpec := by
  unfold standard
  rw [List.mem_map]
  constructor
  · rintro ⟨f, _, rfl⟩
    rw [f.flag_standardSpec]
  · intro h
    exact ⟨spec.flag, spec.flag.mem_all, h.symm⟩

theorem standardSpec_mem_standard (f : Flag) : f.standardSpec ∈ standard.specs := by
  rw [mem_standard, f.flag_standardSpec]

theorem spec?_standard (f : Flag) : standard.spec? f = some f.standardSpec := by
  have hspec := spec?_flag (standardSpec_mem_standard f)
  rwa [f.flag_standardSpec] at hspec

theorem mem_flagsIn_standard {f : Flag} {g : FlagGroup} :
    f ∈ standard.flagsIn g ↔ f.group = g := by
  unfold flagsIn
  simp [f.mem_all, spec?_standard, f.group_standardSpec]

end Registry

end Whois

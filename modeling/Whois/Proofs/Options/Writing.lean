import Whois.Proofs.Options.Basic
import Whois.Proofs.Text.Case
import Whois.Proofs.Text.Parts

/-!
The ways in which flags can be written. A flag has a letter, a name or both, its value may be
attached or stand in the next token, and several letters may share a dash. However the same flags
are written, they are read alike.
-/
namespace Whois

namespace Registry

/-- Whether a letter stands for a registered flag. -/
def HasLetter (r : Registry) (spec : FlagSpec) (c : Char) : Prop :=
  spec ∈ r.specs ∧ .letter c ∈ spec.flag.spellings

/-- Whether a name of either case stands for a registered flag. -/
def HasName (r : Registry) (spec : FlagSpec) (word : Text) : Prop :=
  spec ∈ r.specs ∧ ∃ w, .name w ∈ spec.flag.spellings ∧ Text.alike word w = true

end Registry

/-- Flags written by their letters behind one dash, with the token that follows, if it belongs to
them. All are switches but the last, which may have a value. -/
inductive Cluster (r : Registry) : List Occurrence → (letters : Text) → (next : List Text) → Prop
  | bare {spec : FlagSpec} {c : Char} (h : r.HasLetter spec c) (harity : spec.arity ≠ .required) :
    Cluster r [⟨spec, none⟩] [c] []
  | attached {spec : FlagSpec} {c : Char} {v : Text} (h : r.HasLetter spec c)
      (harity : spec.arity ≠ .switch) (hv : v ≠ []) : Cluster r [⟨spec, some v⟩] (c :: v) []
  | detached {spec : FlagSpec} {c : Char} {v : Text} (h : r.HasLetter spec c)
      (harity : spec.arity = .required) (hv : ¬ r.namesFlag v = true) :
    Cluster r [⟨spec, some v⟩] [c] [v]
  | cons {spec : FlagSpec} {c : Char} {os : List Occurrence} {letters : Text} {next : List Text}
      (h : r.HasLetter spec c) (harity : spec.arity = .switch) (hrest : Cluster r os letters next) :
    Cluster r (⟨spec, none⟩ :: os) (c :: letters) next

/-- The tokens that flags can be written as, in the order of the flags. -/
inductive Writes (r : Registry) : List Occurrence → (written : List Text) → Prop
  | letters {os : List Occurrence} {letters : Text} {next : List Text}
      (h : Cluster r os letters next) : Writes r os (('-' :: letters) :: next)
  | name {spec : FlagSpec} {word : Text} (h : r.HasName spec word)
      (harity : spec.arity ≠ .required) : Writes r [⟨spec, none⟩] ['-' :: '-' :: word]
  | nameAttached {spec : FlagSpec} {word v : Text} (h : r.HasName spec word)
      (harity : spec.arity ≠ .switch) (hv : v ≠ []) :
    Writes r [⟨spec, some v⟩] ['-' :: '-' :: (word ++ '=' :: v)]
  | nameDetached {spec : FlagSpec} {word v : Text} (h : r.HasName spec word)
      (harity : spec.arity = .required) (hv : ¬ r.namesFlag v = true) :
    Writes r [⟨spec, some v⟩] ['-' :: '-' :: word, v]
  | append {os os' : List Occurrence} {written written' : List Text} (h : Writes r os written)
      (h' : Writes r os' written') : Writes r (os ++ os') (written ++ written')

variable {r : Registry} {spec : FlagSpec} {c : Char} {word letters v : Text}
  {os : List Occurrence} {next written written' : List Text}

namespace Registry

theorem HasLetter.letter? (h : r.HasLetter spec c) : r.letter? c = some spec :=
  letter?_eq_some_iff.mpr h

theorem HasLetter.ne_dash (h : r.HasLetter spec c) : c ≠ '-' :=
  spec.flag.isPlain_of_mem_spellings _ h.2

theorem HasName.name? (h : r.HasName spec word) : r.name? word = some spec :=
  name?_eq_some_iff.mpr h

theorem HasLetter.standard {f : Flag} (h : .letter c ∈ f.spellings) :
    Registry.standard.HasLetter f.standardSpec c := by
  rw [← f.flag_standardSpec] at h
  exact ⟨standardSpec_mem_standard f, h⟩

theorem HasName.standard {f : Flag} (w : Text) (hw : .name w ∈ f.spellings)
    (h : Text.alike word w = true) : Registry.standard.HasName f.standardSpec word := by
  rw [← f.flag_standardSpec] at hw
  exact ⟨standardSpec_mem_standard f, w, hw, h⟩

theorem HasName.ne_nil (h : r.HasName spec word) : word ≠ [] := by
  obtain ⟨_, w, hw, halike⟩ := h
  have hplain : w ≠ [] := (spec.flag.isPlain_of_mem_spellings _ hw).1
  rintro rfl
  simp [Text.alike, Text.lower, hplain] at halike

theorem HasName.equals_not_mem (h : r.HasName spec word) : '=' ∉ word := by
  obtain ⟨_, w, hw, halike⟩ := h
  have hplain : '=' ∉ Text.lower w := (spec.flag.isPlain_of_mem_spellings _ hw).2
  have hlower := Text.lower_eq_of_alike halike
  intro hmem
  have hmem : Char.toLower '=' ∈ Text.lower word := List.mem_map_of_mem hmem
  exact hplain (hlower ▸ hmem)

theorem HasName.readToken (h : r.HasName spec word) (rest : Text) :
    r.readToken ('-' :: '-' :: (word ++ rest)) = r.readName (word ++ rest) := by
  obtain ⟨c, word', rfl⟩ := List.exists_cons_of_ne_nil h.ne_nil
  rfl

theorem HasName.readName (h : r.HasName spec word) (harity : spec.arity ≠ .required) :
    r.readName word = .flags [⟨spec, none⟩] := by
  unfold Registry.readName
  rw [Text.cut?_eq_none h.equals_not_mem]
  dsimp only
  rw [h.name?]
  cases hspec : spec.arity with
  | switch => simp [hspec]
  | required => exact absurd hspec harity
  | optional => simp [hspec]

theorem HasName.readName_detached (h : r.HasName spec word) (harity : spec.arity = .required) :
    r.readName word = .needsValue [] spec := by
  unfold Registry.readName
  rw [Text.cut?_eq_none h.equals_not_mem]
  dsimp only
  rw [h.name?]
  simp [harity]

theorem HasName.readName_attached (h : r.HasName spec word) (harity : spec.arity ≠ .switch)
    (hv : v ≠ []) : r.readName (word ++ '=' :: v) = .flags [⟨spec, some v⟩] := by
  obtain ⟨d, v, rfl⟩ := List.exists_cons_of_ne_nil hv
  unfold Registry.readName
  rw [Text.cut?_append_cons h.equals_not_mem]
  dsimp only
  rw [h.name?]
  cases hspec : spec.arity with
  | switch => exact absurd hspec harity
  | required => simp [hspec]
  | optional => simp [hspec, attached?]

end Registry

/-- A cluster is read as its flags, or as asking for the value that follows. -/
theorem Cluster.readLetters (h : Cluster r os letters next) :
    (next = [] ∧ r.readLetters letters = .flags os) ∨
      ∃ given spec v, next = [v] ∧ ¬ r.namesFlag v = true ∧ os = given ++ [⟨spec, some v⟩] ∧
        r.readLetters letters = .needsValue given spec := by
  induction h with
  | @bare spec c h harity =>
    left
    cases hspec : spec.arity with
    | switch => simp [Registry.readLetters, h.letter?, hspec, Reading.afterFlag]
    | required => exact absurd hspec harity
    | optional => simp [Registry.readLetters, h.letter?, hspec, Registry.attached?]
  | @attached spec c v h harity hv =>
    left
    cases hspec : spec.arity with
    | switch => exact absurd hspec harity
    | required => simp [Registry.readLetters, h.letter?, hspec, hv]
    | optional => simp [Registry.readLetters, h.letter?, hspec, Registry.attached?, hv]
  | @detached spec c v h harity hv =>
    right
    refine ⟨[], spec, v, rfl, hv, rfl, ?_⟩
    simp [Registry.readLetters, h.letter?, harity]
  | @cons spec c os letters next h harity hrest ih =>
    have hread : r.readLetters (c :: letters) =
        (r.readLetters letters).afterFlag ⟨spec, none⟩ := by
      simp [Registry.readLetters, h.letter?, harity]
    rcases ih with ⟨hnext, hflags⟩ | ⟨given, last, v, hnext, hv, rfl, hneeds⟩
    · left
      rw [hread, hflags]
      exact ⟨hnext, rfl⟩
    · right
      refine ⟨⟨spec, none⟩ :: given, last, v, hnext, hv, rfl, ?_⟩
      rw [hread, hneeds]
      rfl

theorem Cluster.readToken (h : Cluster r os letters next) :
    r.readToken ('-' :: letters) = r.readLetters letters := by
  have hdash : ∀ {spec c}, r.HasLetter spec c → ∀ rest,
      r.readToken ('-' :: c :: rest) = r.readLetters (c :: rest) := by
    intro spec c h rest
    have hc := h.ne_dash
    unfold Registry.readToken
    split <;> simp_all
  cases h with
  | bare h => exact hdash h _
  | attached h => exact hdash h _
  | detached h => exact hdash h _
  | cons h => exact hdash h _

/-- However flags are written, they are read in their order, and nothing that follows is touched. -/
theorem Writes.ofTokens_append (h : Writes r os written) (rest : List Text) :
    Scan.ofTokens r (written ++ rest) = (Scan.ofTokens r rest).after (os.map .flag) := by
  induction h generalizing rest with
  | letters h =>
    rcases h.readLetters with ⟨rfl, hread⟩ | ⟨given, spec, v, rfl, hv, rfl, hread⟩
    · rw [← h.readToken] at hread
      exact Scan.ofTokens_of_flags hread rest
    · rw [← h.readToken] at hread
      rw [List.map_append]
      exact Scan.ofTokens_of_value hread hv rest
  | name h harity =>
    apply Scan.ofTokens_of_flags
    have hread := h.readToken []
    rw [List.append_nil] at hread
    rw [hread, h.readName harity]
  | nameAttached h harity hv =>
    apply Scan.ofTokens_of_flags
    rw [h.readToken, h.readName_attached harity hv]
  | nameDetached h harity hv =>
    have hread := h.readToken []
    rw [List.append_nil, h.readName_detached harity] at hread
    exact Scan.ofTokens_of_value hread hv rest
  | append h h' ih ih' =>
    rw [List.append_assoc, ih, ih', Scan.after_after, List.map_append]

namespace Options

/-- Behind tokens that make a query, it does not matter in which way flags are written: with further
tokens behind them, they lead to the same query or to the same fault. -/
theorem ofTokens_eq_of_writes {first rest : List Text} {o : Options}
    (hfirst : ofTokens r first = .ok o) (hterminator : ("--" : Text) ∉ first)
    (h : Writes r os written) (h' : Writes r os written')
    (hlength : (first ++ written ++ rest).length ≤ maxElements)
    (hlength' : (first ++ written' ++ rest).length ≤ maxElements) :
    ofTokens r (first ++ written ++ rest) = ofTokens r (first ++ written' ++ rest) := by
  have hfault := (ofTokens_eq_ok_iff.mp hfirst).2.1
  unfold ofTokens
  rw [if_neg (by omega), if_neg (by omega), List.append_assoc, List.append_assoc,
    Scan.ofTokens_append hterminator hfault, Scan.ofTokens_append hterminator hfault,
    h.ofTokens_append, h'.ofTokens_append]

theorem ofTokens_eq_of_writes_selectTypes : ∃ os : List Occurrence,
    (ofTokens .standard (Text.words "-B") = .ok ⟨Given.none.set .noFiltering [], []⟩ ∧
      ("--" : Text) ∉ Text.words "-B" ∧ Writes .standard os (Text.words "-rT-1") ∧
      Writes .standard os (Text.words "--No-Referenced --SELECT-types -1")) ∧
    ofTokens .standard (Text.words "-B" ++ Text.words "-rT-1" ++ Text.words "-t route AS1") =
      ofTokens .standard (Text.words "-B" ++ Text.words "--No-Referenced --SELECT-types -1" ++
        Text.words "-t route AS1") := by
  have hfirst : ofTokens .standard (Text.words "-B") =
      .ok ⟨Given.none.set .noFiltering [], []⟩ := by rfl
  have hterminator : ("--" : Text) ∉ Text.words "-B" := by decide
  have hvalue : ¬ Registry.standard.namesFlag "-1" = true := by decide +kernel
  have hlast : Cluster .standard [⟨Flag.selectTypes.standardSpec, some "-1"⟩] "T-1" [] :=
    .attached (.standard (by decide)) (by decide) (by decide)
  have hcluster : Writes .standard
      [⟨Flag.noReferenced.standardSpec, none⟩, ⟨Flag.selectTypes.standardSpec, some "-1"⟩]
      (Text.words "-rT-1") :=
    .letters (.cons (.standard (by decide)) rfl hlast)
  have hnames : Writes .standard
      [⟨Flag.noReferenced.standardSpec, none⟩, ⟨Flag.selectTypes.standardSpec, some "-1"⟩]
      (Text.words "--No-Referenced --SELECT-types -1") :=
    .append (.name (.standard "no-referenced" (by decide) (by decide)) (by decide))
      (.nameDetached (.standard "select-types" (by decide) (by decide)) rfl hvalue)
  exact ⟨_, ⟨hfirst, hterminator, hcluster, hnames⟩,
    ofTokens_eq_of_writes hfirst hterminator hcluster hnames (by decide) (by decide)⟩

end Options

end Whois

import Whois.Proofs.Options.Accounting

/-!
Options are well formed, whatever registry they are read with: each flag has values as its spec
allows, and every value and every part of the search term is a word.
-/
namespace Whois

/-- Whether a flag may have these values: none if it is a switch, at least one if it requires a value,
and several only if it is repeatable. -/
structure FlagSpec.Allows (spec : FlagSpec) (values : List Text) : Prop where
  switch : spec.arity = .switch → values = []
  required : spec.arity = .required → values ≠ []
  once : spec.repeatable = false → values.length ≤ 1
  words : ∀ v ∈ values, Text.IsWord v

namespace Options

structure WellFormed (r : Registry) (o : Options) : Prop where
  flags : ∀ f, o.has f = true → ∃ spec, r.spec? f = some spec ∧ spec.Allows (o.values f)
  /-- A flag that requires a value is given exactly if it has a first value. -/
  value? : ∀ spec ∈ r.specs, spec.arity = .required →
    ((o.value? spec.flag).isSome = true ↔ o.has spec.flag = true)
  searchTerm : ∃ words, (∀ w ∈ words, Text.IsWord w) ∧ o.searchTerm = Text.join " " words

end Options

variable {r : Registry} {given : List Occurrence} {letters token : Text} {next tokens : List Text}
  {value : Option Text} {o : Occurrence}

/-- A cluster gives an empty value only if it takes an empty token. -/
theorem Cluster.value_ne_some_nil (h : Cluster r given letters next) (hnext : [] ∉ next) :
    ∀ o ∈ given, o.value ≠ some [] := by
  induction h with
  | bare => simp
  | attached _ _ hv => simpa using hv
  | detached => simpa [eq_comm] using hnext
  | cons _ _ _ ih => exact List.forall_mem_cons.mpr ⟨by simp, ih hnext⟩

theorem FlagToken.value_ne_some_nil (h : FlagToken r given token value) (hvalue : value ≠ some []) :
    ∀ o ∈ given, o.value ≠ some [] := by
  cases h with
  | letters h => exact h.value_ne_some_nil (by simpa using hvalue)
  | name => simp
  | nameAttached _ _ hv => simpa using hv
  | nameEmpty => simp
  | nameDetached => simpa using hvalue

theorem Phrase.Fits.value_ne_some_nil {p : Phrase} (h : p.Fits r) (htokens : [] ∉ p.tokens) :
    ∀ o ∈ p.given, o.value ≠ some [] := by
  cases p with
  | word text => simp [Phrase.given]
  | flags given token value =>
    have hvalue : value ≠ some [] := by
      rintro rfl
      exact htokens (by simp [Phrase.tokens])
    exact FlagToken.value_ne_some_nil h hvalue

namespace Scan

theorem value_ne_some_nil (hfault : (ofTokens r tokens).fault = none) (htokens : [] ∉ tokens) :
    ∀ o ∈ (ofTokens r tokens).occurrences, o.value ≠ some [] := by
  obtain ⟨phrases, hcover⟩ := Phrase.exists_cover hfault
  intro o ho
  rw [hcover.occurrences_eq, List.mem_flatMap] at ho
  obtain ⟨p, hp, ho⟩ := ho
  refine (hcover.fits p hp).value_ne_some_nil ?_ o ho
  intro hnil
  have hbefore : [] ∈ beforeTerminator tokens :=
    hcover.tokens_eq ▸ List.mem_flatMap.mpr ⟨p, hp, hnil⟩
  exact htokens ((List.takeWhile_sublist _).subset hbefore)

/-- The values in a list of words are words, since each is the end of one of them. -/
theorem isWord_of_value (hfault : (ofTokens r tokens).fault = none)
    (hwords : ∀ t ∈ tokens, Text.IsWord t) (ho : o ∈ (ofTokens r tokens).occurrences) {v : Text}
    (hv : o.value = some v) : Text.IsWord v := by
  have hnil : [] ∉ tokens := fun h => (hwords [] h).1 rfl
  obtain ⟨token, htoken, hadmits⟩ := admits_of_mem_items (mem_occurrences.mp ho)
  constructor
  · rintro rfl
    exact value_ne_some_nil hfault hnil o ho hv
  · intro c hc
    exact (hwords token htoken).2 c ((hadmits.suffix v hv).subset hc)

end Scan

/-- A flag is read with one spec only. -/
theorem Scan.spec_eq {spec : FlagSpec} (hspec : spec ∈ r.specs)
    (ho : o ∈ (ofTokens r tokens).occurrences) (hflag : o.spec.flag = spec.flag) : o.spec = spec :=
  List.inj_on_of_nodup_map r.nodup_flags (spec_mem_specs ho) hspec hflag

namespace Options

variable {options : Options}

theorem has_iff (h : ofTokens r tokens = .ok options) {f : Flag} : options.has f = true ↔
    ∃ o ∈ (Scan.ofTokens r tokens).occurrences, o.spec.flag = f := by
  obtain ⟨_, _, _, rfl⟩ := ofTokens_eq_ok_iff.mp h
  exact Given.collected_isSome

/-- The values collected for a flag are allowed by the spec it is read with. -/
theorem allows_values (hwords : ∀ t ∈ tokens, Text.IsWord t) (h : ofTokens r tokens = .ok options)
    (ho : o ∈ (Scan.ofTokens r tokens).occurrences) :
    o.spec.Allows (options.values o.spec.flag) := by
  obtain ⟨_, hfault, hcons, rfl⟩ := ofTokens_eq_ok_iff.mp h
  have hspec := Scan.spec_mem_specs ho
  obtain ⟨_, _, hadmits⟩ := Scan.admits_of_mem_items (Scan.mem_occurrences.mp ho)
  constructor
  case switch =>
    intro harity
    rw [List.eq_nil_iff_forall_not_mem]
    intro v hv
    obtain ⟨o', ho', hflag, hvalue⟩ := (mem_values_iff hcons).mp hv
    obtain ⟨_, _, hadmits'⟩ := Scan.admits_of_mem_items (Scan.mem_occurrences.mp ho')
    rw [hadmits'.switch (Scan.spec_eq hspec ho' hflag ▸ harity)] at hvalue
    cases hvalue
  case required =>
    intro harity
    obtain ⟨v, hv⟩ := Option.isSome_iff_exists.mp (hadmits.required harity)
    exact List.ne_nil_of_mem ((mem_values_iff hcons).mpr ⟨o, ho, rfl, hv⟩)
  case once =>
    intro honce
    unfold values
    rw [Given.getD_collected]
    unfold Given.kept
    rw [Registry.isRepeatable_flag hspec, honce, if_neg Bool.false_ne_true]
    exact List.length_take_le 1 _
  case words =>
    intro v hv
    obtain ⟨o', ho', _, hvalue⟩ := (mem_values_iff hcons).mp hv
    exact Scan.isWord_of_value hfault hwords ho' hvalue

/-- The options of a query are well formed. -/
theorem ofTokens_wellFormed {query : Text} (h : ofTokens r (Text.words query) = .ok options) :
    options.WellFormed r := by
  have hwords : ∀ t ∈ Text.words query, Text.IsWord t := fun _ => Text.isWord_of_mem_words
  constructor
  case flags =>
    intro f hhas
    obtain ⟨o, ho, rfl⟩ := (has_iff h).mp hhas
    exact ⟨o.spec, Registry.spec?_flag (Scan.spec_mem_specs ho), allows_values hwords h ho⟩
  case value? =>
    intro spec hspec harity
    constructor
    · intro hsome
      obtain ⟨v, hv⟩ := Option.isSome_iff_exists.mp hsome
      exact has_of_mem_values (mem_values_of_value? hv)
    · intro hhas
      obtain ⟨o, ho, hflag⟩ := (has_iff h).mp hhas
      obtain rfl := Scan.spec_eq hspec ho hflag
      unfold value?
      rw [List.isSome_head?]
      exact (allows_values hwords h ho).required harity
  case searchTerm =>
    obtain ⟨_, _, _, rfl⟩ := ofTokens_eq_ok_iff.mp h
    have htermWords := isWord_of_mem_words (r := r) hwords
    exact ⟨_, htermWords, Text.trim_join htermWords⟩

/-- A registry in which the value of `-l` is optional. -/
def oneLessOptional : Registry where
  specs := [.new .brief .switch false, .new .selectTypes .required true,
    .new .oneLess .optional false]
  no_clash := by decide

theorem ofTokens_wellFormed_oneLessOptional :
    ofTokens oneLessOptional (Text.words " -FT -1 10.0.0.0  -l --  -l2 ") =
        .ok ⟨((Given.none.set .brief []).set .selectTypes ["-1"]).set .oneLess [],
          "10.0.0.0 -l2"⟩ ∧
      WellFormed oneLessOptional
        ⟨((Given.none.set .brief []).set .selectTypes ["-1"]).set .oneLess [], "10.0.0.0 -l2"⟩ := by
  have h : ofTokens oneLessOptional (Text.words " -FT -1 10.0.0.0  -l --  -l2 ") =
      .ok ⟨((Given.none.set .brief []).set .selectTypes ["-1"]).set .oneLess [],
        "10.0.0.0 -l2"⟩ := by
    rfl
  exact ⟨h, ofTokens_wellFormed h⟩

end Options

end Whois

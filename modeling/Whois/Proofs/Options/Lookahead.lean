import Whois.Proofs.Options.Accounting
import Whois.Proofs.Options.Following

/-!
A look at the next token, before it is known whether it is a value or is read itself. What a flag with
a value refuses is the terminator and every token in which the reading would recognise a flag; anything
else is a word, or would be refused as unknown before any flag in it is recognised.
-/
namespace Whois

/-- What a token says, with the flags that are recognised one after the other until that is known. -/
structure Trace where
  recognised : List FlagSpec
  reading : Reading

/-- The trace of a cluster that has one more switch in front. -/
def Trace.afterSwitch (spec : FlagSpec) (t : Trace) : Trace :=
  ⟨spec :: t.recognised, t.reading.afterFlag ⟨spec, none⟩⟩

namespace Registry

/-- What stands before the first equals sign. -/
def nameOf (body : Text) : Text :=
  match Text.cut? '=' body with
  | some (word, _) => word
  | none => body

def traceName (r : Registry) (body : Text) : Trace :=
  ⟨(r.name? (nameOf body)).toList, r.readName body⟩

def traceLetters (r : Registry) : Text → Trace
  | [] => ⟨[], .flags []⟩
  | c :: rest =>
    match r.letter? c with
    | none => ⟨[], .fault (.unknownFlag ['-', c])⟩
    | some spec =>
      match spec.arity with
      | .switch => (traceLetters r rest).afterSwitch spec
      | .required =>
        ⟨[spec], if rest.isEmpty then .needsValue [] spec else .flags [⟨spec, some rest⟩]⟩
      | .optional => ⟨[spec], .flags [⟨spec, attached? rest⟩]⟩

/-- Reads a token and notes the flags that are recognised in it. -/
def trace (r : Registry) : Text → Trace
  | ['-', '-'] => ⟨[], .terminator⟩
  | '-' :: '-' :: body => r.traceName body
  | '-' :: c :: rest => r.traceLetters (c :: rest)
  | _ => ⟨[], .word⟩

variable {r : Registry} {token body : Text} {c : Char} {spec : FlagSpec}

theorem reading_traceLetters (letters : Text) :
    (r.traceLetters letters).reading = r.readLetters letters := by
  induction letters with
  | nil => rfl
  | cons c rest ih =>
    unfold traceLetters readLetters
    cases r.letter? c with
    | none => rfl
    | some spec =>
      dsimp only
      cases spec.arity with
      | switch => exact congrArg (Reading.afterFlag ⟨spec, none⟩) ih
      | required => rfl
      | optional => rfl

/-- The shapes of a token: the terminator, a name behind two dashes, letters behind one, or none of
these. -/
theorem token_cases (token : Text) : token = "--" ∨
    (∃ body : Text, body ≠ [] ∧ token = '-' :: '-' :: body) ∨
    (∃ (c : Char) (rest : Text), c ≠ '-' ∧ token = '-' :: c :: rest) ∨
    ∀ (c : Char) (rest : Text), token ≠ '-' :: c :: rest := by
  by_cases hword : ∀ (c : Char) (rest : Text), token ≠ '-' :: c :: rest
  · exact .inr (.inr (.inr hword))
  · push Not at hword
    obtain ⟨c, rest, rfl⟩ := hword
    by_cases hc : c = '-'
    · subst hc
      cases rest with
      | nil => exact .inl rfl
      | cons d rest => exact .inr (.inl ⟨_, List.cons_ne_nil d rest, rfl⟩)
    · exact .inr (.inr (.inl ⟨c, rest, hc, rfl⟩))

/-- Noting flags leaves the reading of a token as it is. -/
theorem reading_trace (r : Registry) (token : Text) : (r.trace token).reading = r.readToken token := by
  unfold trace readToken
  rcases token_cases token with rfl | ⟨body, hbody, rfl⟩ | ⟨c, rest, hc, rfl⟩ | hword
  · rfl
  · simp [traceName]
  · simp [hc, reading_traceLetters]
  · split <;> simp_all

/-- Whether a token starts with a registered flag: with its name, alone or before an equals sign, or
with its letter. -/
def StartsWithFlag (r : Registry) (token : Text) : Prop :=
  (∃ (spec : FlagSpec) (word rest : Text), token = '-' :: '-' :: (word ++ rest) ∧
    r.HasName spec word ∧ (rest = [] ∨ rest.head? = some '=')) ∨
  ∃ (spec : FlagSpec) (c : Char) (rest : Text), token = '-' :: c :: rest ∧ r.HasLetter spec c

theorem exists_nameOf_append (body : Text) :
    ∃ rest, body = nameOf body ++ rest ∧ (rest = [] ∨ rest.head? = some '=') := by
  unfold nameOf
  cases hcut : Text.cut? '=' body with
  | none => exact ⟨[], (List.append_nil body).symm, .inl rfl⟩
  | some parts => exact ⟨_, Text.cut?_eq_some hcut, .inr rfl⟩

theorem HasName.nameOf_append {word rest : Text} (h : r.HasName spec word)
    (hrest : rest = [] ∨ rest.head? = some '=') : nameOf (word ++ rest) = word := by
  unfold nameOf
  rcases hrest with rfl | hhead
  · rw [List.append_nil, Text.cut?_eq_none h.equals_not_mem]
  · obtain ⟨value, rfl⟩ := List.head?_eq_some_iff.mp hhead
    rw [Text.cut?_append_cons h.equals_not_mem]

/-- No flag has the letter of a second dash, so what follows two dashes is told by its name alone. -/
theorem startsWithFlag_name_iff :
    r.StartsWithFlag ('-' :: '-' :: body) ↔ (r.name? (nameOf body)).isSome = true := by
  rw [Option.isSome_iff_exists]
  constructor
  · rintro (⟨spec, word, rest, htoken, hname, hrest⟩ | ⟨spec, c, rest, htoken, hletter⟩)
    · simp only [List.cons.injEq, true_and] at htoken
      refine ⟨spec, ?_⟩
      rw [htoken, hname.nameOf_append hrest]
      exact hname.name?
    · simp only [List.cons.injEq, true_and] at htoken
      exact absurd htoken.1.symm hletter.ne_dash
  · rintro ⟨spec, hspec⟩
    obtain ⟨rest, hbody, hrest⟩ := exists_nameOf_append body
    exact .inl ⟨spec, _, rest, by rw [← hbody], name?_eq_some_iff.mp hspec, hrest⟩

theorem startsWithFlag_letter_iff {rest : Text} (hc : c ≠ '-') :
    r.StartsWithFlag ('-' :: c :: rest) ↔ (r.letter? c).isSome = true := by
  rw [Option.isSome_iff_exists]
  constructor
  · rintro (⟨spec, word, rest', htoken, _, _⟩ | ⟨spec, d, rest', htoken, hletter⟩)
    · simp only [List.cons.injEq, true_and] at htoken
      exact absurd htoken.1 hc
    · simp only [List.cons.injEq, true_and] at htoken
      obtain ⟨rfl, rfl⟩ := htoken
      exact ⟨spec, hletter.letter?⟩
  · rintro ⟨spec, hspec⟩
    exact .inr ⟨spec, c, rest, rfl, letter?_eq_some_iff.mp hspec⟩

theorem not_startsWithFlag_of_word (h : ∀ c rest, token ≠ '-' :: c :: rest) :
    ¬ r.StartsWithFlag token := by
  rintro (⟨_, word, rest, htoken, _, _⟩ | ⟨_, c, rest, htoken, _⟩)
  · exact h _ _ htoken
  · exact h _ _ htoken

theorem recognised_traceLetters_ne_nil_iff (rest : Text) :
    (r.traceLetters (c :: rest)).recognised ≠ [] ↔ (r.letter? c).isSome = true := by
  unfold traceLetters
  cases r.letter? c with
  | none => simp
  | some spec =>
    dsimp only
    cases spec.arity with
    | switch => simp [Trace.afterSwitch]
    | required => simp
    | optional => simp

/-- A flag is recognised in a token exactly if the token starts with one. -/
theorem recognised_ne_nil_iff : (r.trace token).recognised ≠ [] ↔ r.StartsWithFlag token := by
  rcases token_cases token with rfl | ⟨body, hbody, rfl⟩ | ⟨c, rest, hc, rfl⟩ | hword
  · have hnone : r.name? (nameOf []) = none := by
      rw [Option.eq_none_iff_forall_not_mem]
      intro spec hspec
      exact HasName.ne_nil (name?_eq_some_iff.mp hspec) rfl
    have hnot : ¬ r.StartsWithFlag ('-' :: '-' :: []) := by simp [startsWithFlag_name_iff, hnone]
    exact iff_of_false (by simp [trace]) hnot
  · rw [startsWithFlag_name_iff]
    unfold trace
    cases hname : r.name? (nameOf body) <;> simp [traceName, hname]
  · rw [startsWithFlag_letter_iff hc, ← recognised_traceLetters_ne_nil_iff rest]
    unfold trace
    simp [hc]
  · have hnot := not_startsWithFlag_of_word (r := r) hword
    unfold trace
    split <;> simp_all

/-- What names a flag is the terminator or starts with one. -/
theorem namesFlag_iff : r.namesFlag token = true ↔ token = "--" ∨ r.StartsWithFlag token := by
  rcases token_cases token with rfl | ⟨body, hbody, rfl⟩ | ⟨c, rest, hc, rfl⟩ | hword
  · simp [namesFlag]
  · have hread : r.namesFlag ('-' :: '-' :: body) = (r.name? (nameOf body)).isSome := by
      obtain ⟨c, rest, rfl⟩ := List.exists_cons_of_ne_nil hbody
      rfl
    rw [startsWithFlag_name_iff, hread]
    simp [hbody]
  · rw [startsWithFlag_letter_iff hc]
    unfold namesFlag
    simp [hc]
  · have hne : token ≠ "--" := hword '-' []
    have hnot := not_startsWithFlag_of_word (r := r) hword
    unfold namesFlag
    split <;> simp_all

theorem readName_of_name?_eq_none (h : r.name? (nameOf body) = none) :
    r.readName body = .fault (.unknownFlag ('-' :: '-' :: body)) := by
  unfold nameOf at h
  unfold readName
  cases hcut : Text.cut? '=' body with
  | none =>
    rw [hcut] at h
    dsimp only at h ⊢
    rw [h]
  | some parts =>
    rw [hcut] at h
    dsimp only at h ⊢
    rw [h]

theorem readLetters_of_letter?_eq_none (h : r.letter? c = none) (rest : Text) :
    r.readLetters (c :: rest) = .fault (.unknownFlag ['-', c]) := by
  unfold readLetters
  rw [h]

/-- A token that starts with no flag is the terminator or a word, or is unknown as it stands. -/
theorem readToken_of_not_startsWithFlag (h : ¬ r.StartsWithFlag token) : token = "--" ∨
    r.readToken token = .word ∨ ∃ text, r.readToken token = .fault (.unknownFlag text) := by
  rcases token_cases token with rfl | ⟨body, hbody, rfl⟩ | ⟨c, rest, hc, rfl⟩ | hword
  · exact .inl rfl
  · rw [startsWithFlag_name_iff, Option.not_isSome_iff_eq_none] at h
    have hread : r.readToken ('-' :: '-' :: body) = r.readName body := by
      unfold readToken
      simp
    exact .inr (.inr ⟨_, hread.trans (readName_of_name?_eq_none h)⟩)
  · rw [startsWithFlag_letter_iff hc, Option.not_isSome_iff_eq_none] at h
    have hread : r.readToken ('-' :: c :: rest) = r.readLetters (c :: rest) := by
      unfold readToken
      simp [hc]
    exact .inr (.inr ⟨_, hread.trans (readLetters_of_letter?_eq_none h rest)⟩)
  · have hread : r.readToken token = .word := by
      unfold readToken
      split <;> simp_all
    exact .inr (.inl hread)

/-- What does not name a flag is read as a word, or is unknown before any flag in it is recognised. -/
theorem namesFlag_eq_false_iff : r.namesFlag token = false ↔ r.readToken token = .word ∨
    (∃ text, r.readToken token = .fault (.unknownFlag text)) ∧ (r.trace token).recognised = [] := by
  rw [← Bool.not_eq_true, namesFlag_iff, not_or, ← recognised_ne_nil_iff, not_not]
  constructor
  · rintro ⟨hterminator, hnone⟩
    have hstart : ¬ r.StartsWithFlag token := mt recognised_ne_nil_iff.mpr (not_not.mpr hnone)
    rcases readToken_of_not_startsWithFlag hstart with heq | hword | hfault
    · exact absurd heq hterminator
    · exact .inl hword
    · exact .inr ⟨hfault, hnone⟩
  · rintro (hword | ⟨⟨text, hfault⟩, hnone⟩)
    · refine ⟨?_, ?_⟩
      · rintro rfl
        cases hword
      · by_contra hsome
        rcases recognised_ne_nil_iff.mp hsome with
          ⟨_, word, rest, rfl, _, _⟩ | ⟨_, c, rest, rfl, _⟩ <;>
        simp [readToken_eq_word_iff] at hword
    · refine ⟨?_, hnone⟩
      rintro rfl
      cases hfault

/-- Whether a token asks for the next one as the value of its last flag: this is one that requires a
value, by its name or by its letter behind letters of switches, and nothing is attached to it. -/
def AsksForValue (r : Registry) (spec : FlagSpec) (token : Text) : Prop :=
  spec.arity = .required ∧
    ((∃ word, token = '-' :: '-' :: word ∧ r.HasName spec word) ∨
      ∃ (switches : Text) (c : Char), token = '-' :: (switches ++ [c]) ∧ r.AreSwitches switches ∧
        r.HasLetter spec c)

theorem readLetters_of_switches {switches : Text} (hswitches : r.AreSwitches switches)
    (hc : r.HasLetter spec c) (harity : spec.arity = .required) :
    ∃ given : List Occurrence, (∀ o ∈ given, o.spec.arity = .switch) ∧
      r.readLetters (switches ++ [c]) = .needsValue given spec := by
  induction switches with
  | nil => exact ⟨[], by simp, by simp [readLetters, hc.letter?, harity]⟩
  | cons d switches ih =>
    obtain ⟨⟨switch, hd, hswitch⟩, hrest⟩ := List.forall_mem_cons.mp hswitches
    obtain ⟨given, hgiven, hread⟩ := ih hrest
    refine ⟨⟨switch, none⟩ :: given, List.forall_mem_cons.mpr ⟨hswitch, hgiven⟩, ?_⟩
    rw [List.cons_append, readLetters]
    simp [hd.letter?, hswitch, hread, Reading.afterFlag]

theorem readToken_of_asksForValue (h : r.AsksForValue spec token) :
    ∃ given : List Occurrence, (∀ o ∈ given, o.spec.arity = .switch) ∧
      r.readToken token = .needsValue given spec := by
  obtain ⟨harity, ⟨word, rfl, hname⟩ | ⟨switches, c, rfl, hswitches, hc⟩⟩ := h
  · have hread := hname.readToken []
    rw [List.append_nil, hname.readName_detached harity] at hread
    exact ⟨[], by simp, hread⟩
  · obtain ⟨given, hgiven, hread⟩ := readLetters_of_switches hswitches hc harity
    refine ⟨given, hgiven, hread ▸ ?_⟩
    cases switches with
    | nil =>
      have hdash := hc.ne_dash
      simp [readToken, hdash]
    | cons d switches =>
      obtain ⟨switch, hd, _⟩ := hswitches d List.mem_cons_self
      have hdash := hd.ne_dash
      simp [readToken, hdash]

end Registry

namespace Scan

variable {r : Registry} {before rest : List Text} {token value : Text} {spec : FlagSpec}

/-- Whether tokens are read to their end, so that the next token is no value and can be a flag. -/
structure IsComplete (r : Registry) (before : List Text) : Prop where
  terminator_not_mem : ("--" : Text) ∉ before
  fault_eq_none : (ofTokens r before).fault = none

/-- Whether a token is kept as a word of the search term, whatever follows it. -/
def Keeps (r : Registry) (before : List Text) (token : Text) : Prop :=
  ∀ rest, ofTokens r (before ++ token :: rest) =
    (ofTokens r rest).after ((ofTokens r before).items ++ [.word token])

/-- Whether the scan stops at a token, whatever follows it. -/
def StopsAt (r : Registry) (before : List Text) (token : Text) (f : OptionFault) : Prop :=
  ∀ rest, ofTokens r (before ++ token :: rest) = ⟨(ofTokens r before).items, some f⟩

theorem IsComplete.ofTokens_append (h : IsComplete r before) (rest : List Text) :
    ofTokens r (before ++ rest) = (ofTokens r rest).after (ofTokens r before).items :=
  Scan.ofTokens_append h.terminator_not_mem h.fault_eq_none rest

/-- What a single token is read as shows in its scan. -/
theorem ofTokens_singleton (r : Registry) (token : Text) : ofTokens r [token] =
    match r.readToken token with
    | .terminator => empty
    | .word => ⟨[.word token], none⟩
    | .fault f => ofFault f
    | .flags given => ⟨given.map .flag, none⟩
    | .needsValue _ spec => ofFault (.missingValue spec.flag) := by
  unfold ofTokens
  cases r.readToken token <;> simp [ofTokens, after, empty]

theorem keeps_iff (h : IsComplete r before) : Keeps r before token ↔ r.readToken token = .word := by
  constructor
  · intro hkeeps
    have hsingle : (ofTokens r [token]).items = [.word token] := by
      have heq := congrArg Scan.items (hkeeps [])
      rw [h.ofTokens_append] at heq
      simpa [after, ofTokens, empty] using heq
    rw [ofTokens_singleton] at hsingle
    cases hread : r.readToken token <;> simp_all [empty, ofFault, List.map_eq_cons_iff]
  · intro hread rest
    rw [h.ofTokens_append, ofTokens_of_word hread, after_after]

theorem stopsAt_unknownFlag_iff (h : IsComplete r before) {text : Text} :
    StopsAt r before token (.unknownFlag text) ↔
      r.readToken token = .fault (.unknownFlag text) := by
  constructor
  · intro hstops
    have hsingle : (ofTokens r [token]).fault = some (.unknownFlag text) := by
      have heq := congrArg Scan.fault (hstops [])
      rwa [h.ofTokens_append] at heq
    rw [ofTokens_singleton] at hsingle
    cases hread : r.readToken token <;> simp_all [empty, ofFault]
  · intro hread rest
    rw [h.ofTokens_append, ofTokens_of_fault hread]
    simp [after, ofFault]

section Value
variable {given : List Occurrence}

theorem ofTokens_of_refused (h : IsComplete r before)
    (hread : r.readToken token = .needsValue given spec)
    (hvalue : value = "--" ∨ r.StartsWithFlag value) (rest : List Text) :
    ofTokens r (before ++ token :: value :: rest) =
      ⟨(ofTokens r before).items, some (.missingValue spec.flag)⟩ := by
  have hnames := Registry.namesFlag_iff.mpr hvalue
  rw [h.ofTokens_append, ofTokens_of_namesFlag hread hnames]
  simp [after, ofFault]

theorem ofTokens_of_taken (h : IsComplete r before)
    (hread : r.readToken token = .needsValue given spec)
    (hvalue : ¬ (value = "--" ∨ r.StartsWithFlag value)) (rest : List Text) :
    ofTokens r (before ++ token :: value :: rest) = (ofTokens r rest).after
      ((ofTokens r before).items ++ (given.map .flag ++ [.flag ⟨spec, some value⟩])) := by
  have hnames : ¬ r.namesFlag value = true := mt Registry.namesFlag_iff.mp hvalue
  rw [h.ofTokens_append, ofTokens_of_value hread hnames, after_after]

end Value

end Scan

namespace Options

variable {r : Registry} {before : List Text}

/-- Where the scan stops behind tokens that make a query, reading fails. -/
theorem ofTokens_of_stops {more : List Text} {o : Options} {f : OptionFault}
    (h : ofTokens r before = .ok o) (hlength : (before ++ more).length ≤ maxElements)
    (hscan : Scan.ofTokens r (before ++ more) = ⟨(Scan.ofTokens r before).items, some f⟩) :
    ofTokens r (before ++ more) = .error f := by
  have hbefore : before.length ≤ maxElements := by
    rw [List.length_append] at hlength
    omega
  rw [ofScan_ofTokens hbefore] at h
  rw [ofScan_ofTokens hlength, hscan]
  unfold ofScan at *
  change (Given.ofOccurrences (Scan.ofTokens r before).occurrences >>= _) = _
  cases hgiven : Given.ofOccurrences (Scan.ofTokens r before).occurrences with
  | error f' =>
    rw [hgiven] at h
    cases h
  | ok given => rfl

/-- Taking a value and reading flags agree on what is a flag. Behind tokens read to their end, a token
names no flag exactly if it would be kept as a word, or reading would stop at it because it is unknown,
with no flag recognised in it. A flag that requires a value refuses the next token exactly if that is
the terminator or starts with a registered flag, and takes any other for its value. -/
theorem ofTokens_lookahead (h : Scan.IsComplete r before) (token : Text) :
    (r.trace token).reading = r.readToken token ∧
    (r.namesFlag token = false ↔ Scan.Keeps r before token ∨
      (∃ text, Scan.StopsAt r before token (.unknownFlag text)) ∧
        (r.trace token).recognised = []) ∧
    (∀ spec, r.AsksForValue spec token → ∃ given : List Occurrence,
      (∀ o ∈ given, o.spec.arity = .switch) ∧ ∀ (value : Text) (rest : List Text),
        (value = "--" ∨ r.StartsWithFlag value →
          Scan.ofTokens r (before ++ token :: value :: rest) =
            ⟨(Scan.ofTokens r before).items, some (.missingValue spec.flag)⟩) ∧
        (¬ (value = "--" ∨ r.StartsWithFlag value) →
          Scan.ofTokens r (before ++ token :: value :: rest) = (Scan.ofTokens r rest).after
            ((Scan.ofTokens r before).items ++ (given.map .flag ++ [.flag ⟨spec, some value⟩])))) ∧
    ∀ (o : Options) (rest : List Text) (f : OptionFault), ofTokens r before = .ok o →
      (before ++ token :: rest).length ≤ maxElements →
      Scan.ofTokens r (before ++ token :: rest) = ⟨(Scan.ofTokens r before).items, some f⟩ →
      ofTokens r (before ++ token :: rest) = .error f := by
  refine ⟨Registry.reading_trace r token, ?_, ?_, fun _ _ _ => ofTokens_of_stops⟩
  · rw [Registry.namesFlag_eq_false_iff, Scan.keeps_iff h]
    simp only [Scan.stopsAt_unknownFlag_iff h]
  · intro spec hasks
    obtain ⟨given, hswitches, hread⟩ := Registry.readToken_of_asksForValue hasks
    exact ⟨given, hswitches, fun value rest =>
      ⟨fun hvalue => Scan.ofTokens_of_refused h hread hvalue rest,
        fun hvalue => Scan.ofTokens_of_taken h hread hvalue rest⟩⟩

/-- Behind a switch and a word, `-rT` takes `-1` for its value and refuses `-B1`, and neither the letter
of `-1` nor the name of `---exact` is that of a flag. -/
theorem ofTokens_lookahead_types :
    ∃ (before : List Text) (given : List Occurrence), before = Text.words "-G 10.0.0.0" ∧
      Scan.IsComplete .standard before ∧
      Registry.standard.AsksForValue Flag.selectTypes.standardSpec "-rT" ∧
      Registry.standard.StartsWithFlag "-B1" ∧
      ¬ (("-1" : Text) = "--" ∨ Registry.standard.StartsWithFlag "-1") ∧
      (Registry.standard.namesFlag "---exact" = false ∧
        (Scan.Keeps .standard before "---exact" ∨
          (∃ text, Scan.StopsAt .standard before "---exact" (.unknownFlag text)) ∧
            (Registry.standard.trace "---exact").recognised = [])) ∧
      ofTokens .standard (before ++ [("-rT" : Text), "-B1"]) = .error (.missingValue .selectTypes) ∧
      Scan.ofTokens .standard (before ++ [("-rT" : Text), "-1"]) =
        ⟨(Scan.ofTokens .standard before).items ++
          (given.map .flag ++ [.flag ⟨Flag.selectTypes.standardSpec, some "-1"⟩]), none⟩ := by
  let before : List Text := Text.words "-G 10.0.0.0"
  have hcomplete : Scan.IsComplete .standard before := ⟨by decide +kernel, by decide +kernel⟩
  have hT : Registry.standard.HasLetter Flag.selectTypes.standardSpec 'T' := .standard (by decide)
  have hr : Registry.standard.HasLetter Flag.noReferenced.standardSpec 'r' := .standard (by decide)
  have hB : Registry.standard.HasLetter Flag.noFiltering.standardSpec 'B' := .standard (by decide)
  have hasks : Registry.standard.AsksForValue Flag.selectTypes.standardSpec "-rT" :=
    ⟨rfl, .inr ⟨['r'], 'T', rfl, List.forall_mem_singleton.mpr ⟨_, hr, rfl⟩, hT⟩⟩
  have hstart : Registry.standard.StartsWithFlag "-B1" := .inr ⟨_, 'B', ['1'], rfl, hB⟩
  have hnumber : ¬ (("-1" : Text) = "--" ∨ Registry.standard.StartsWithFlag "-1") := by
    rw [← Registry.namesFlag_iff]
    decide +kernel
  have hdashes : Registry.standard.namesFlag "---exact" = false := by decide +kernel
  have hread : ofTokens .standard before = .ok ⟨Given.none.set .noGrouping [], "10.0.0.0"⟩ := by rfl
  obtain ⟨_, hagree, _, _⟩ := ofTokens_lookahead hcomplete "---exact"
  obtain ⟨_, _, hvalue, hfails⟩ := ofTokens_lookahead hcomplete "-rT"
  obtain ⟨given, _, hgiven⟩ := hvalue _ hasks
  refine ⟨before, given, rfl, hcomplete, hasks, hstart, hnumber, ⟨hdashes, hagree.mp hdashes⟩, ?_, ?_⟩
  · exact hfails _ _ _ hread (by decide) ((hgiven "-B1" []).1 (.inr hstart))
  · have htaken := (hgiven "-1" []).2 hnumber
    simpa [Scan.ofTokens, Scan.after, Scan.empty] using htaken

end Options

end Whois

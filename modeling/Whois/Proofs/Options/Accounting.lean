import Whois.Proofs.Options.Composition
import Whois.Proofs.Options.Phrase

/-!
What becomes of every token of a query. The options are told by the phrases of the query alone: its
words and what follows the terminator make up the search term, the tokens that name a flag say that
it is given, and its values are those of the phrases in their order.
-/
namespace Whois

/-- Whether every letter stands for a switch. -/
def Registry.AreSwitches (r : Registry) (letters : Text) : Prop :=
  ∀ c ∈ letters, ∃ spec, r.HasLetter spec c ∧ spec.arity = .switch

/-- Whether a token names a flag: by a name, alone or with a value behind an equals sign, or by a
letter behind letters of switches only, so before any value. -/
def Registry.Names (r : Registry) (spec : FlagSpec) (token : Text) : Prop :=
  (∃ word rest : Text, token = '-' :: '-' :: (word ++ rest) ∧ r.HasName spec word ∧
    (rest = [] ∨ rest.head? = some '=')) ∨
  ∃ (switches rest : Text) (c : Char), token = '-' :: (switches ++ c :: rest) ∧
    r.HasLetter spec c ∧ r.AreSwitches switches

/-- Whether a phrase names a flag. -/
def Phrase.Names (r : Registry) (spec : FlagSpec) : Phrase → Prop
  | .word _ => False
  | .flags _ token _ => r.Names spec token

variable {r : Registry} {spec spec' : FlagSpec} {c : Char} {given : List Occurrence}
  {letters token : Text} {next tokens : List Text} {value : Option Text}

theorem Registry.HasLetter.unique (h : r.HasLetter spec c) (h' : r.HasLetter spec' c) :
    spec = spec' := Option.some.inj (h.letter?.symm.trans h'.letter?)

/-- A cluster starts with the letter of its first flag. If that is a switch, a cluster follows, or
nothing. -/
theorem Cluster.exists_first (h : Cluster r given letters next) :
    ∃ (o : Occurrence) (others : List Occurrence) (c : Char) (rest : Text),
      given = o :: others ∧ letters = c :: rest ∧ r.HasLetter o.spec c ∧
        (o.spec.arity = .switch → rest = [] ∨ Cluster r others rest next) := by
  cases h with
  | bare h _ => exact ⟨_, _, _, _, rfl, rfl, h, fun _ => .inl rfl⟩
  | attached h harity _ => exact ⟨_, _, _, _, rfl, rfl, h, fun hs => absurd hs harity⟩
  | detached h _ _ => exact ⟨_, _, _, _, rfl, rfl, h, fun _ => .inl rfl⟩
  | cons h _ hrest => exact ⟨_, _, _, _, rfl, rfl, h, fun _ => .inr hrest⟩

theorem Cluster.exists_letter (h : Cluster r given letters next)
    (hspec : ∃ o ∈ given, o.spec = spec) : ∃ (switches rest : Text) (c : Char),
      letters = switches ++ c :: rest ∧ r.HasLetter spec c ∧ r.AreSwitches switches := by
  induction h with
  | bare h _ =>
    obtain rfl : _ = spec := by simpa using hspec
    exact ⟨[], [], _, rfl, h, by simp [Registry.AreSwitches]⟩
  | attached h _ _ =>
    obtain rfl : _ = spec := by simpa using hspec
    exact ⟨[], _, _, rfl, h, by simp [Registry.AreSwitches]⟩
  | detached h _ _ =>
    obtain rfl : _ = spec := by simpa using hspec
    exact ⟨[], [], _, rfl, h, by simp [Registry.AreSwitches]⟩
  | @cons first c os letters next h harity hrest ih =>
    obtain rfl | hspec : first = spec ∨ ∃ o ∈ os, o.spec = spec := by simpa using hspec
    · exact ⟨[], _, _, rfl, h, by simp [Registry.AreSwitches]⟩
    · obtain ⟨switches, rest, d, rfl, hd, hswitches⟩ := ih hspec
      exact ⟨c :: switches, rest, d, rfl, hd,
        List.forall_mem_cons.mpr ⟨⟨_, h, harity⟩, hswitches⟩⟩

theorem Cluster.exists_spec {switches rest : Text} (h : Cluster r given (switches ++ c :: rest) next)
    (hc : r.HasLetter spec c) (hswitches : r.AreSwitches switches) : ∃ o ∈ given, o.spec = spec := by
  induction switches generalizing given with
  | nil =>
    obtain ⟨o, others, d, rest', rfl, hletters, hd, _⟩ := h.exists_first
    obtain ⟨rfl, _⟩ := List.cons.inj hletters
    exact ⟨o, List.mem_cons_self, hd.unique hc⟩
  | cons s switches ih =>
    obtain ⟨o, others, d, rest', rfl, hletters, hd, hfirst⟩ := h.exists_first
    obtain ⟨rfl, rfl⟩ := List.cons.inj hletters
    obtain ⟨⟨switch, hs, harity⟩, hswitches⟩ := List.forall_mem_cons.mp hswitches
    rcases hfirst (hd.unique hs ▸ harity) with hnil | hcluster
    · simp at hnil
    · obtain ⟨o', ho', hspec⟩ := ih hcluster hswitches
      exact ⟨o', List.mem_cons_of_mem _ ho', hspec⟩

/-- The first letter of a cluster is no dash. -/
theorem Cluster.head?_ne_dash (h : Cluster r given letters next) : letters.head? ≠ some '-' := by
  obtain ⟨o, others, c, rest, _, rfl, hc, _⟩ := h.exists_first
  simpa using hc.ne_dash

theorem Cluster.exists_spec_iff (h : Cluster r given letters next) :
    (∃ o ∈ given, o.spec = spec) ↔ r.Names spec ('-' :: letters) := by
  constructor
  · intro hspec
    obtain ⟨switches, rest, c, rfl, hc, hswitches⟩ := h.exists_letter hspec
    exact .inr ⟨switches, rest, c, rfl, hc, hswitches⟩
  · rintro (⟨word, rest, htoken, _⟩ | ⟨switches, rest, c, htoken, hc, hswitches⟩)
    · obtain ⟨_, rfl⟩ := List.cons.inj htoken
      exact absurd rfl h.head?_ne_dash
    · obtain ⟨_, rfl⟩ := List.cons.inj htoken
      exact h.exists_spec hc hswitches

namespace Registry.HasName

variable {word word' rest rest' : Text}

/-- A name ends where the token does, or before the equals sign. -/
theorem eq_of_append_eq (h : r.HasName spec word) (h' : r.HasName spec' word')
    (hrest : rest = [] ∨ rest.head? = some '=') (hrest' : rest' = [] ∨ rest'.head? = some '=')
    (heq : word ++ rest = word' ++ rest') : spec = spec' := by
  have htake : ∀ {spec word rest}, r.HasName spec word → (rest = [] ∨ rest.head? = some '=') →
      (word ++ rest).takeWhile (· != '=') = word := by
    intro spec word rest hname hrest
    have hword : ∀ c ∈ word, (c != '=') = true := by
      intro c hc
      rw [bne_iff_ne]
      rintro rfl
      exact hname.equals_not_mem hc
    rw [List.takeWhile_append_of_pos hword]
    rcases hrest with rfl | hhead
    · simp
    · obtain ⟨v, rfl⟩ := List.head?_eq_some_iff.mp hhead
      simp
  have hword : word = word' := by rw [← htake h hrest, heq, htake h' hrest']
  rw [hword] at h
  exact Option.some.inj (h.name?.symm.trans h'.name?)

theorem names_iff (h : r.HasName spec' word) (hrest : rest = [] ∨ rest.head? = some '=') :
    r.Names spec ('-' :: '-' :: (word ++ rest)) ↔ spec' = spec := by
  constructor
  · rintro (⟨word', rest', htoken, h', hrest'⟩ | ⟨switches, rest', c, htoken, hc, hswitches⟩)
    · simp only [List.cons.injEq, true_and] at htoken
      exact eq_of_append_eq h h' hrest hrest' htoken
    · -- No letter is a dash.
      cases switches with
      | nil =>
        simp only [List.nil_append, List.cons.injEq, true_and] at htoken
        exact absurd htoken.1.symm hc.ne_dash
      | cons d switches =>
        simp only [List.cons_append, List.cons.injEq, true_and] at htoken
        obtain ⟨_, hd, _⟩ := hswitches d List.mem_cons_self
        exact absurd htoken.1.symm hd.ne_dash
  · rintro rfl
    exact .inl ⟨word, rest, rfl, h, hrest⟩

theorem names_self_iff (h : r.HasName spec' word) :
    r.Names spec ('-' :: '-' :: word) ↔ spec' = spec := by
  have hnames : r.Names spec ('-' :: '-' :: (word ++ [])) ↔ spec' = spec := h.names_iff (.inl rfl)
  rwa [List.append_nil] at hnames

end Registry.HasName

/-- The flags that a token gives are those it names. -/
theorem FlagToken.exists_spec_iff (h : FlagToken r given token value) :
    (∃ o ∈ given, o.spec = spec) ↔ r.Names spec token := by
  cases h with
  | letters h => exact h.exists_spec_iff
  | name h => simp [h.names_self_iff]
  | nameAttached h => simp [h.names_iff]
  | nameEmpty h => simp [h.names_iff]
  | nameDetached h => simp [h.names_self_iff]

theorem Phrase.Fits.names_iff {p : Phrase} (h : p.Fits r) :
    p.Names r spec ↔ ∃ o ∈ p.given, o.spec = spec := by
  cases p with
  | word text => simp [Names, Phrase.given]
  | flags given token value => exact (FlagToken.exists_spec_iff h).symm

namespace Options

/-- Whether phrases tell where every token before the terminator goes, and what the options are. -/
structure Accounts (r : Registry) (tokens : List Text) (phrases : List Phrase) (o : Options) :
    Prop where
  fits : ∀ p ∈ phrases, p.Fits r
  tokens_eq : phrases.flatMap Phrase.tokens = beforeTerminator tokens
  searchTerm : o.searchTerm =
    Text.join " " (phrases.flatMap Phrase.words ++ afterTerminator tokens)
  has_iff : ∀ f, o.has f = true ↔ ∃ p ∈ phrases, ∃ spec, spec.flag = f ∧ p.Names r spec
  values_eq : ∀ f, o.values f =
    Given.kept r f (Given.valuesOf (phrases.flatMap Phrase.given) f)

/-- Every token of a query before the terminator belongs to one phrase, in one way only: it is a word
of the search term, or names flags, or is the value of the last flag of the token before it. -/
theorem ofTokens_accounts {o : Options} (hwords : ∀ t ∈ tokens, Text.IsWord t)
    (h : ofTokens r tokens = .ok o) : ∃ phrases, Accounts r tokens phrases o ∧
      ∀ phrases', (∀ p ∈ phrases', p.Fits r) →
        phrases'.flatMap Phrase.tokens = beforeTerminator tokens → phrases' = phrases := by
  obtain ⟨_, hfault, hconsistent, rfl⟩ := ofTokens_eq_ok_iff.mp h
  obtain ⟨phrases, hcover⟩ := Phrase.exists_cover hfault
  have hoccurrences := hcover.occurrences_eq
  refine ⟨phrases, ⟨hcover.fits, hcover.tokens_eq, ?_, ?_, ?_⟩, ?_⟩
  · rw [← hcover.words_eq]
    exact Text.trim_join (isWord_of_mem_words hwords)
  · intro f
    rw [hoccurrences]
    show (Given.collected r _ f).isSome = true ↔ _
    rw [Given.collected_isSome]
    simp only [List.mem_flatMap]
    constructor
    · rintro ⟨o, ⟨p, hp, ho⟩, hf⟩
      exact ⟨p, hp, o.spec, hf, (hcover.fits p hp).names_iff.mpr ⟨o, ho, rfl⟩⟩
    · rintro ⟨p, hp, spec, hf, hnames⟩
      obtain ⟨o, ho, rfl⟩ := (hcover.fits p hp).names_iff.mp hnames
      exact ⟨o, ⟨p, hp, ho⟩, hf⟩
  · intro f
    rw [hoccurrences]
    exact Given.getD_collected
  · intro phrases' hfits' htokens'
    exact Phrase.eq_of_flatMap_tokens_eq hfits' hcover.fits (htokens'.trans hcover.tokens_eq.symm)

theorem ofTokens_accounts_clusterValue :
    ∃ (tokens : List Text) (o : Options) (given : List Occurrence),
      tokens = Text.words "-rT -1 10.0.0.0 -- -x /8" ∧
      (∀ t ∈ tokens, Text.IsWord t) ∧ ofTokens .standard tokens = .ok o ∧
      Accounts .standard tokens [.flags given "-rT" (some "-1"), .word "10.0.0.0"] o := by
  let given : List Occurrence :=
    [⟨Flag.noReferenced.standardSpec, none⟩, ⟨Flag.selectTypes.standardSpec, some "-1"⟩]
  have hwords : ∀ t ∈ Text.words "-rT -1 10.0.0.0 -- -x /8", Text.IsWord t :=
    fun _ => Text.isWord_of_mem_words
  have hok : ofTokens .standard (Text.words "-rT -1 10.0.0.0 -- -x /8") =
      .ok ⟨(Given.none.set .noReferenced []).set .selectTypes ["-1"], "10.0.0.0 -x /8"⟩ := by rfl
  have hvalue : ¬ Registry.standard.namesFlag "-1" = true := by decide +kernel
  have hlast : Cluster .standard [⟨Flag.selectTypes.standardSpec, some "-1"⟩] "T" ["-1"] :=
    .detached (.standard (by decide)) rfl hvalue
  have hflags : FlagToken .standard given "-rT" (some "-1") :=
    .letters (.cons (.standard (by decide)) rfl hlast)
  obtain ⟨phrases, haccounts, hunique⟩ := ofTokens_accounts hwords hok
  have hfits : ∀ p ∈ [.flags given "-rT" (some "-1"), .word "10.0.0.0"],
      Phrase.Fits .standard p := by
    intro p hp
    simp only [List.mem_cons, List.not_mem_nil, or_false] at hp
    rcases hp with rfl | rfl
    · exact hflags
    · exact .inr (by decide)
  obtain rfl := hunique _ hfits (by decide)
  exact ⟨_, _, given, rfl, hwords, hok, haccounts⟩

end Options

end Whois

import Whois.Proofs.Options.Basic

/-!
Queries put together from two lists of tokens. Unless the terminator stands in between, the second
list is read as if it stood alone, and the flags and search terms of the two are merged.
-/
namespace Whois.Options

variable {r : Registry} {tokens : List Text}

/-- Whether two queries never give different values to a flag that is not repeatable. -/
def Agree (r : Registry) (o o' : Options) : Prop :=
  ∀ f, r.isRepeatable f = false → ∀ v ∈ o.values f, ∀ v' ∈ o'.values f, v = v'

/-- The values of a flag in two queries together. -/
def mergedValues (r : Registry) (o o' : Options) (f : Flag) : List Text :=
  if r.isRepeatable f then o.values f ++ o'.values f
  else if o.values f = [] then o'.values f else o.values f

/-- The flags of two queries, and their search terms with a space in between. -/
def merge (r : Registry) (o o' : Options) : Options where
  given f := if o.has f || o'.has f then some (mergedValues r o o' f) else none
  searchTerm := Text.joinNonempty " " o.searchTerm o'.searchTerm

section Merging
variable {os os' : List Occurrence} {term term' : Text}

theorem agree_collected (h : Given.Consistent r os) (h' : Given.Consistent r os') :
    Agree r ⟨Given.collected r os, term⟩ ⟨Given.collected r os', term'⟩ ↔
      Given.Consistent r (os ++ os') := by
  rw [Given.consistent_append]
  simp only [h, h', true_and]
  unfold Agree values
  simp only [Given.getD_collected, Given.mem_kept (h _), Given.mem_kept (h' _)]

theorem merge_collected :
    merge r ⟨Given.collected r os, term⟩ ⟨Given.collected r os', term'⟩ =
      ⟨Given.collected r (os ++ os'), Text.joinNonempty " " term term'⟩ := by
  unfold merge
  congr 1
  funext f
  rw [Given.collected_append, Given.kept_append, ← Given.getD_collected, ← Given.getD_collected]
  rfl

end Merging

section Merged
variable {o o' : Options} {f : Flag}

theorem has_merge : (merge r o o').has f = (o.has f || o'.has f) := by
  conv => lhs; unfold has merge
  dsimp only
  cases o.has f || o'.has f <;> rfl

theorem values_merge : (merge r o o').values f = mergedValues r o o' f := by
  unfold values merge
  dsimp only
  split
  next => rfl
  next hnot =>
    -- A flag that neither query has is without values in both.
    have hnone : o.given f = none ∧ o'.given f = none := by simpa [has] using hnot
    simp [mergedValues, values, hnone]

end Merged

theorem isWord_of_mem_words (h : ∀ t ∈ tokens, Text.IsWord t) :
    ∀ w ∈ (Scan.ofTokens r tokens).words, Text.IsWord w :=
  fun w hw => h w (Scan.mem_tokens_of_mem_items (Scan.mem_words.mp hw))

/-- Behind tokens that make a query, further tokens are read as if they stood alone: the two queries
must agree, and are merged. Behind a terminator all tokens join the search term. -/
theorem ofTokens_append_merge {first rest : List Text} {o : Options}
    (hwords : ∀ t ∈ first ++ rest, Text.IsWord t) (hfirst : ofTokens r first = .ok o)
    (hterminator : ("--" : Text) ∉ first) :
    (first.length + rest.length ≤ maxElements → ∀ q : Options,
      ofTokens r (first ++ rest) = .ok q ↔
        ∃ o', ofTokens r rest = .ok o' ∧ Agree r o o' ∧ q = merge r o o') ∧
    (first.length + 1 + rest.length ≤ maxElements →
      ofTokens r (first ++ ("--" : Text) :: rest) =
        .ok ⟨o.given, Text.joinNonempty " " o.searchTerm (Text.join " " rest)⟩) := by
  obtain ⟨hlen, hfault, hcons, rfl⟩ := ofTokens_eq_ok_iff.mp hfirst
  have hscan := Scan.ofTokens_append hterminator hfault
  have hfirstWords := isWord_of_mem_words (r := r) fun t ht => hwords t (List.mem_append_left _ ht)
  have hrestWords : ∀ t ∈ rest, Text.IsWord t := fun t ht => hwords t (List.mem_append_right _ ht)
  constructor
  · intro hle q
    have hterm := Text.trim_join_append hfirstWords (isWord_of_mem_words (r := r) hrestWords)
    rw [ofTokens_eq_ok_iff, hscan, Scan.occurrences_after, Scan.words_after, hterm]
    constructor
    · rintro ⟨_, hfault', hcons', rfl⟩
      have hrest := (Given.consistent_append.mp hcons').2.1
      refine ⟨_, ofTokens_eq_ok_iff.mpr ⟨by omega, hfault', hrest, rfl⟩, ?_, ?_⟩
      · exact (agree_collected hcons hrest).mpr hcons'
      · rw [merge_collected]
    · rintro ⟨o', ho', hagree, rfl⟩
      obtain ⟨_, hfault', hcons', rfl⟩ := ofTokens_eq_ok_iff.mp ho'
      refine ⟨?_, hfault', (agree_collected hcons hcons').mp hagree, ?_⟩
      · rw [List.length_append]
        exact hle
      · rw [merge_collected]
  · intro hle
    rw [ofTokens_eq_ok_iff, hscan, Scan.occurrences_after, Scan.words_after]
    rw [Scan.occurrences_ofTokens_terminator, Scan.words_ofTokens_terminator, List.append_nil]
    refine ⟨?_, rfl, hcons, ?_⟩
    · rw [List.length_append, List.length_cons]
      omega
    · rw [Text.trim_join_append hfirstWords hrestWords, Text.trim_join hrestWords]

theorem ofTokens_append_merge_selectTypes :
    ((∀ t ∈ Text.words "-T inetnum 10.0.0.0" ++ Text.words "-Troute -B /8", Text.IsWord t) ∧
      ofTokens .standard (Text.words "-T inetnum 10.0.0.0") =
        .ok ⟨Given.none.set .selectTypes ["inetnum"], "10.0.0.0"⟩ ∧
      ("--" : Text) ∉ Text.words "-T inetnum 10.0.0.0") ∧
    (∀ q : Options,
      ofTokens .standard (Text.words "-T inetnum 10.0.0.0" ++ Text.words "-Troute -B /8") = .ok q ↔
        ∃ o', ofTokens .standard (Text.words "-Troute -B /8") = .ok o' ∧
          Agree .standard ⟨Given.none.set .selectTypes ["inetnum"], "10.0.0.0"⟩ o' ∧
          q = merge .standard ⟨Given.none.set .selectTypes ["inetnum"], "10.0.0.0"⟩ o') ∧
    ofTokens .standard
        (Text.words "-T inetnum 10.0.0.0" ++ ("--" : Text) :: Text.words "-Troute -B /8") =
      .ok ⟨Given.none.set .selectTypes ["inetnum"], "10.0.0.0 -Troute -B /8"⟩ := by
  have hwords : ∀ t ∈ Text.words "-T inetnum 10.0.0.0" ++ Text.words "-Troute -B /8",
      Text.IsWord t :=
    List.forall_mem_append.mpr
      ⟨fun _ => Text.isWord_of_mem_words, fun _ => Text.isWord_of_mem_words⟩
  have hfirst : ofTokens .standard (Text.words "-T inetnum 10.0.0.0") =
      .ok ⟨Given.none.set .selectTypes ["inetnum"], "10.0.0.0"⟩ := by rfl
  have hterminator : ("--" : Text) ∉ Text.words "-T inetnum 10.0.0.0" := by decide
  have h := ofTokens_append_merge hwords hfirst hterminator
  exact ⟨⟨hwords, hfirst, hterminator⟩, h.1 (by decide), h.2 (by decide)⟩

end Whois.Options

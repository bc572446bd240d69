import Whois.Options.Basic

/-!
What can be read of a list of tokens. A flag is read only as its spec allows, and what has been read
without a fault is read the same way in front of any other tokens.
-/
namespace Whois

namespace Registry

/-- Whether a flag may be given so with a token: with a value if it requires one, without if it is a
switch, and with no other value than the end of the token. -/
structure Admits (r : Registry) (token : Text) (o : Occurrence) : Prop where
  mem_specs : o.spec ∈ r.specs
  switch : o.spec.arity = .switch → o.value = none
  required : o.spec.arity = .required → o.value.isSome = true
  suffix : ∀ v, o.value = some v → v <:+ token

/-- Whether a reading is one of flags that may be given so. -/
def AdmitsReading (r : Registry) (token : Text) : Reading → Prop
  | .terminator | .word => False
  | .flags given => ∀ o ∈ given, r.Admits token o
  | .needsValue given spec =>
    (∀ o ∈ given, r.Admits token o) ∧ spec ∈ r.specs ∧ spec.arity = .required
  | .fault _ => True

variable {r : Registry} {token part : Text} {o : Occurrence}

theorem Admits.of_suffix (h : r.Admits part o) (hpart : part <:+ token) : r.Admits token o :=
  ⟨h.mem_specs, h.switch, h.required, fun v hv => (h.suffix v hv).trans hpart⟩

theorem AdmitsReading.of_suffix {reading : Reading} (h : r.AdmitsReading part reading)
    (hpart : part <:+ token) : r.AdmitsReading token reading := by
  cases reading with
  | terminator => exact h
  | word => exact h
  | flags given => exact fun o ho => (h o ho).of_suffix hpart
  | needsValue given spec => exact ⟨fun o ho => (h.1 o ho).of_suffix hpart, h.2⟩
  | fault f => trivial

theorem AdmitsReading.afterFlag {reading : Reading} (h : r.AdmitsReading token reading)
    (ho : r.Admits token o) : r.AdmitsReading token (reading.afterFlag o) := by
  cases reading with
  | terminator => exact h
  | word => exact h
  | flags given => exact List.forall_mem_cons.mpr ⟨ho, h⟩
  | needsValue given spec => exact ⟨List.forall_mem_cons.mpr ⟨ho, h.1⟩, h.2⟩
  | fault f => trivial

section Value
variable {spec : FlagSpec} {v : Text} (h : spec ∈ r.specs)
include h

theorem admits_none (harity : spec.arity ≠ .required) : r.Admits token ⟨spec, none⟩ :=
  ⟨h, fun _ => rfl, fun hr => absurd hr harity, by simp⟩

theorem admits_some (harity : spec.arity ≠ .switch) (hv : v <:+ token) :
    r.Admits token ⟨spec, some v⟩ := by
  refine ⟨h, fun hs => absurd hs harity, fun _ => rfl, ?_⟩
  rintro _ ⟨⟩
  exact hv

theorem admits_attached (harity : spec.arity = .optional) (hv : v <:+ token) :
    r.Admits token ⟨spec, attached? v⟩ := by
  unfold attached?
  split
  · exact admits_none h (by simp [harity])
  · exact admits_some h (by simp [harity]) hv

end Value

theorem admitsReading_readName (body : Text) : r.AdmitsReading body (r.readName body) := by
  unfold readName
  cases hcut : Text.cut? '=' body with
  | none =>
    dsimp only
    split
    next => trivial
    next spec hspec =>
      have hmem := (name?_eq_some hspec).1
      cases harity : spec.arity with
      | switch => exact List.forall_mem_singleton.mpr (admits_none hmem (by simp [harity]))
      | required => exact ⟨by simp, hmem, harity⟩
      | optional => exact List.forall_mem_singleton.mpr (admits_none hmem (by simp [harity]))
  | some parts =>
    obtain ⟨word, value⟩ := parts
    have hvalue : value <:+ body := by
      rw [Text.cut?_eq_some hcut]
      exact (List.suffix_cons '=' value).trans (List.suffix_append word _)
    dsimp only
    split
    next => trivial
    next spec hspec =>
      have hmem := (name?_eq_some hspec).1
      cases harity : spec.arity with
      | switch => trivial
      | required =>
        cases value with
        | nil => trivial
        | cons c rest =>
          exact List.forall_mem_singleton.mpr (admits_some hmem (by simp [harity]) hvalue)
      | optional => exact List.forall_mem_singleton.mpr (admits_attached hmem harity hvalue)

theorem admitsReading_readLetters (letters : Text) :
    r.AdmitsReading letters (r.readLetters letters) := by
  induction letters with
  | nil => simp [readLetters, AdmitsReading]
  | cons c rest ih =>
    have hrest : rest <:+ c :: rest := List.suffix_cons c rest
    unfold readLetters
    split
    next => trivial
    next spec hspec =>
      have hmem := (letter?_eq_some hspec).1
      cases harity : spec.arity with
      | switch => exact (ih.of_suffix hrest).afterFlag (admits_none hmem (by simp [harity]))
      | required =>
        dsimp only
        split
        · exact ⟨by simp, hmem, harity⟩
        · exact List.forall_mem_singleton.mpr (admits_some hmem (by simp [harity]) hrest)
      | optional => exact List.forall_mem_singleton.mpr (admits_attached hmem harity hrest)

/-- A token is the terminator, a word, or says something about flags. -/
theorem readToken_cases (r : Registry) (token : Text) :
    (token = "--" ∧ r.readToken token = .terminator) ∨ r.readToken token = .word ∨
      r.AdmitsReading token (r.readToken token) := by
  unfold readToken
  split
  · exact .inl ⟨rfl, rfl⟩
  next body _ =>
    have hbody : body <:+ '-' :: '-' :: body := List.suffix_append ['-', '-'] body
    exact .inr (.inr ((admitsReading_readName body).of_suffix hbody))
  next c rest _ _ =>
    have hletters : c :: rest <:+ '-' :: c :: rest := List.suffix_cons '-' _
    exact .inr (.inr ((admitsReading_readLetters _).of_suffix hletters))
  · exact .inr (.inl rfl)

end Registry

namespace Scan

variable {r : Registry}

theorem after_after (items items' : List Item) (s : Scan) :
    (s.after items').after items = s.after (items ++ items') := by
  simp [after]

theorem words_after (s s' : Scan) : (s'.after s.items).words = s.words ++ s'.words := by
  simp [after, words]

theorem occurrences_after (s s' : Scan) :
    (s'.after s.items).occurrences = s.occurrences ++ s'.occurrences := by
  simp [after, occurrences]

/-- Flags in front leave the search term as it is. -/
theorem words_after_flags (os : List Occurrence) (s : Scan) :
    (s.after (os.map .flag)).words = s.words := by
  simp [after, words]

theorem occurrences_after_flags (os : List Occurrence) (s : Scan) :
    (s.after (os.map .flag)).occurrences = os ++ s.occurrences := by
  unfold after occurrences
  rw [List.filterMap_append, List.filterMap_map]
  exact congrArg (· ++ _) List.filterMap_some

theorem words_ofWords (ws : List Text) : words ⟨ws.map .word, none⟩ = ws := by
  unfold words
  rw [List.filterMap_map]
  exact List.filterMap_some

theorem occurrences_ofWords (ws : List Text) : occurrences ⟨ws.map .word, none⟩ = [] := by
  simp [occurrences]

theorem mem_words {s : Scan} {text : Text} : text ∈ s.words ↔ .word text ∈ s.items := by
  unfold words
  rw [List.mem_filterMap]
  constructor
  · rintro ⟨item | o, hitem, htext⟩
    · cases htext
      exact hitem
    · cases htext
  · intro h
    exact ⟨_, h, rfl⟩

theorem mem_occurrences {s : Scan} {o : Occurrence} : o ∈ s.occurrences ↔ .flag o ∈ s.items := by
  unfold occurrences
  rw [List.mem_filterMap]
  constructor
  · rintro ⟨text | o', hitem, ho⟩
    · cases ho
    · cases ho
      exact hitem
  · intro h
    exact ⟨_, h, rfl⟩

theorem admits_of_readToken {token : Text} {reading : Reading} (h : r.readToken token = reading)
    (hterminator : reading ≠ .terminator) (hword : reading ≠ .word) :
    r.AdmitsReading token reading := by
  rcases r.readToken_cases token with ⟨_, hcase⟩ | hcase | hcase
  · exact absurd (h.symm.trans hcase) hterminator
  · exact absurd (h.symm.trans hcase) hword
  · rwa [h] at hcase

/-- Flags are read as their specs allow, and every value is the end of a token. -/
theorem admits_of_mem_items {tokens : List Text} {o : Occurrence}
    (h : .flag o ∈ (ofTokens r tokens).items) : ∃ token ∈ tokens, r.Admits token o := by
  fun_induction ofTokens r tokens with
  | case1 => simp [empty] at h
  | case2 => simp at h
  | case3 token rest hread ih =>
    obtain ⟨t, ht, ho⟩ := ih (by simpa [after] using h)
    exact ⟨t, List.mem_cons_of_mem _ ht, ho⟩
  | case4 => simp [ofFault] at h
  | case5 token rest given hread ih =>
    have hgiven := admits_of_readToken hread (by simp) (by simp)
    simp only [after, List.mem_append, List.mem_map, Item.flag.injEq, exists_eq_right] at h
    rcases h with h | h
    · exact ⟨token, List.mem_cons_self, hgiven o h⟩
    · obtain ⟨t, ht, ho⟩ := ih h
      exact ⟨t, List.mem_cons_of_mem _ ht, ho⟩
  | case6 => simp [ofFault] at h
  | case7 => simp [ofFault] at h
  | case8 token given spec hread value rest hnames ih =>
    obtain ⟨hgiven, hspec, harity⟩ := admits_of_readToken hread (by simp) (by simp)
    simp only [after, List.mem_append, List.mem_map, Item.flag.injEq, exists_eq_right,
      List.mem_singleton] at h
    rcases h with (h | rfl) | h
    · exact ⟨token, List.mem_cons_self, hgiven o h⟩
    · refine ⟨value, by simp, ?_⟩
      exact Registry.admits_some hspec (by simp [harity]) List.suffix_rfl
    · obtain ⟨t, ht, ho⟩ := ih h
      exact ⟨t, List.mem_cons_of_mem _ (List.mem_cons_of_mem _ ht), ho⟩

/-- Flags are read with specs of the registry. -/
theorem spec_mem_specs {tokens : List Text} {o : Occurrence}
    (h : o ∈ (ofTokens r tokens).occurrences) : o.spec ∈ r.specs := by
  obtain ⟨_, _, hadmits⟩ := admits_of_mem_items (mem_occurrences.mp h)
  exact hadmits.mem_specs

/-- Words are read as they stand. -/
theorem mem_tokens_of_mem_items {tokens : List Text} {text : Text}
    (h : .word text ∈ (ofTokens r tokens).items) : text ∈ tokens := by
  fun_induction ofTokens r tokens with
  | case1 => simp [empty] at h
  | case2 token rest hread =>
    have h : text ∈ rest := by simpa using h
    exact List.mem_cons_of_mem _ h
  | case3 token rest hread ih =>
    simp only [after, List.mem_append, List.mem_singleton, Item.word.injEq] at h
    rcases h with rfl | h
    · exact List.mem_cons_self
    · exact List.mem_cons_of_mem _ (ih h)
  | case4 => simp [ofFault] at h
  | case5 token rest given hread ih =>
    exact List.mem_cons_of_mem _ (ih (by simpa [after] using h))
  | case6 => simp [ofFault] at h
  | case7 => simp [ofFault] at h
  | case8 token given spec hread value rest hnames ih =>
    have h := ih (by simpa [after] using h)
    exact List.mem_cons_of_mem _ (List.mem_cons_of_mem _ h)

section Step
variable {token : Text} {given : List Occurrence} {spec : FlagSpec}

theorem ofTokens_of_word (h : r.readToken token = .word) (rest : List Text) :
    ofTokens r (token :: rest) = (ofTokens r rest).after [.word token] := by
  conv => lhs; unfold ofTokens
  simp only [h]

theorem ofTokens_of_flags (h : r.readToken token = .flags given) (rest : List Text) :
    ofTokens r (token :: rest) = (ofTokens r rest).after (given.map .flag) := by
  conv => lhs; unfold ofTokens
  simp only [h]

theorem ofTokens_of_value (h : r.readToken token = .needsValue given spec) {value : Text}
    (hvalue : ¬ r.namesFlag value = true) (rest : List Text) :
    ofTokens r (token :: value :: rest) =
      (ofTokens r rest).after (given.map .flag ++ [.flag ⟨spec, some value⟩]) := by
  conv => lhs; unfold ofTokens
  simp only [h, hvalue, Bool.false_eq_true, if_false]

/-- After the terminator everything is a word. -/
theorem ofTokens_terminator (rest : List Text) :
    ofTokens r (("--" : Text) :: rest) = ⟨rest.map .word, none⟩ := rfl

theorem words_ofTokens_terminator (rest : List Text) :
    (ofTokens r (("--" : Text) :: rest)).words = rest := by
  rw [ofTokens_terminator, words_ofWords]

theorem occurrences_ofTokens_terminator (rest : List Text) :
    (ofTokens r (("--" : Text) :: rest)).occurrences = [] := by
  rw [ofTokens_terminator, occurrences_ofWords]

end Step

/-- What comes after tokens that can be read, without a terminator among them, is read as if it
stood alone. -/
theorem ofTokens_append {tokens : List Text} (hterminator : ("--" : Text) ∉ tokens)
    (hfault : (ofTokens r tokens).fault = none) (rest : List Text) :
    ofTokens r (tokens ++ rest) = (ofTokens r rest).after (ofTokens r tokens).items := by
  fun_induction ofTokens r tokens with
  | case1 => rfl
  | case2 token tokens hread =>
    rcases r.readToken_cases token with ⟨rfl, _⟩ | hcase | hcase
    · exact absurd List.mem_cons_self hterminator
    · simp [hread] at hcase
    · simp [hread, Registry.AdmitsReading] at hcase
  | case3 token tokens hread ih =>
    have hrest := ih (fun h => hterminator (List.mem_cons_of_mem _ h)) hfault
    rw [List.cons_append, ofTokens_of_word hread, hrest, after_after]
    rfl
  | case4 => simp [ofFault] at hfault
  | case5 token tokens given hread ih =>
    have hrest := ih (fun h => hterminator (List.mem_cons_of_mem _ h)) hfault
    rw [List.cons_append, ofTokens_of_flags hread, hrest, after_after]
    rfl
  | case6 => simp [ofFault] at hfault
  | case7 => simp [ofFault] at hfault
  | case8 token given spec hread value tokens hnames ih =>
    -- The value comes with its flag: without it there would be a fault.
    have hnot : ("--" : Text) ∉ tokens := fun h =>
      hterminator (List.mem_cons_of_mem _ (List.mem_cons_of_mem _ h))
    have hrest := ih hnot hfault
    rw [List.cons_append, List.cons_append, ofTokens_of_value hread hnames, hrest, after_after]
    rfl

end Scan

end Whois

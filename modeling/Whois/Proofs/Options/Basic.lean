import Whois.Proofs.Options.Given
import Whois.Proofs.Options.Scan
import Whois.Proofs.Text.Words

/-!
What holds of the flags of every query that can be read: they occur as their specs allow, and their
values are as they stand in the query.
-/
namespace Whois.Options

variable {r : Registry} {tokens : List Text}

/-- Tokens make a query if there are not too many, each can be read, and no flag gets a second
value. -/
theorem ofTokens_eq_ok_iff {o : Options} : ofTokens r tokens = .ok o ↔
    tokens.length ≤ maxElements ∧ (Scan.ofTokens r tokens).fault = none ∧
      Given.Consistent r (Scan.ofTokens r tokens).occurrences ∧
      o = ⟨Given.collected r (Scan.ofTokens r tokens).occurrences,
        Text.trim (Text.join " " (Scan.ofTokens r tokens).words)⟩ := by
  have hos : ∀ o ∈ (Scan.ofTokens r tokens).occurrences, o.spec ∈ r.specs :=
    fun _ => Scan.spec_mem_specs
  unfold ofTokens
  split
  next hlen =>
    have hnot : ¬ tokens.length ≤ maxElements := by omega
    simp [hnot]
  next hlen =>
    have hle : tokens.length ≤ maxElements := by omega
    simp only [hle, true_and]
    generalize Scan.ofTokens r tokens = s at hos ⊢
    unfold ofScan
    constructor
    · intro h
      cases hgiven : Given.ofOccurrences s.occurrences with
      | error f => simp [hgiven, bind, Except.bind] at h
      | ok given =>
        obtain ⟨hcons, rfl⟩ := (Given.ofOccurrences_eq_ok_iff hos given).mp hgiven
        cases hfault : s.fault with
        | some f => simp [hgiven, hfault, bind, Except.bind] at h
        | none =>
          simp only [hgiven, hfault, bind, Except.bind, Except.ok.injEq] at h
          exact ⟨rfl, hcons, h.symm⟩
    · rintro ⟨hfault, hcons, rfl⟩
      rw [(Given.ofOccurrences_eq_ok_iff hos _).mpr ⟨hcons, rfl⟩]
      simp [hfault, bind, Except.bind]

theorem has_of_mem_values {o : Options} {f : Flag} {v : Text} (h : v ∈ o.values f) :
    o.has f = true := by
  unfold values at h
  unfold has
  cases hf : o.given f with
  | none => simp [hf] at h
  | some values => rfl

theorem mem_values_of_value? {o : Options} {f : Flag} {v : Text} (h : o.value? f = some v) :
    v ∈ o.values f := List.mem_of_head? h

section Read
variable {query : Text} {o : Options} {f : Flag}

/-- The values of a flag are those of its occurrences. -/
theorem mem_values_iff {os : List Occurrence} {term v : Text} (h : Given.Consistent r os) :
    v ∈ (Options.mk (Given.collected r os) term).values f ↔
      ∃ o ∈ os, o.spec.flag = f ∧ o.value = some v := by
  unfold values
  rw [Given.getD_collected, Given.mem_kept (h f), Given.mem_valuesOf]

/-- A flag that requires a value has one. -/
theorem exists_value?_of_has (h : read query = .ok o) (hf : f.standardSpec.arity = .required)
    (hhas : o.has f = true) : ∃ v, o.value? f = some v := by
  obtain ⟨_, _, hcons, rfl⟩ := ofTokens_eq_ok_iff.mp h
  obtain ⟨occurrence, hmem, rfl⟩ := Given.collected_isSome.mp hhas
  obtain ⟨token, _, hadmits⟩ := Scan.admits_of_mem_items (Scan.mem_occurrences.mp hmem)
  have harity : occurrence.spec.arity = .required := by
    rw [Registry.mem_standard.mp hadmits.mem_specs]
    exact hf
  obtain ⟨v, hv⟩ := Option.isSome_iff_exists.mp (hadmits.required harity)
  unfold value?
  rw [← Option.isSome_iff_exists, List.isSome_head?]
  exact List.ne_nil_of_mem ((mem_values_iff hcons).mpr ⟨occurrence, hmem, rfl, hv⟩)

/-- What is read from the value of a flag is there exactly if the flag is given. -/
theorem isSome_bind_value?_iff {α : Type} {readValue : Text → Option α} (h : read query = .ok o)
    (hf : f.standardSpec.arity = .required)
    (hreadable : ∀ v, o.value? f = some v → (readValue v).isSome = true) :
    ((o.value? f).bind readValue).isSome = true ↔ o.has f = true := by
  constructor
  · intro hsome
    cases hv : o.value? f with
    | none => simp [hv] at hsome
    | some v => exact has_of_mem_values (mem_values_of_value? hv)
  · intro hhas
    obtain ⟨v, hv⟩ := exists_value?_of_has h hf hhas
    rw [hv, Option.bind_some]
    exact hreadable v hv

/-- No value holds a blank. -/
theorem not_isBlank_of_mem_values (h : read query = .ok o) {v : Text} (hv : v ∈ o.values f) :
    ∀ c ∈ v, Text.isBlank c = false := by
  obtain ⟨_, _, hcons, rfl⟩ := ofTokens_eq_ok_iff.mp h
  obtain ⟨occurrence, hmem, _, hvalue⟩ := (mem_values_iff hcons).mp hv
  obtain ⟨token, htoken, hadmits⟩ := Scan.admits_of_mem_items (Scan.mem_occurrences.mp hmem)
  have hword := Text.isWord_of_mem_words htoken
  intro c hc
  exact hword.2 c ((hadmits.suffix v hvalue).subset hc)

theorem trim_of_mem_values (h : read query = .ok o) {v : Text} (hv : v ∈ o.values f) :
    Text.trim v = v := by
  have hblank := not_isBlank_of_mem_values h hv
  apply Text.trim_of_ends
  · exact fun c hc => hblank c (List.mem_of_head? hc)
  · exact fun c hc => hblank c (List.mem_of_getLast? hc)

theorem read_trim (query : Text) : read (Text.trim query) = read query := by
  unfold read
  rw [Text.words_trim]

end Read

end Whois.Options

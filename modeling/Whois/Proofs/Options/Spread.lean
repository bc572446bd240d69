import Whois.Proofs.Options.Following
import Whois.Proofs.Options.Writing

/-!
Occurrences of a repeatable flag among other tokens. Wherever they stand, the other tokens are read as
they are without them, and the flag has the values of its occurrences in their order.
-/
namespace Whois

namespace Given

/-- Puts other values in place of those of a flag, or takes the flag away. -/
def replace (g : Given) (f : Flag) (values : Option (List Text)) : Given :=
  fun f' => if f' = f then values else g f'

variable {r : Registry} {g : Given} {f f' : Flag} {o : Occurrence} {os : List Occurrence}

theorem replace_self (g : Given) (f : Flag) (values : Option (List Text)) :
    g.replace f values f = values := if_pos rfl

theorem replace_of_ne (g : Given) (values : Option (List Text)) (h : f' ≠ f) :
    g.replace f values f' = g f' := if_neg h

/-- The other flags do not tell which values were put in. -/
theorem replace_eq_replace (g : Given) (values values' : Option (List Text)) (h : f' ≠ f) :
    g.replace f values f' = g.replace f values' f' := by
  rw [replace_of_ne _ _ h, replace_of_ne _ _ h]

theorem set_replace_self (g : Given) (f : Flag) (values : Option (List Text))
    (values' : List Text) : (g.replace f values).set f values' = g.replace f (some values') := by
  funext f'
  by_cases hf : f' = f
  · rw [hf, set_self, replace_self]
  · rw [set_of_ne _ _ hf, replace_of_ne _ _ hf, replace_of_ne _ _ hf]

theorem set_replace_of_ne (g : Given) (values : Option (List Text)) (values' : List Text)
    (h : f' ≠ f) : (g.replace f values).set f' values' = (g.set f' values').replace f values := by
  funext f''
  by_cases hf : f'' = f
  · rw [hf, set_of_ne _ _ (Ne.symm h), replace_self, replace_self]
  · rw [replace_of_ne _ _ hf]
    unfold set
    rw [replace_of_ne _ _ hf]

theorem add_of_repeatable (g : Given) (h : o.spec.repeatable = true) :
    g.add o = .ok (g.set o.spec.flag ((g o.spec.flag).getD [] ++ o.value.toList)) := by
  unfold add
  dsimp only
  cases o.value with
  | none => simp
  | some value => cases (g o.spec.flag).getD [] <;> simp [h]

/-- To add a flag is not to look at the values of another. -/
theorem add_replace (g : Given) (values : Option (List Text)) (h : o.spec.flag ≠ f) :
    (g.replace f values).add o = (g.add o).map fun g' => g'.replace f values := by
  unfold add
  dsimp only
  rw [replace_of_ne _ _ h]
  simp only [set_replace_of_ne _ _ _ h]
  cases o.value with
  | none => rfl
  | some value =>
    cases (g o.spec.flag).getD [] with
    | nil => rfl
    | cons first rest =>
      dsimp only
      split
      · rfl
      · split <;> rfl

/-- The occurrences of a repeatable flag do not matter to the other flags, nor to what is wrong with
these. -/
theorem ofOccurrences_eq_map (hos : ∀ o ∈ os, o.spec ∈ r.specs) (hf : r.isRepeatable f = true) :
    ofOccurrences os = (ofOccurrences (os.filter fun o => o.spec.flag ≠ f)).map
      fun g => g.replace f (collected r os f) := by
  induction os using List.reverseRecOn with
  | nil =>
    have hnone : none.replace f (collected r [] f) = none := by
      funext f'
      simp [replace, collected, none]
    exact congrArg Except.ok hnone.symm
  | append_singleton os o ih =>
    have ih := ih fun o' ho' => hos o' (List.mem_append_left _ ho')
    have ho := Registry.isRepeatable_flag (hos o (by simp))
    rw [ofOccurrences_concat, ih, List.filter_append, collected_concat]
    by_cases hflag : o.spec.flag = f
    · subst hflag
      rw [List.filter_cons_of_neg (by simp), List.filter_nil, List.append_nil, set_self]
      cases ofOccurrences (os.filter fun o' => o'.spec.flag ≠ o.spec.flag) with
      | error fault => rfl
      | ok g =>
        show (g.replace _ _).add o = .ok (g.replace _ _)
        rw [add_of_repeatable _ (ho ▸ hf), replace_self, set_replace_self, getD_collected]
        simp only [kept, hf, if_true]
    · rw [List.filter_cons_of_pos (by simpa using hflag), List.filter_nil, ofOccurrences_concat,
        set_of_ne _ _ (Ne.symm hflag)]
      cases ofOccurrences (os.filter fun o' => o'.spec.flag ≠ f) with
      | error fault => rfl
      | ok g => exact add_replace g _ hflag

end Given

namespace Scan

variable {r : Registry} {f : Flag} {tokens : List Text}

/-- Whether an item gives a flag. -/
def gives (f : Flag) : Item → Bool
  | .word _ => false
  | .flag o => o.spec.flag = f

/-- The scan without the occurrences of a flag. -/
def beside (s : Scan) (f : Flag) : Scan := ⟨s.items.filter (!gives f ·), s.fault⟩

theorem fault_beside (s : Scan) (f : Flag) : (s.beside f).fault = s.fault := rfl

theorem words_beside (s : Scan) (f : Flag) : (s.beside f).words = s.words := by
  unfold words beside
  rw [List.filterMap_filter]
  refine List.filterMap_congr fun item _ => ?_
  cases item <;> simp [gives]

theorem occurrences_beside (s : Scan) (f : Flag) :
    (s.beside f).occurrences = s.occurrences.filter fun o => o.spec.flag ≠ f := by
  unfold occurrences beside
  rw [List.filterMap_filter, List.filter_filterMap]
  refine List.filterMap_congr fun item _ => ?_
  cases item with
  | word text => simp [gives]
  | flag o => by_cases hf : o.spec.flag = f <;> simp [gives, Option.filter, hf]

theorem beside_after (s : Scan) (items : List Item) (f : Flag) :
    (s.after items).beside f = (s.beside f).after (items.filter (!gives f ·)) := by
  simp [after, beside]

/-- What is read of some tokens and of others behind them. -/
def followedBy (s s' : Scan) : Scan :=
  match s.fault with
  | none => s'.after s.items
  | some _ => s

theorem beside_followedBy {s s' s'' : Scan} (h : s'.beside f = s''.beside f) :
    (s.followedBy s').beside f = (s.followedBy s'').beside f := by
  unfold followedBy
  cases s.fault with
  | none => rw [beside_after, beside_after, h]
  | some _ => rfl

/-- Behind a fault nothing is read. Only if a value is missing at the end, more tokens may help. -/
theorem ofTokens_append_of_fault (hawaits : awaitsValue r tokens = false)
    (hfault : (ofTokens r tokens).fault ≠ none) (rest : List Text) :
    ofTokens r (tokens ++ rest) = ofTokens r tokens := by
  fun_induction ofTokens r tokens with
  | case1 => exact absurd rfl hfault
  | case2 => exact absurd rfl hfault
  | case3 token tokens hread ih =>
    have hrest := ih (by unfold awaitsValue at hawaits; simpa only [hread] using hawaits) hfault
    rw [List.cons_append, ofTokens_of_word hread, hrest]
  | case4 token tokens f hread => rw [List.cons_append, ofTokens_of_fault hread]
  | case5 token tokens given hread ih =>
    have hrest := ih (by unfold awaitsValue at hawaits; simpa only [hread] using hawaits) hfault
    rw [List.cons_append, ofTokens_of_flags hread, hrest]
  | case6 token given spec hread => simp [awaitsValue, hread] at hawaits
  | case7 token given spec hread value tokens hnames =>
    rw [List.cons_append, List.cons_append, ofTokens_of_namesFlag hread hnames]
  | case8 token given spec hread value tokens hnames ih =>
    have hrest := ih (by simpa [awaitsValue, hread, hnames] using hawaits) hfault
    rw [List.cons_append, List.cons_append, ofTokens_of_value hread hnames, hrest]

/-- Tokens behind others are read as if they stood alone, where flags may stand. -/
theorem ofTokens_append_followedBy (hterminator : ("--" : Text) ∉ tokens)
    (hawaits : awaitsValue r tokens = false) (rest : List Text) :
    ofTokens r (tokens ++ rest) = (ofTokens r tokens).followedBy (ofTokens r rest) := by
  unfold followedBy
  cases hfault : (ofTokens r tokens).fault with
  | none => exact ofTokens_append hterminator hfault rest
  | some fault => exact ofTokens_append_of_fault hawaits (by simp [hfault]) rest

end Scan

/-- The tokens of an occurrence of a flag, and what becomes of them without it: nothing, or the flags
that share a token with it. -/
inductive Carries (r : Registry) (o : Occurrence) : (kept written : List Text) → Prop
  | alone {written : List Text} (h : Writes r [o] written) : Carries r o [] written
  | shared {os : List Occurrence} {kept written : List Text} (h : Writes r os kept)
      (h' : Writes r (os ++ [o]) written) : Carries r o kept written

/-- Tokens that are others with occurrences of a flag among them. An occurrence stands where flags
may stand, so not behind the terminator and not in place of a value. -/
inductive Spread (r : Registry) (spec : FlagSpec) : (others values tokens : List Text) → Prop
  | nil (others : List Text) : Spread r spec others [] others
  | cons {first kept written others values tokens : List Text} {v : Text}
      (hterminator : ("--" : Text) ∉ first) (hawaits : Scan.awaitsValue r first = false)
      (hcarries : Carries r ⟨spec, some v⟩ kept written)
      (hrest : Spread r spec others values tokens) :
    Spread r spec (first ++ (kept ++ others)) (v :: values) (first ++ (written ++ tokens))

variable {r : Registry} {spec : FlagSpec} {o : Occurrence}
  {kept written others values tokens : List Text}

theorem Carries.ofTokens_append (h : Carries r o kept written) : ∃ os : List Occurrence,
    (∀ rest, Scan.ofTokens r (kept ++ rest) = (Scan.ofTokens r rest).after (os.map .flag)) ∧
      ∀ rest, Scan.ofTokens r (written ++ rest) =
        (Scan.ofTokens r rest).after ((os ++ [o]).map .flag) := by
  cases h with
  | alone h => exact ⟨[], fun _ => rfl, h.ofTokens_append⟩
  | shared h h' => exact ⟨_, h.ofTokens_append, h'.ofTokens_append⟩

namespace Spread

theorem front {v : Text} (hcarries : Carries r ⟨spec, some v⟩ kept written)
    (hrest : Spread r spec others values tokens) :
    Spread r spec (kept ++ others) (v :: values) (written ++ tokens) :=
  .cons List.not_mem_nil rfl hcarries hrest

/-- The occurrences of a flag leave no trace in what is read beside them. -/
theorem beside_eq (h : Spread r spec others values tokens) :
    (Scan.ofTokens r tokens).beside spec.flag = (Scan.ofTokens r others).beside spec.flag := by
  induction h with
  | nil => rfl
  | cons hterminator hawaits hcarries hrest ih =>
    obtain ⟨os, hkept, hwritten⟩ := hcarries.ofTokens_append
    rw [Scan.ofTokens_append_followedBy hterminator hawaits,
      Scan.ofTokens_append_followedBy hterminator hawaits]
    apply Scan.beside_followedBy
    rw [hkept, hwritten, Scan.beside_after, Scan.beside_after, ih, List.map_append,
      List.filter_append]
    simp [Scan.gives]

/-- The values of a flag that is only given so are those of its occurrences. -/
theorem valuesOf_eq (h : Spread r spec others values tokens)
    (hfault : (Scan.ofTokens r tokens).fault = none)
    (hothers : ∀ o ∈ (Scan.ofTokens r others).occurrences, o.spec.flag ≠ spec.flag) :
    Given.valuesOf (Scan.ofTokens r tokens).occurrences spec.flag = values := by
  have hnone : ∀ {os : List Occurrence}, (∀ o ∈ os, o.spec.flag ≠ spec.flag) →
      Given.valuesOf os spec.flag = [] := fun hos =>
    Given.valuesOf_eq_nil fun ⟨o, ho, hflag⟩ => hos o ho hflag
  induction h with
  | nil => exact hnone hothers
  | @cons first kept written others values tokens v hterminator hawaits hcarries hrest ih =>
    obtain ⟨os, hkept, hwritten⟩ := hcarries.ofTokens_append
    rw [Scan.ofTokens_append_followedBy hterminator hawaits] at hfault hothers ⊢
    unfold Scan.followedBy at hfault hothers ⊢
    cases hfirst : (Scan.ofTokens r first).fault with
    | some fault => simp [hfirst] at hfault
    | none =>
      simp only [hfirst, hkept, hwritten, Scan.occurrences_after, Scan.occurrences_after_flags,
        List.forall_mem_append] at hfault hothers ⊢
      obtain ⟨hfirstOthers, hos, hrestOthers⟩ := hothers
      rw [Given.valuesOf_append, Given.valuesOf_append, Given.valuesOf_append, hnone hfirstOthers,
        hnone hos, ih hfault hrestOthers]
      exact congrArg (· ++ values) (Given.valuesOf_singleton_self ⟨spec, some v⟩)

end Spread

namespace Options

/-- Occurrences of a repeatable flag among other tokens are read as these tokens with the values of
the flag put in. What is wrong with the others stays wrong in the same way. -/
theorem ofTokens_of_spread (h : Spread r spec others values tokens) (hne : values ≠ [])
    (hrepeatable : r.isRepeatable spec.flag = true)
    (hothers : ∀ o ∈ (Scan.ofTokens r others).occurrences, o.spec.flag ≠ spec.flag)
    (hlength : tokens.length ≤ maxElements) :
    ofTokens r tokens = (ofScan (Scan.ofTokens r others)).map
      fun o => ⟨o.given.replace spec.flag (some values), o.searchTerm⟩ := by
  have hbeside := h.beside_eq
  have hfaults : (Scan.ofTokens r tokens).fault = (Scan.ofTokens r others).fault := by
    rw [← Scan.fault_beside _ spec.flag, hbeside, Scan.fault_beside]
  have hwords : (Scan.ofTokens r tokens).words = (Scan.ofTokens r others).words := by
    rw [← Scan.words_beside _ spec.flag, hbeside, Scan.words_beside]
  have hoccurrences : ((Scan.ofTokens r tokens).occurrences.filter fun o =>
      o.spec.flag ≠ spec.flag) = (Scan.ofTokens r others).occurrences := by
    rw [← Scan.occurrences_beside, hbeside, Scan.occurrences_beside, List.filter_eq_self]
    simpa using hothers
  rw [ofScan_ofTokens hlength]
  unfold ofScan
  rw [Given.ofOccurrences_eq_map (fun _ => Scan.spec_mem_specs) hrepeatable, hoccurrences, hfaults,
    hwords]
  cases Given.ofOccurrences (Scan.ofTokens r others).occurrences with
  | error fault => rfl
  | ok given =>
    cases hfault : (Scan.ofTokens r others).fault with
    | some fault => rfl
    | none =>
      have hvalues := h.valuesOf_eq (hfaults.trans hfault) hothers
      have hgiven : ∃ o ∈ (Scan.ofTokens r tokens).occurrences, o.spec.flag = spec.flag := by
        obtain ⟨v, hv⟩ := List.exists_mem_of_ne_nil _ hne
        obtain ⟨o, ho, hflag, _⟩ := Given.mem_valuesOf.mp (hvalues ▸ hv)
        exact ⟨o, ho, hflag⟩
      have hcollected : Given.collected r (Scan.ofTokens r tokens).occurrences spec.flag =
          some values := by
        unfold Given.collected Given.kept
        rw [if_pos hgiven, if_pos hrepeatable, hvalues]
      rw [hcollected]
      rfl

end Options

end Whois

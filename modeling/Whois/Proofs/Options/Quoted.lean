import Whois.Proofs.Options.Basic
import Whois.Proofs.Text.Lines

/-!
What the messages of faults quote. A message shows flags and numbers, and of the query itself at
most a token that names no flag, or its first letter that does not.
-/
namespace Whois

theorem Flag.isLine_render (f : Flag) : Text.IsLine f.render := by
  have hall : ∀ f ∈ Flag.all, Text.IsLine f.render := by decide +kernel
  exact hall f f.mem_all

namespace OptionFault

/-- The texts of a query that the message of a fault quotes. -/
def quoted : OptionFault → List Text
  | .unknownFlag token => [token]
  | _ => []

/-- Whether the message quotes nothing but characters of a token. -/
def QuotesFrom (token : Text) (f : OptionFault) : Prop := ∀ t ∈ f.quoted, t ⊆ token

theorem quotesFrom_of_quoted_eq_nil {f : OptionFault} (h : f.quoted = []) (token : Text) :
    f.QuotesFrom token := by
  unfold QuotesFrom
  rw [h]
  exact List.forall_mem_nil _

/-- A message is a single line if it quotes nothing but single lines. -/
theorem isLine_message {f : OptionFault} (h : ∀ t ∈ f.quoted, Text.IsLine t) :
    Text.IsLine f.message := by
  cases f with
  | tooManyElements count =>
    have hcount : Text.IsLine ("the query has " ++ Text.decimal count ++ " elements, but at most ") :=
      (Text.isLine_decimal count).enclosed (by decide) (by decide)
    have hlimit := Text.isLine_decimal maxElements
    exact (hcount.append hlimit).append (Text.isLine_literal (by decide))
  | unknownFlag token =>
    exact (Text.isLine_literal (by decide)).append (h token List.mem_cons_self)
  | missingValue flag => exact flag.isLine_render.enclosed (by decide) (by decide)
  | unexpectedValue flag => exact flag.isLine_render.enclosed (by decide) (by decide)
  | multipleValues flag => exact flag.isLine_render.enclosed (by decide) (by decide)

end OptionFault

/-- Whether a reading, if it is a fault, quotes nothing but characters of a token. -/
def Reading.QuotesFrom (token : Text) : Reading → Prop
  | .fault f => f.QuotesFrom token
  | _ => True

namespace Registry

open OptionFault (quotesFrom_of_quoted_eq_nil)

variable {r : Registry}

theorem quotesFrom_readName (body : Text) :
    (r.readName body).QuotesFrom ('-' :: '-' :: body) := by
  unfold readName
  dsimp only
  split
  next => exact List.forall_mem_singleton.mpr (List.Subset.refl _)
  next =>
    split
    next => trivial
    next => exact quotesFrom_of_quoted_eq_nil rfl _
    next => trivial
    next => exact quotesFrom_of_quoted_eq_nil rfl _
    next => trivial
    next => trivial

theorem quotesFrom_readLetters (letters : Text) :
    (r.readLetters letters).QuotesFrom ('-' :: letters) := by
  induction letters with
  | nil => trivial
  | cons c rest ih =>
    have hrest : ('-' :: rest : Text) ⊆ '-' :: c :: rest :=
      List.cons_subset_cons '-' (List.subset_cons_self c rest)
    unfold readLetters
    split
    next =>
      have hletter : ['-', c] ⊆ '-' :: c :: rest := by simp
      exact List.forall_mem_singleton.mpr hletter
    next spec _ =>
      cases spec.arity with
      | switch =>
        dsimp only
        cases hreading : r.readLetters rest with
        | fault f =>
          rw [hreading] at ih
          exact fun t ht => List.Subset.trans (ih t ht) hrest
        | _ => trivial
      | required =>
        dsimp only
        split <;> trivial
      | optional => trivial

theorem quotesFrom_readToken (token : Text) : (r.readToken token).QuotesFrom token := by
  unfold readToken
  split
  next => trivial
  next body _ => exact quotesFrom_readName body
  next c rest _ _ => exact quotesFrom_readLetters (c :: rest)
  next => trivial

end Registry

/-- The first fault quotes one of the tokens at most. -/
theorem Scan.quotesFrom_of_fault {r : Registry} {tokens : List Text} {f : OptionFault}
    (h : (ofTokens r tokens).fault = some f) : ∃ token ∈ tokens, f.QuotesFrom token := by
  fun_induction ofTokens r tokens with
  | case1 => cases h
  | case2 => cases h
  | case3 token rest hread ih =>
    obtain ⟨t, ht, hf⟩ := ih h
    exact ⟨t, List.mem_cons_of_mem _ ht, hf⟩
  | case4 token rest f' hread =>
    obtain rfl : f' = f := Option.some.inj h
    have hquotes := r.quotesFrom_readToken token
    rw [hread] at hquotes
    exact ⟨token, List.mem_cons_self, hquotes⟩
  | case5 token rest given hread ih =>
    obtain ⟨t, ht, hf⟩ := ih h
    exact ⟨t, List.mem_cons_of_mem _ ht, hf⟩
  | case6 token =>
    cases h
    exact ⟨token, List.mem_cons_self, OptionFault.quotesFrom_of_quoted_eq_nil rfl _⟩
  | case7 token =>
    cases h
    exact ⟨token, List.mem_cons_self, OptionFault.quotesFrom_of_quoted_eq_nil rfl _⟩
  | case8 token given spec hread value rest hnames ih =>
    obtain ⟨t, ht, hf⟩ := ih h
    exact ⟨t, List.mem_cons_of_mem _ (List.mem_cons_of_mem _ ht), hf⟩

namespace Given

theorem quoted_of_add {g : Given} {o : Occurrence} {f : OptionFault} (h : g.add o = .error f) :
    f.quoted = [] := by
  unfold add at h
  dsimp only at h
  split at h
  next => cases h
  next => cases h
  next =>
    split at h
    next => cases h
    next =>
      split at h
      next => cases h
      next =>
        cases h
        rfl

/-- A second value is not shown. -/
theorem quoted_of_ofOccurrences {os : List Occurrence} {f : OptionFault}
    (h : ofOccurrences os = .error f) : f.quoted = [] := by
  induction os using List.reverseRecOn with
  | nil => cases h
  | append_singleton os o ih =>
    rw [ofOccurrences_concat] at h
    cases hfirst : ofOccurrences os with
    | error f' =>
      rw [hfirst] at h
      cases h
      exact ih hfirst
    | ok g =>
      rw [hfirst] at h
      exact quoted_of_add h

end Given

namespace Options

theorem quoted_of_ofTokens {r : Registry} {tokens : List Text} {f : OptionFault}
    (h : ofTokens r tokens = .error f) : ∀ t ∈ f.quoted, ∃ token ∈ tokens, t ⊆ token := by
  intro t ht
  unfold ofTokens at h
  split at h
  next =>
    cases h
    cases ht
  next =>
    unfold ofScan at h
    cases hgiven : Given.ofOccurrences (Scan.ofTokens r tokens).occurrences with
    | error f' =>
      rw [hgiven] at h
      cases h
      rw [Given.quoted_of_ofOccurrences hgiven] at ht
      cases ht
    | ok given =>
      rw [hgiven] at h
      cases hfault : (Scan.ofTokens r tokens).fault with
      | none =>
        rw [hfault] at h
        cases h
      | some f' =>
        rw [hfault] at h
        cases h
        obtain ⟨token, htoken, hquotes⟩ := Scan.quotesFrom_of_fault hfault
        exact ⟨token, htoken, hquotes t ht⟩

/-- What is quoted of a query stands in one of its words. -/
theorem not_isBlank_of_quoted {query : Text} {f : OptionFault} (h : read query = .error f) {t : Text}
    (ht : t ∈ f.quoted) : ∀ c ∈ t, Text.isBlank c = false := by
  obtain ⟨token, htoken, hsub⟩ := quoted_of_ofTokens h t ht
  exact fun c hc => (Text.isWord_of_mem_words htoken).2 c (hsub hc)

end Options

end Whois

import Whois.Proofs.Options.Scan
import Whois.Proofs.Text.Parts

/-!
Queries of flags with search words after them.
-/
namespace Whois

/-- What does not start with a dash belongs to the search term. -/
theorem Registry.readToken_of_head?_ne {r : Registry} {t : Text} (h : t.head? ≠ some '-') :
    r.readToken t = .word := by
  unfold readToken
  split <;> simp_all

/-- A word without a dash belongs to the search term, and so does a lone dash. -/
theorem Registry.readToken_of_word {r : Registry} {t : Text}
    (h : Text.IsPlainWord t ∨ t = "-") : r.readToken t = .word := by
  rcases h with hword | rfl
  · apply readToken_of_head?_ne
    intro hhead
    exact hword.hyphen_not_mem (List.mem_of_head? hhead)
  · rfl

theorem Scan.ofTokens_of_words {r : Registry} {ws : List Text}
    (h : ∀ w ∈ ws, r.readToken w = .word) : ofTokens r ws = ⟨ws.map .word, none⟩ := by
  induction ws with
  | nil => rfl
  | cons w rest ih =>
    rw [ofTokens_of_word (h w List.mem_cons_self),
      ih fun w' hw' => h w' (List.mem_cons_of_mem _ hw')]
    rfl

namespace Options

end Options

end Whois

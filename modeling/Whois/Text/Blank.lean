import Whois.Text.Basic

/-!
Blank characters: what is trimmed from the ends of a text, and what separates words.
-/
namespace Whois.Text

/-- The characters with the Unicode property `White_Space`. -/
def isBlank (c : Char) : Bool :=
  let n := c.toNat
  decide (9 ≤ n ∧ n ≤ 13) || n == 0x20 || n == 0x85 || n == 0xA0 || n == 0x1680 ||
    decide (0x2000 ≤ n ∧ n ≤ 0x200A) || n == 0x2028 || n == 0x2029 || n == 0x202F ||
    n == 0x205F || n == 0x3000

def trimStart (t : Text) : Text := t.dropWhile isBlank

def trimEnd (t : Text) : Text := (t.reverse.dropWhile isBlank).reverse

/-- The text without the blanks at its two ends. -/
def trim (t : Text) : Text := trimEnd (trimStart t)

/-- The longest stretches that hold no blank. -/
def words (t : Text) : List Text := (splitWhere isBlank t).filter (!·.isEmpty)

theorem words_append_cons {c : Char} (h : isBlank c = true) (s t : Text) :
    words (s ++ c :: t) = words s ++ words t := by
  simp [words, splitWhere_append_cons h]

/-- A text without blanks is one word, if it is not empty. -/
theorem words_of_forall_not {t : Text} (ht : t ≠ []) (h : ∀ c ∈ t, isBlank c = false) :
    words t = [t] := by
  simp [words, splitWhere_of_forall_not h, ht]

theorem mem_words {t word : Text} (h : word ∈ words t) :
    word ≠ [] ∧ ∀ c ∈ word, isBlank c = false := by
  obtain ⟨hmem, hne⟩ := List.mem_filter.mp h
  exact ⟨by simpa using hne, not_of_mem_splitWhere hmem⟩

end Whois.Text

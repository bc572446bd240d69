import Whois.Positional
import Whois.Proofs.Text.Parts
import Whois.Text.Numeral

/-!
Numerals. What is written in the shortest form is read back, in decimal and in hexadecimal, and an
integer is read from decimal digits, with or without a sign.
-/
namespace Whois.Text

variable {t : Text} {c : Char} {n : Nat}

theorem toNat_of_isDigit (h : c.isDigit = true) : 48 ≤ c.toNat ∧ c.toNat ≤ 57 := by
  simpa [Char.isDigit, Char.le_def, UInt32.le_iff_toNat_le] using h

/-- Whether a text is a number in decimal digits. -/
def IsNumeral (digits : Text) (n : Nat) : Prop :=
  digits ≠ [] ∧ (∀ c ∈ digits, c.isDigit = true) ∧ Nat.ofDigitChars 10 digits 0 = n

theorem natural?_eq_some_iff : natural? t = some n ↔ IsNumeral t n := by
  simp [natural?, isNumeral, IsNumeral, and_assoc]

theorem isDigit_of_natural? (h : natural? t = some n) (hc : c ∈ t) : c.isDigit = true :=
  (natural?_eq_some_iff.mp h).2.1 c hc

theorem ne_nil_of_natural? (h : natural? t = some n) : t ≠ [] := (natural?_eq_some_iff.mp h).1

theorem natural?_of_below? {bound : Nat} {a : Fin bound} (h : below? bound t = some a) :
    natural? t = some a.val := by
  unfold below? at h
  obtain ⟨n, hn, h⟩ := Option.bind_eq_some_iff.mp h
  split at h
  next =>
    cases h
    exact hn
  next => cases h

theorem below?_decimal {bound : Nat} (a : Fin bound) : below? bound (decimal a.val) = some a := by
  unfold below?
  rw [natural?_decimal]
  exact dif_pos a.isLt

theorem isDigit_of_mem_decimal (hc : c ∈ decimal n) : c.isDigit = true :=
  isDigit_of_natural? (natural?_decimal n) hc

theorem decimal_ne_nil (n : Nat) : decimal n ≠ [] := ne_nil_of_natural? (natural?_decimal n)

theorem length_decimal_le_iff {k : Nat} (hk : 0 < k) : (decimal n).length ≤ k ↔ n < 10 ^ k :=
  Nat.length_toDigits_le_iff (by decide) hk

/-- Whether a text is an integer in decimal digits, with or without a sign. -/
inductive IsInteger : (t : Text) → (n : Int) → Prop
  | unsigned {digits : Text} {n : Nat} (h : IsNumeral digits n) : IsInteger digits n
  | plus {digits : Text} {n : Nat} (h : IsNumeral digits n) : IsInteger ('+' :: digits) n
  | minus {digits : Text} {n : Nat} (h : IsNumeral digits n) : IsInteger ('-' :: digits) (-n)

theorem integer?_of_head? (h : ∀ c, t.head? = some c → c.isDigit = true) :
    integer? t = (natural? t).map fun n => (n : Int) := by
  unfold integer?
  split
  · exact absurd (h '-' rfl) (by decide)
  · exact absurd (h '+' rfl) (by decide)
  · rfl

theorem integer?_eq_some_iff {n : Int} : integer? t = some n ↔ IsInteger t n := by
  constructor
  · intro h
    unfold integer? at h
    split at h
    all_goals
      obtain ⟨_, hread, rfl⟩ := Option.map_eq_some_iff.mp h
      obtain ⟨m, hm, hcast⟩ := Option.bind_eq_some_iff.mp hread
      cases hcast
      have hnumeral := natural?_eq_some_iff.mp hm
    · exact .minus hnumeral
    · exact .plus hnumeral
    · exact .unsigned hnumeral
  · intro h
    cases h with
    | unsigned h =>
      rw [integer?_of_head? fun c hc => h.2.1 c (List.mem_of_head? hc), natural?_eq_some_iff.mpr h]
      rfl
    | plus h =>
      rw [integer?, natural?_eq_some_iff.mpr h]
      rfl
    | minus h =>
      rw [integer?, natural?_eq_some_iff.mpr h]
      rfl

theorem wideInteger?_eq_some_iff {n : Int} :
    wideInteger? t = some n ↔ IsInteger t n ∧ -(2 ^ 63) ≤ n ∧ n < 2 ^ 63 := by
  unfold wideInteger?
  rw [Option.filter_eq_some_iff, integer?_eq_some_iff, decide_eq_true_iff]

theorem IsInteger.ne_nil {n : Int} (h : IsInteger t n) : t ≠ [] := by
  cases h with
  | unsigned h => exact h.1
  | _ => simp

/-- An integer is written with digits and signs only. -/
theorem IsInteger.isDigit_or_sign {n : Int} (h : IsInteger t n) (hc : c ∈ t) :
    c.isDigit = true ∨ c = '+' ∨ c = '-' := by
  cases h with
  | unsigned h => exact .inl (h.2.1 c hc)
  | plus h =>
    rcases List.mem_cons.mp hc with rfl | hc
    · exact .inr (.inl rfl)
    · exact .inl (h.2.1 c hc)
  | minus h =>
    rcases List.mem_cons.mp hc with rfl | hc
    · exact .inr (.inr rfl)
    · exact .inl (h.2.1 c hc)

theorem hexDigit?_digitChar : ∀ d : Fin 16, hexDigit? (Nat.digitChar d.val) = some d := by decide

theorem hexDigit?_of_isDigit (h : c.isDigit = true) : (hexDigit? c).isSome = true := by
  unfold hexDigit?
  rw [dif_pos (toNat_of_isDigit h)]
  rfl

theorem isBlank_of_hexDigit? (h : (hexDigit? c).isSome = true) : isBlank c = false := by
  rw [Bool.eq_false_iff]
  intro hblank
  simp only [isBlank, Bool.or_eq_true, decide_eq_true_eq, beq_iff_eq] at hblank
  unfold hexDigit? at h
  rw [dif_neg (by omega), dif_neg (by omega), dif_neg (by omega)] at h
  cases h

/-- The shortest hexadecimal numeral of a number is read back. -/
theorem mapM_hexDigit?_toDigits (n : Nat) :
    ∃ digits, (Nat.toDigits 16 n).mapM hexDigit? = some digits ∧ Positional.ofDigits digits = n := by
  induction n using Nat.strongRecOn with
  | ind n ih =>
    by_cases hlt : n < 16
    · refine ⟨[⟨n, hlt⟩], ?_, by simp [Positional.ofDigits]⟩
      rw [Nat.toDigits_of_lt_base hlt, List.mapM_cons, hexDigit?_digitChar ⟨n, hlt⟩]
      rfl
    · obtain ⟨digits, hdigits, hvalue⟩ := ih (n / 16) (by omega)
      have hlast : n % 16 < 16 := Nat.mod_lt n (by decide)
      refine ⟨digits ++ [⟨n % 16, hlast⟩], ?_, ?_⟩
      · rw [Nat.toDigits_of_base_le (by decide) (by omega), List.mapM_append, hdigits,
          List.mapM_cons, hexDigit?_digitChar ⟨n % 16, hlast⟩]
        rfl
      · rw [Positional.ofDigits_concat, hvalue]
        exact Nat.div_add_mod n 16

end Whois.Text

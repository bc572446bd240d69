import Whois.Proofs.Text.Case
import Whois.Proofs.Text.Numeral

/-!
Texts in lower case. A text is taken apart in the same way whatever its case, if what it is taken
apart at is no letter.
-/
namespace Whois.Text

variable {s t : Text} {sep : Char}

/-- Only the case of ASCII letters could make a difference. -/
theorem toLower_eq_of_ascii {α : Type} {f : Char → α}
    (h : ∀ n : Fin 128, f (Char.ofNat n).toLower = f (Char.ofNat n)) (c : Char) :
    f c.toLower = f c := by
  by_cases hc : c.toNat < 128
  · have hascii := h ⟨c.toNat, hc⟩
    rwa [Char.ofNat_toNat] at hascii
  · rw [toLower_of_le (by omega)]

theorem toLower_toLower : ∀ c : Char, c.toLower.toLower = c.toLower :=
  toLower_eq_of_ascii (by decide)

theorem isBlank_toLower : ∀ c : Char, isBlank c.toLower = isBlank c :=
  toLower_eq_of_ascii (by decide)

theorem isDigit_toLower : ∀ c : Char, c.toLower.isDigit = c.isDigit :=
  toLower_eq_of_ascii (by decide)

theorem isAlpha_toLower : ∀ c : Char, c.toLower.isAlpha = c.isAlpha :=
  toLower_eq_of_ascii (by decide)

theorem isAlphanum_toLower : ∀ c : Char, c.toLower.isAlphanum = c.isAlphanum :=
  toLower_eq_of_ascii (by decide)

theorem hexDigit?_toLower : ∀ c : Char, hexDigit? c.toLower = hexDigit? c :=
  toLower_eq_of_ascii (by decide)

theorem toLower_of_hexDigit?_of_lt : ∀ n : Fin 128,
    (hexDigit? (Char.ofNat n)).all (fun d => (Char.ofNat n).toLower == Nat.digitChar d.val) = true := by
  decide

theorem hexDigit?_eq_some_iff {c : Char} {d : Fin 16} :
    hexDigit? c = some d ↔ c.toLower = Nat.digitChar d.val := by
  constructor
  · intro h
    by_cases hc : c.toNat < 128
    · have hascii := toLower_of_hexDigit?_of_lt ⟨c.toNat, hc⟩
      rwa [Char.ofNat_toNat, h, Option.all_some, beq_iff_eq] at hascii
    · unfold hexDigit? at h
      rw [dif_neg (by omega), dif_neg (by omega), dif_neg (by omega)] at h
      cases h
  · intro h
    rw [← hexDigit?_toLower, h, hexDigit?_digitChar]

theorem toLower_of_isDigit_of_lt : ∀ n : Fin 128,
    (Char.ofNat n).isDigit = true → (Char.ofNat n).toLower = Char.ofNat n := by
  decide

theorem toLower_of_isDigit {c : Char} (h : c.isDigit = true) : c.toLower = c := by
  have hrange := toNat_of_isDigit h
  have hascii := toLower_of_isDigit_of_lt ⟨c.toNat, by omega⟩
  rw [Char.ofNat_toNat] at hascii
  exact hascii h

/-- Whether a character is no letter, so that it can separate parts of a text. -/
def IsMark (sep : Char) : Prop := ∀ c : Char, (c.toLower == sep) = (c == sep)

theorem isMark_of_ascii
    (h : ∀ n : Fin 128, ((Char.ofNat n).toLower == sep) = (Char.ofNat n == sep)) : IsMark sep :=
  toLower_eq_of_ascii (f := (· == sep)) h

theorem isMark_dot : IsMark '.' := isMark_of_ascii (by decide)

theorem isMark_colon : IsMark ':' := isMark_of_ascii (by decide)

theorem isMark_hyphen : IsMark '-' := isMark_of_ascii (by decide)

theorem isMark_slash : IsMark '/' := isMark_of_ascii (by decide)

theorem isMark_zero : IsMark '0' := isMark_of_ascii (by decide)

theorem IsMark.toLower_eq_iff (h : IsMark sep) {c : Char} : c.toLower = sep ↔ c = sep := by
  rw [← beq_iff_eq, h c, beq_iff_eq]

@[simp] theorem lower_nil : lower [] = [] := rfl

@[simp] theorem lower_cons (c : Char) (t : Text) : lower (c :: t) = c.toLower :: lower t := rfl

@[simp] theorem length_lower (t : Text) : (lower t).length = t.length := List.length_map _

@[simp] theorem isEmpty_lower (t : Text) : (lower t).isEmpty = t.isEmpty := List.isEmpty_map

theorem lower_lower (t : Text) : lower (lower t) = lower t := by
  unfold lower
  rw [List.map_map]
  apply List.map_congr_left
  exact fun c _ => toLower_toLower c

theorem alike_lower (s t : Text) : alike (lower s) t = alike s t := by
  unfold alike
  rw [lower_lower]

theorem all_lower {p : Char → Bool} (hp : ∀ c, p c.toLower = p c) (t : Text) :
    (lower t).all p = t.all p := by
  unfold lower
  rw [List.all_map]
  congr 1
  exact funext hp

theorem all_lower_of_ascii {p : Char → Bool}
    (h : ∀ n : Fin 128, p (Char.ofNat n).toLower = p (Char.ofNat n)) (t : Text) :
    (lower t).all p = t.all p :=
  all_lower (toLower_eq_of_ascii h) t

theorem contains_lower (h : IsMark sep) (t : Text) : (lower t).contains sep = t.contains sep := by
  induction t with
  | nil => rfl
  | cons c t ih => rw [lower_cons, List.contains_cons, List.contains_cons, ih, Bool.beq_comm, h c,
      Bool.beq_comm]

theorem any_head?_lower {p : Char → Bool} (hp : ∀ c, p c.toLower = p c) (t : Text) :
    (lower t).head?.any p = t.head?.any p := by
  unfold lower
  rw [List.head?_map, Option.any_map]
  congr 1
  exact funext hp

theorem any_getLast?_lower {p : Char → Bool} (hp : ∀ c, p c.toLower = p c) (t : Text) :
    (lower t).getLast?.any p = t.getLast?.any p := by
  unfold lower
  rw [List.getLast?_map, Option.any_map]
  congr 1
  exact funext hp

theorem takeWhile_lower {p : Char → Bool} (hp : ∀ c, p c.toLower = p c) (t : Text) :
    (lower t).takeWhile p = lower (t.takeWhile p) := by
  unfold lower
  rw [List.takeWhile_map]
  congr 2
  exact funext hp

theorem dropWhile_lower {p : Char → Bool} (hp : ∀ c, p c.toLower = p c) (t : Text) :
    (lower t).dropWhile p = lower (t.dropWhile p) := by
  unfold lower
  rw [List.dropWhile_map]
  congr 2
  exact funext hp

theorem head?_lower (h : IsMark sep) : (lower t).head? = some sep ↔ t.head? = some sep := by
  cases t with
  | nil => rfl
  | cons c t => simp [h.toLower_eq_iff]

theorem getLast?_lower (h : IsMark sep) : (lower t).getLast? = some sep ↔ t.getLast? = some sep := by
  unfold lower
  rw [List.getLast?_map]
  cases t.getLast? with
  | none => simp
  | some c => simp [h.toLower_eq_iff]

theorem splitWhere_lower {p : Char → Bool} (hp : ∀ c, p c.toLower = p c) (t : Text) :
    splitWhere p (lower t) = (splitWhere p t).map lower := by
  induction t with
  | nil => rfl
  | cons c t ih =>
    obtain ⟨part, parts, ht⟩ := List.exists_cons_of_ne_nil (splitWhere_ne_nil p t)
    cases hc : p c <;> simp [splitWhere, hp, hc, ih, ht]

theorem split_lower (h : IsMark sep) (t : Text) : split sep (lower t) = (split sep t).map lower :=
  splitWhere_lower (p := (· == sep)) h t

theorem words_lower (t : Text) : words (lower t) = (words t).map lower := by
  unfold words
  rw [splitWhere_lower isBlank_toLower, List.filter_map]
  congr 2
  funext part
  exact congrArg not (isEmpty_lower part)

theorem cut?_lower (h : IsMark sep) (t : Text) :
    cut? sep (lower t) = (cut? sep t).map (Prod.map lower lower) := by
  induction t with
  | nil => rfl
  | cons c t ih =>
    rw [lower_cons, cut?, cut?, ih]
    by_cases hc : c = sep
    · rw [if_pos (h.toLower_eq_iff.mpr hc), if_pos hc]
      rfl
    · rw [if_neg (mt h.toLower_eq_iff.mp hc), if_neg hc, Option.map_map, Option.map_map]
      rfl

theorem trim_lower (t : Text) : trim (lower t) = lower (trim t) := by
  unfold trim trimEnd trimStart
  rw [dropWhile_lower isBlank_toLower]
  unfold lower
  rw [← List.map_reverse, ← lower, dropWhile_lower isBlank_toLower]
  unfold lower
  rw [List.map_reverse]

theorem afterLead?_lower (lead t : Text) :
    afterLead? lead (lower t) = (afterLead? lead t).map lower := by
  induction lead generalizing t with
  | nil => rfl
  | cons c lead ih =>
    cases t with
    | nil => rfl
    | cons d t =>
      rw [lower_cons, afterLead?, afterLead?, toLower_toLower, ih]
      split <;> rfl

theorem beforeTail?_lower (tail t : Text) :
    beforeTail? tail (lower t) = (beforeTail? tail t).map lower := by
  unfold beforeTail?
  have hreverse : (lower t).reverse = lower t.reverse := (List.map_reverse ..).symm
  rw [hreverse, afterLead?_lower, Option.map_map, Option.map_map]
  congr 1
  funext rest
  exact (List.map_reverse ..).symm

theorem lower_join (sep : Text) (ts : List Text) :
    lower (join sep ts) = join (lower sep) (ts.map lower) := by
  induction ts with
  | nil => rfl
  | cons t ts ih =>
    by_cases hts : ts = []
    · rw [hts, join_singleton, List.map_singleton, join_singleton]
    · have hmap : ts.map lower ≠ [] := by simpa using hts
      rw [join_cons hts, List.map_cons, join_cons hmap, ← ih]
      simp only [lower, List.map_append]

theorem lower_joinNonempty (sep s t : Text) :
    lower (joinNonempty sep s t) = joinNonempty (lower sep) (lower s) (lower t) := by
  unfold joinNonempty
  rw [lower_join]
  cases hs : s.isEmpty <;> cases ht : t.isEmpty <;> simp [hs, ht]

/-- Texts that are alike have as many words, which are alike when joined. -/
theorem words_of_alike (h : alike s t = true) :
    (words s).length = (words t).length ∧
      lower (join " " (words s)) = lower (join " " (words t)) := by
  have hwords : (words s).map lower = (words t).map lower := by
    rw [← words_lower, ← words_lower, lower_eq_of_alike h]
  constructor
  · simpa using congrArg List.length hwords
  · rw [lower_join, lower_join, hwords]

theorem isNumeral_lower (t : Text) : isNumeral (lower t) = isNumeral t := by
  unfold isNumeral
  rw [isEmpty_lower, all_lower isDigit_toLower]

theorem lower_of_isNumeral (h : isNumeral t = true) : lower t = t := by
  obtain ⟨_, hall⟩ := Bool.and_eq_true_iff.mp h
  have hdigits : ∀ c ∈ t, c.toLower = id c :=
    fun c hc => toLower_of_isDigit (List.all_eq_true.mp hall c hc)
  exact (List.map_congr_left hdigits).trans (List.map_id t)

theorem natural?_lower (t : Text) : natural? (lower t) = natural? t := by
  cases h : isNumeral t with
  | true => rw [lower_of_isNumeral h]
  | false =>
    unfold natural?
    rw [isNumeral_lower, h]
    rfl

theorem below?_lower (bound : Nat) (t : Text) : below? bound (lower t) = below? bound t := by
  unfold below?
  rw [natural?_lower]

end Whois.Text

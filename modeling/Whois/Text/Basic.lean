/-!
Texts as lists of characters, and the ways they are taken apart and put together.
-/
namespace Whois

/-- A text is the list of its characters. -/
abbrev Text := List Char

instance : Coe String Text where
  coe := String.toList

namespace Text

/-- The stretches between the characters that satisfy `p`, the empty ones included. -/
def splitWhere (p : Char → Bool) : Text → List Text
  | [] => [[]]
  | c :: rest =>
    match p c, splitWhere p rest with
    | true, parts => [] :: parts
    | false, [] => [[c]]
    | false, part :: parts => (c :: part) :: parts

/-- The stretches between the occurrences of `sep`. -/
def split (sep : Char) (t : Text) : List Text := splitWhere (· == sep) t

/-- The pieces of a comma-separated list. Commas that enclose nothing are ignored. -/
def pieces (t : Text) : List Text := (split ',' t).filter (!·.isEmpty)

/-- What stands before and after the first `sep`. -/
def cut? (sep : Char) : Text → Option (Text × Text)
  | [] => none
  | c :: rest =>
    if c = sep then some ([], rest)
    else (cut? sep rest).map fun (before, after) => (c :: before, after)

/-- The parts one after the other, with `sep` between neighbours. -/
def join (sep : Text) (parts : List Text) : Text := sep.intercalate parts

theorem splitWhere_ne_nil (p : Char → Bool) (t : Text) : splitWhere p t ≠ [] := by
  cases t with
  | nil => simp [splitWhere]
  | cons c rest => unfold splitWhere; split <;> simp

theorem splitWhere_cons_of_pos {p : Char → Bool} {c : Char} (h : p c = true) (rest : Text) :
    splitWhere p (c :: rest) = [] :: splitWhere p rest := by
  simp [splitWhere, h]

theorem splitWhere_append_cons {p : Char → Bool} {c : Char} (h : p c = true) (s t : Text) :
    splitWhere p (s ++ c :: t) = splitWhere p s ++ splitWhere p t := by
  induction s with
  | nil => simp [splitWhere_cons_of_pos h, splitWhere]
  | cons d s ih =>
    obtain ⟨part, parts, hs⟩ := List.exists_cons_of_ne_nil (splitWhere_ne_nil p s)
    cases hd : p d <;> simp [splitWhere, hd, ih, hs]

/-- No part holds a separator. -/
theorem not_of_mem_splitWhere {p : Char → Bool} {t part : Text} (h : part ∈ splitWhere p t) :
    ∀ c ∈ part, p c = false := by
  induction t generalizing part with
  | nil => simp_all [splitWhere]
  | cons d t ih =>
    obtain ⟨first, parts, ht⟩ := List.exists_cons_of_ne_nil (splitWhere_ne_nil p t)
    cases hd : p d with
    | true =>
      rw [splitWhere_cons_of_pos hd] at h
      rcases List.mem_cons.mp h with rfl | h
      · simp
      · exact ih h
    | false =>
      simp only [splitWhere, hd, ht, List.mem_cons] at h
      rcases h with rfl | h
      · intro c hc
        rcases List.mem_cons.mp hc with rfl | hc
        · exact hd
        · exact ih (by simp [ht]) c hc
      · exact ih (by simp [ht, h])

theorem splitWhere_of_forall_not {p : Char → Bool} {t : Text} (h : ∀ c ∈ t, p c = false) :
    splitWhere p t = [t] := by
  induction t with
  | nil => rfl
  | cons c rest ih =>
    have hc := h c (by simp)
    have hr := ih fun d hd => h d (by simp [hd])
    simp [splitWhere, hc, hr]

theorem cut?_eq_some {sep : Char} {t before after : Text} (h : cut? sep t = some (before, after)) :
    t = before ++ sep :: after := by
  induction t generalizing before with
  | nil => cases h
  | cons c rest ih =>
    unfold cut? at h
    split at h
    next hc =>
      cases h
      rw [hc, List.nil_append]
    next =>
      obtain ⟨⟨before', after'⟩, hrest, heq⟩ := Option.map_eq_some_iff.mp h
      cases heq
      rw [ih hrest, List.cons_append]

end Text

end Whois

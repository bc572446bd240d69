import Mathlib.Data.String.Basic
import Whois.Proofs.Text.Lower
import Whois.Proofs.Block.Word

/-!
Texts as rows of bytes. A text is cut at a number of bytes, which has to be where a character ends. A
lead or a tail is as long in either case, so that taking it off never cuts a character.
-/
namespace Whois

open String (utf8Len)

namespace Text

variable {s t before after : Text} {n : Nat}

/-- What stands before and after the first `n` bytes, unless a character goes across. -/
def cutAt? : Nat → Text → Option (Text × Text)
  | 0, t => some ([], t)
  | _ + 1, [] => none
  | n + 1, c :: t =>
    if c.utf8Size ≤ n + 1 then
      (cutAt? (n + 1 - c.utf8Size) t).map fun (before, after) => (c :: before, after)
    else none

theorem cutAt?_append (before after : Text) :
    cutAt? (utf8Len before) (before ++ after) = some (before, after) := by
  induction before with
  | nil => simp [cutAt?]
  | cons c before ih =>
    have hpos : 0 < c.utf8Size := c.utf8Size_pos
    have hlength := String.utf8Len_cons c before
    obtain ⟨m, hm⟩ := Nat.exists_eq_add_one_of_ne_zero (by omega : utf8Len (c :: before) ≠ 0)
    have hrest : m + 1 - c.utf8Size = utf8Len before := by omega
    rw [hm, List.cons_append, cutAt?, if_pos (by omega), hrest, ih]
    rfl

theorem cutAt?_eq_some_iff :
    cutAt? n t = some (before, after) ↔ t = before ++ after ∧ utf8Len before = n := by
  constructor
  · intro h
    induction t generalizing n before with
    | nil =>
      cases n with
      | zero =>
        cases h
        exact ⟨rfl, rfl⟩
      | succ n => cases h
    | cons c t ih =>
      cases n with
      | zero =>
        cases h
        exact ⟨rfl, rfl⟩
      | succ n =>
        obtain ⟨hle, h⟩ := Option.ite_none_right_eq_some.mp h
        obtain ⟨⟨before', after'⟩, hcut, heq⟩ := Option.map_eq_some_iff.mp h
        cases heq
        obtain ⟨rfl, hlength⟩ := ih hcut
        refine ⟨rfl, ?_⟩
        rw [String.utf8Len_cons, hlength]
        omega
  · rintro ⟨rfl, rfl⟩
    exact cutAt?_append before after

theorem utf8Size_toLower : ∀ c : Char, c.toLower.utf8Size = c.utf8Size :=
  toLower_eq_of_ascii (by decide)

theorem utf8Len_lower (t : Text) : utf8Len (lower t) = utf8Len t := by
  induction t with
  | nil => rfl
  | cons c t ih => rw [lower_cons, String.utf8Len_cons, String.utf8Len_cons, ih, utf8Size_toLower]

theorem utf8Len_of_alike (h : alike s t = true) : utf8Len s = utf8Len t := by
  rw [← utf8Len_lower s, lower_eq_of_alike h, utf8Len_lower]

/-- A lead stands in the bytes that it would take up. -/
theorem afterLead?_eq_bind (lead t : Text) :
    afterLead? lead t = (cutAt? (utf8Len lead) t).bind fun (start, rest) =>
      if alike start lead then some rest else none := by
  apply Option.ext
  intro rest
  rw [Option.bind_eq_some_iff]
  constructor
  · intro h
    obtain ⟨start, rfl, halike⟩ := afterLead?_eq_some h
    refine ⟨(start, rest), ?_, if_pos halike⟩
    rw [← utf8Len_of_alike halike, cutAt?_append]
  · rintro ⟨⟨start, rest'⟩, hcut, h⟩
    obtain ⟨halike, heq⟩ := Option.ite_none_right_eq_some.mp h
    cases heq
    obtain ⟨rfl, _⟩ := cutAt?_eq_some_iff.mp hcut
    exact afterLead?_append halike rest

/-- A tail stands in the last bytes of a text, if this has as many. -/
theorem beforeTail?_eq_bind (tail t : Text) :
    beforeTail? tail t = (Word.subLength? (utf8Len t) (utf8Len tail)).bind fun length =>
      (cutAt? length t).bind fun (rest, written) =>
        if alike written tail then some rest else none := by
  apply Option.ext
  intro rest
  simp only [Option.bind_eq_some_iff]
  constructor
  · intro h
    obtain ⟨written, rfl, halike⟩ := beforeTail?_eq_some h
    refine ⟨utf8Len rest, ?_, (rest, written), cutAt?_append rest written, if_pos halike⟩
    unfold Word.subLength?
    rw [← utf8Len_of_alike halike, String.utf8Len_append, if_pos (Nat.le_add_left ..),
      Nat.add_sub_cancel]
  · rintro ⟨length, _, ⟨rest', written⟩, hcut, h⟩
    obtain ⟨halike, heq⟩ := Option.ite_none_right_eq_some.mp h
    cases heq
    obtain ⟨rfl, _⟩ := cutAt?_eq_some_iff.mp hcut
    exact beforeTail?_append halike _

end Text

namespace Word

open Text

/-- What follows a lead. The text is cut twice, the second time where it has been cut before. -/
def afterLead (lead t : Text) : Except Stop Text := do
  let (start, _) ← orRefused (cutAt? (utf8Len lead) t)
  if alike start lead then
    let (_, rest) ← orOverflow (cutAt? (utf8Len lead) t)
    return rest
  else .error .refused

/-- What precedes a tail. -/
def beforeTail (tail t : Text) : Except Stop Text := do
  let length ← orRefused (subLength? (utf8Len t) (utf8Len tail))
  let (_, written) ← orRefused (cutAt? length t)
  if alike written tail then
    let (rest, _) ← orOverflow (cutAt? length t)
    return rest
  else .error .refused

/-- A lead is taken off without cutting a character. -/
theorem afterLead_eq (lead t : Text) : afterLead lead t = orRefused (afterLead? lead t) := by
  unfold afterLead
  rw [afterLead?_eq_bind]
  cases hcut : cutAt? (utf8Len lead) t with
  | none => rfl
  | some parts =>
    simp only [orRefused, orOverflow, bind, Except.bind, pure, Except.pure, Option.bind]
    cases alike parts.1 lead <;> rfl

/-- A tail is taken off without cutting a character. -/
theorem beforeTail_eq (tail t : Text) : beforeTail tail t = orRefused (beforeTail? tail t) := by
  unfold beforeTail
  rw [beforeTail?_eq_bind]
  cases subLength? (utf8Len t) (utf8Len tail) with
  | none => rfl
  | some length =>
    cases hcut : cutAt? length t with
    | none => simp [orRefused, bind, Except.bind, hcut]
    | some parts =>
      simp only [orRefused, orOverflow, bind, Except.bind, pure, Except.pure, Option.bind, hcut]
      cases alike parts.2 tail <;> rfl

end Word

end Whois

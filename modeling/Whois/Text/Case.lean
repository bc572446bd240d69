import Whois.Text.Basic

/-!
Comparison of texts in which the case of the letters `A` to `Z` does not count. Other letters
are alike only if they are equal.
-/
namespace Whois.Text

def lower (t : Text) : Text := t.map Char.toLower

def upper (t : Text) : Text := t.map Char.toUpper

/-- Whether two texts are equal but for case. -/
def alike (s t : Text) : Bool := lower s == lower t

/-- What follows `lead` at the start of a text, whatever the case of the lead. -/
def afterLead? : (lead t : Text) → Option Text
  | [], t => some t
  | _ :: _, [] => none
  | c :: lead, d :: t => if c.toLower = d.toLower then afterLead? lead t else none

/-- What precedes `tail` at the end of a text, whatever the case of the tail. -/
def beforeTail? (tail t : Text) : Option Text :=
  (afterLead? tail.reverse t.reverse).map List.reverse

theorem afterLead?_eq_some {lead t rest : Text} (h : afterLead? lead t = some rest) :
    ∃ start, t = start ++ rest ∧ alike start lead = true := by
  induction lead generalizing t with
  | nil => exact ⟨[], by simp_all [afterLead?, alike]⟩
  | cons c lead ih =>
    cases t with
    | nil => simp [afterLead?] at h
    | cons d t =>
      simp only [afterLead?] at h
      split at h
      next hc =>
        obtain ⟨start, rfl, hs⟩ := ih h
        exact ⟨d :: start, rfl, by simp_all [alike, lower]⟩
      next => simp at h

end Whois.Text

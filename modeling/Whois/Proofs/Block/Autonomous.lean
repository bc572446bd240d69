import Whois.Block.Autonomous
import Whois.Proofs.Interval
import Whois.Proofs.Text.Case
import Whois.Proofs.Text.Numeral

/-!
AS numbers and ranges in writing. Both are read back, and neither is taken for the other.
-/
namespace Whois

namespace AsNumber

variable {t : Text} {c : Char} {n : AsNumber}

theorem read_eq_ok (h : read t = .ok n) :
    ∃ digits, Text.afterLead? "AS" t = some digits ∧ Text.natural? digits = some n.val := by
  unfold read at h
  split at h
  next => cases h
  next digits hlead =>
    split at h
    next m hdigits =>
      cases h
      exact ⟨digits, hlead, Text.natural?_of_below? hdigits⟩
    next => cases h

/-- An AS number starts with its two letters and ends with a digit. -/
theorem exists_of_read (h : read t = .ok n) : ∃ mark digits : Text, t = mark ++ digits ∧
    Text.alike mark "AS" = true ∧ digits ≠ [] ∧ ∀ c ∈ digits, c.isDigit = true := by
  obtain ⟨digits, hlead, hdigits⟩ := read_eq_ok h
  obtain ⟨mark, ht, hmark⟩ := Text.afterLead?_eq_some hlead
  exact ⟨mark, digits, ht, hmark, Text.ne_nil_of_natural? hdigits,
    fun _ => Text.isDigit_of_natural? hdigits⟩

theorem mem_of_read (h : read t = .ok n) (hc : c ∈ t) : c ∈ ("asAS" : Text) ∨ c.isDigit = true := by
  obtain ⟨mark, digits, rfl, hmark, _, hdigits⟩ := exists_of_read h
  rcases List.mem_append.mp hc with hc | hc
  · left
    have hcase : c ∈ ("as" : Text) ∨ c ∈ ("AS" : Text) := Text.mem_of_alike hmark hc
    exact List.mem_append.mpr hcase
  · exact .inr (hdigits c hc)

/-- No text without an `S` is an AS number. -/
theorem s_mem_of_read (h : read t = .ok n) : 's' ∈ t ∨ 'S' ∈ t := by
  obtain ⟨mark, digits, rfl, hmark, _, _⟩ := exists_of_read h
  have hs : 's' ∈ mark ∨ 'S' ∈ mark := Text.mem_or_toUpper_mem_of_alike hmark (by decide)
  exact hs.imp (List.mem_append_left _) (List.mem_append_left _)

/-- An AS number has no hyphen, and an AS range has one. -/
theorem hyphen_not_mem_of_read (h : read t = .ok n) : '-' ∉ t :=
  fun hc => absurd (mem_of_read h hc) (by decide)

/-- A number is read back from its written form. -/
theorem read_render (n : AsNumber) : read n.render = .ok n := by
  have hlead : Text.afterLead? "AS" n.render = some (Text.decimal n.val) := rfl
  unfold read
  rw [hlead]
  dsimp only
  rw [Text.below?_decimal]

theorem mem_render (h : c ∈ n.render) : c = 'A' ∨ c = 'S' ∨ c.isDigit = true := by
  change c ∈ 'A' :: 'S' :: Text.decimal n.val at h
  rw [List.mem_cons, List.mem_cons] at h
  exact h.imp_right (Or.imp_right Text.isDigit_of_mem_decimal)

theorem isPlainWord_render (n : AsNumber) : Text.IsPlainWord n.render := by
  refine ⟨by simp [render], ?_⟩
  intro c hc
  rcases mem_render hc with rfl | rfl | hdigit
  · decide
  · decide
  · refine ⟨Text.isBlank_of_hexDigit? (Text.hexDigit?_of_isDigit hdigit), ?_⟩
    rintro rfl
    exact absurd hdigit (by decide)

end AsNumber

namespace AsRange

/-- An AS range is two AS numbers around a hyphen, with blanks beside them. -/
theorem exists_of_read {t : Text} {r : AsRange} (h : read t = .ok r) :
    ∃ low high : Text, t = low ++ '-' :: high ∧ AsNumber.read (Text.trim low) = .ok r.lo ∧
      AsNumber.read (Text.trim high) = .ok r.hi := by
  unfold read at h
  split at h
  next => cases h
  next low high hcut =>
    refine ⟨low, high, Text.cut?_eq_some hcut, ?_⟩
    cases hlo : AsNumber.read (Text.trim low) with
    | error e =>
      rw [hlo] at h
      cases h
    | ok lo =>
      cases hhi : AsNumber.read (Text.trim high) with
      | error e =>
        rw [hlo, hhi] at h
        cases h
      | ok hi =>
        rw [hlo, hhi] at h
        dsimp only [bind, Except.bind] at h
        split at h
        next range hrange =>
          cases h
          obtain ⟨rfl, rfl⟩ := Interval.ofBounds?_eq_some_iff.mp hrange
          exact ⟨rfl, rfl⟩
        next => cases h

theorem hyphen_mem_of_read {t : Text} {r : AsRange} (h : read t = .ok r) : '-' ∈ t := by
  obtain ⟨low, high, rfl, _, _⟩ := exists_of_read h
  exact List.mem_append_right _ List.mem_cons_self

theorem mem_of_read {t : Text} {r : AsRange} (h : read t = .ok r) {c : Char} (hc : c ∈ t) :
    c ∈ ("asAS" : Text) ∨ c.isDigit = true ∨ c = '-' ∨ Text.isBlank c = true := by
  obtain ⟨low, high, rfl, hlo, hhi⟩ := exists_of_read h
  have hnumber : ∀ {s : Text} {n : AsNumber}, AsNumber.read (Text.trim s) = .ok n → c ∈ s →
      c ∈ ("asAS" : Text) ∨ c.isDigit = true ∨ c = '-' ∨ Text.isBlank c = true := by
    intro s n hn hs
    cases hblank : Text.isBlank c with
    | true => exact .inr (.inr (.inr rfl))
    | false =>
      have hcase := AsNumber.mem_of_read hn (Text.mem_trim_of_mem hs hblank)
      exact hcase.imp_right .inl
  rcases List.mem_append.mp hc with hc | hc
  · exact hnumber hlo hc
  · rcases List.mem_cons.mp hc with hc | hc
    · exact .inr (.inr (.inl hc))
    · exact hnumber hhi hc

theorem s_mem_of_read {t : Text} {r : AsRange} (h : read t = .ok r) : 's' ∈ t ∨ 'S' ∈ t := by
  obtain ⟨low, high, rfl, hlo, _⟩ := exists_of_read h
  have hs := AsNumber.s_mem_of_read hlo
  have hlow : 's' ∈ low ∨ 'S' ∈ low := hs.imp Text.mem_of_mem_trim Text.mem_of_mem_trim
  exact hlow.imp (List.mem_append_left _) (List.mem_append_left _)

theorem render_eq (r : AsRange) :
    r.render = AsNumber.render r.lo ++ " " ++ '-' :: (" " ++ AsNumber.render r.hi) := by
  unfold render
  simp

/-- A range is read back from its written form. -/
theorem read_render (r : AsRange) : read r.render = .ok r := by
  have hlo := AsNumber.isPlainWord_render r.lo
  have hhi := AsNumber.isPlainWord_render r.hi
  have hhyphen : '-' ∉ AsNumber.render r.lo ++ " " := by
    simp [hlo.hyphen_not_mem]
  have hbounds : Interval.ofBounds? r.lo r.hi = some r :=
    Interval.ofBounds?_eq_some_iff.mpr ⟨rfl, rfl⟩
  unfold read
  rw [render_eq, Text.cut?_append_cons hhyphen]
  dsimp only
  rw [Text.trim_append_space hlo.isWord.2, Text.trim_space_append hhi.isWord.2,
    AsNumber.read_render, AsNumber.read_render]
  dsimp only [bind, Except.bind]
  rw [hbounds]

/-- A range in writing without the blanks around its hyphen. -/
def renderCompact (r : AsRange) : Text := AsNumber.render r.lo ++ "-" ++ AsNumber.render r.hi

theorem renderCompact_eq (r : AsRange) :
    r.renderCompact = AsNumber.render r.lo ++ '-' :: AsNumber.render r.hi := by
  unfold renderCompact
  simp

theorem read_renderCompact (r : AsRange) : read r.renderCompact = .ok r := by
  have hlo := AsNumber.isPlainWord_render r.lo
  have hhi := AsNumber.isPlainWord_render r.hi
  have hbounds : Interval.ofBounds? r.lo r.hi = some r :=
    Interval.ofBounds?_eq_some_iff.mpr ⟨rfl, rfl⟩
  unfold read
  rw [renderCompact_eq, Text.cut?_append_cons hlo.hyphen_not_mem]
  dsimp only
  rw [Text.trim_of_forall_not hlo.isWord.2, Text.trim_of_forall_not hhi.isWord.2,
    AsNumber.read_render, AsNumber.read_render]
  dsimp only [bind, Except.bind]
  rw [hbounds]

theorem mem_renderCompact {r : AsRange} {c : Char} (h : c ∈ r.renderCompact) :
    c = 'A' ∨ c = 'S' ∨ c = '-' ∨ c.isDigit = true := by
  rw [renderCompact_eq, List.mem_append, List.mem_cons] at h
  rcases h with h | rfl | h
  · exact (AsNumber.mem_render h).imp_right (Or.imp_right .inr)
  · exact .inr (.inr (.inl rfl))
  · exact (AsNumber.mem_render h).imp_right (Or.imp_right .inr)

theorem isWord_renderCompact (r : AsRange) : Text.IsWord r.renderCompact := by
  refine ⟨List.cons_ne_nil _ _, ?_⟩
  intro c hc
  rcases mem_renderCompact hc with rfl | rfl | rfl | hdigit
  · decide
  · decide
  · decide
  · exact Text.isBlank_of_hexDigit? (Text.hexDigit?_of_isDigit hdigit)

theorem words_render (r : AsRange) :
    Text.words r.render = [AsNumber.render r.lo, "-", AsNumber.render r.hi] :=
  Text.words_hyphenated (AsNumber.isPlainWord_render r.lo).isWord
    (AsNumber.isPlainWord_render r.hi).isWord

theorem join_words_render (r : AsRange) : Text.join " " (Text.words r.render) = r.render := by
  rw [words_render, render]
  simp [Text.join_cons, Text.join_singleton]

end AsRange

end Whois

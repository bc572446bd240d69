import Whois.Proofs.Text.Numeral
import Whois.Version

/-!
The values that are accepted as a version of an object, and as two versions to compare.
-/
namespace Whois

/-- Whether a value is a version in writing, perhaps with blanks around it. -/
def IsVersion (value : Text) (n : Nat) : Prop :=
  Text.IsInteger (Text.trim value) n ∧ 1 ≤ n ∧ n ≤ 2 ^ 32 - 1

/-- Whether a value is two versions in writing. There may be more colons between them than the one
that is needed, and others around the two. -/
def IsVersionPair (value : Text) (m n : Nat) : Prop :=
  ∃ (first second : Text) (i j k : Nat), IsVersion first m ∧ IsVersion second n ∧
    value = List.replicate i ':' ++ first ++ List.replicate (j + 1) ':' ++ second ++
      List.replicate k ':'

variable {value first second : Text} {m n : Nat}

theorem IsVersion.ne_nil (h : IsVersion value n) : value ≠ [] := by
  rintro rfl
  exact h.1.ne_nil rfl

theorem IsVersion.colon_not_mem (h : IsVersion value n) : ':' ∉ value := by
  intro hcolon
  have htrim := Text.mem_trim_of_mem hcolon (by decide)
  exact absurd (h.1.isDigit_or_sign htrim) (by decide)

namespace Version

/-- Numbers in range fit in 64 bits. -/
theorem wideInteger?_trim_iff : (Text.wideInteger? (Text.trim value) = some (n : Int) ∧ 1 ≤ n ∧
    n < bound) ↔ IsVersion value n := by
  unfold IsVersion bound
  rw [Text.wideInteger?_eq_some_iff]
  constructor
  · rintro ⟨⟨hinteger, _⟩, hpos, hlt⟩
    exact ⟨hinteger, hpos, by omega⟩
  · rintro ⟨hinteger, hpos, hle⟩
    exact ⟨⟨hinteger, by omega, by omega⟩, hpos, by omega⟩

theorem read_eq_ok_iff : read value = .ok n ↔ IsVersion value n := by
  rw [← wideInteger?_trim_iff]
  unfold read
  constructor
  · intro h
    split at h
    next => cases h
    next a ha =>
      split_ifs at h with hpos hlt
      cases h
      have hcast : (a.toNat : Int) = a := Int.toNat_of_nonneg (by omega)
      exact ⟨by rw [ha, hcast], by omega, by omega⟩
  · rintro ⟨hread, hpos, hlt⟩
    rw [hread]
    dsimp only
    rw [if_neg (by omega), if_pos (by omega), Int.toNat_natCast]

theorem integers?_eq_some_iff {a b : Int} : integers? value = some (a, b) ↔
    ∃ first second, Text.filled ':' value = [first, second] ∧
      Text.wideInteger? (Text.trim first) = some a ∧
      Text.wideInteger? (Text.trim second) = some b := by
  unfold integers?
  constructor
  · intro h
    split at h
    next first second hparts =>
      obtain ⟨a', ha, h⟩ := Option.bind_eq_some_iff.mp h
      obtain ⟨b', hb, h⟩ := Option.bind_eq_some_iff.mp h
      cases h
      exact ⟨first, second, hparts, ha, hb⟩
    next => cases h
  · rintro ⟨first, second, hparts, ha, hb⟩
    unfold Text.filled at hparts
    rw [hparts]
    simp [ha, hb]

theorem isVersionPair_iff : IsVersionPair value m n ↔
    ∃ first second, Text.filled ':' value = [first, second] ∧ IsVersion first m ∧
      IsVersion second n := by
  constructor
  · rintro ⟨first, second, i, j, k, hfirst, hsecond, hvalue⟩
    refine ⟨first, second, Text.filled_eq_pair_iff.mpr ?_, hfirst, hsecond⟩
    exact ⟨⟨hfirst.ne_nil, hfirst.colon_not_mem⟩, ⟨hsecond.ne_nil, hsecond.colon_not_mem⟩,
      i, j, k, hvalue⟩
  · rintro ⟨first, second, hparts, hfirst, hsecond⟩
    obtain ⟨_, _, i, j, k, hvalue⟩ := Text.filled_eq_pair_iff.mp hparts
    exact ⟨first, second, i, j, k, hfirst, hsecond, hvalue⟩

theorem readPair_eq_ok_iff : readPair value = .ok (m, n) ↔ IsVersionPair value m n ∧ m ≠ n := by
  rw [isVersionPair_iff]
  unfold readPair
  constructor
  · intro h
    split at h
    next => cases h
    next a b hab =>
      split_ifs at h with hpos heq hlt
      cases h
      have ha : (a.toNat : Int) = a := Int.toNat_of_nonneg (by omega)
      have hb : (b.toNat : Int) = b := Int.toNat_of_nonneg (by omega)
      obtain ⟨first, second, hparts, hfirst, hsecond⟩ := integers?_eq_some_iff.mp hab
      rw [← ha] at hfirst
      rw [← hb] at hsecond
      refine ⟨⟨first, second, hparts, ?_, ?_⟩, by omega⟩
      · exact wideInteger?_trim_iff.mp ⟨hfirst, by omega, by omega⟩
      · exact wideInteger?_trim_iff.mp ⟨hsecond, by omega, by omega⟩
  · rintro ⟨⟨first, second, hparts, hfirst, hsecond⟩, hne⟩
    obtain ⟨ha, hapos, halt⟩ := wideInteger?_trim_iff.mpr hfirst
    obtain ⟨hb, hbpos, hblt⟩ := wideInteger?_trim_iff.mpr hsecond
    rw [integers?_eq_some_iff.mpr ⟨first, second, hparts, ha, hb⟩]
    dsimp only
    rw [if_neg (by omega), if_neg (by omega), if_pos (by omega), Int.toNat_natCast,
      Int.toNat_natCast]

/-- A version to show is a number in range, and versions to compare are two different ones with
colons between them. -/
theorem accepted_iff :
    (∀ value n, read value = .ok n ↔ IsVersion value n) ∧
      ∀ value m n, readPair value = .ok (m, n) ↔ IsVersionPair value m n ∧ m ≠ n :=
  ⟨fun _ _ => read_eq_ok_iff, fun _ _ _ => readPair_eq_ok_iff⟩

/-- Two colons separate two versions as well as one does. -/
theorem readPair_two_colons : readPair "1::2" = .ok (1, 2) ∧
    ¬ ∃ first second, IsVersion first 1 ∧ IsVersion second 2 ∧
      ("1::2" : Text) = first ++ ':' :: second := by
  refine ⟨by decide +kernel, ?_⟩
  rintro ⟨first, second, hfirst, hsecond, hvalue⟩
  have hsplit : Text.split ':' "1::2" = [first, second] := by
    rw [hvalue, Text.split_append_cons, Text.split_of_not_mem hfirst.colon_not_mem,
      Text.split_of_not_mem hsecond.colon_not_mem]
    rfl
  have hlength : (Text.split ':' "1::2").length = 2 := by
    rw [hsplit]
    rfl
  exact absurd hlength (by decide)

end Version

end Whois

import Whois.Text.Blank
import Whois.Text.Numeral

/-!
Versions of an object, counted from 1: one to show, or two to compare.
-/
namespace Whois

inductive VersionFault where
  | noNumber
  | notPositive
  | tooLarge
  | noPair
  | pairNotPositive
  | pairEqual
  | pairTooLarge
  deriving DecidableEq, Repr

def VersionFault.message : VersionFault → Text
  | .noNumber => "version flag number must be a number"
  | .notPositive => "version flag number must be greater than 0"
  | .tooLarge => "version flag number is too large"
  | .noPair => "diff versions must be in the format a:b"
  | .pairNotPositive => "diff version number must be greater than 0"
  | .pairEqual => "diff versions are the same"
  | .pairTooLarge => "diff version number is too large"

namespace Version

/-- Versions are smaller than this. -/
def bound : Nat := 2 ^ 32

/-- The number of a version, which has to fit in 64 bits to count as a number. -/
def read (t : Text) : Except VersionFault Nat :=
  match Text.wideInteger? (Text.trim t) with
  | none => .error .noNumber
  | some n =>
    if n < 1 then .error .notPositive
    else if n < bound then .ok n.toNat
    else .error .tooLarge

theorem read_eq_ok {t : Text} {n : Nat} (h : read t = .ok n) : 1 ≤ n ∧ n < bound := by
  unfold read at h
  split at h
  · cases h
  · split at h
    · cases h
    · split at h
      · cases h
        omega
      · cases h

/-- The two numbers around a colon. Colons that enclose nothing are ignored. -/
def integers? (t : Text) : Option (Int × Int) :=
  match (Text.split ':' t).filter (!·.isEmpty) with
  | [a, b] => do
    let a ← Text.wideInteger? (Text.trim a)
    let b ← Text.wideInteger? (Text.trim b)
    some (a, b)
  | _ => none

/-- Two different versions. -/
def readPair (t : Text) : Except VersionFault (Nat × Nat) :=
  match integers? t with
  | none => .error .noPair
  | some (a, b) =>
    if a < 1 ∨ b < 1 then .error .pairNotPositive
    else if a = b then .error .pairEqual
    else if a < bound ∧ b < bound then .ok (a.toNat, b.toNat)
    else .error .pairTooLarge

theorem readPair_eq_ok {t : Text} {m n : Nat} (h : readPair t = .ok (m, n)) :
    1 ≤ m ∧ 1 ≤ n ∧ m ≠ n := by
  unfold readPair at h
  split at h
  · cases h
  · split at h
    · cases h
    · split at h
      · cases h
      · split at h
        · cases h
          omega
        · cases h

end Version

end Whois

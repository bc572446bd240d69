import Whois.Proofs.Block.Ends
import Whois.Proofs.Text.Bytes

/-!
The ends of the block that a reverse-DNS name delegates, computed on words from the bytes of its labels:
the values of the digits, the place of the leftmost label, the shifts and the bits that are left. What
comes out are the ends of the block, and no step overflows.
-/
namespace Whois

namespace Word

variable {w k total base : Nat}

/-- A sum that fits. -/
def add? (a b : BitVec w) : Option (BitVec w) :=
  if a.toNat + b.toNat < 2 ^ w then some (a + b) else none

/-- The value of a letter from `a` on, which stands for ten. -/
def letterValue (a letter : BitVec 8) : Except Stop (BitVec 8) := do
  let place ← orOverflow (sub? letter a)
  orOverflow (add? place 10#8)

/-- The value of a hexadecimal digit of either case. -/
def hexDigit (byte : BitVec 8) : Except Stop (BitVec 8) :=
  if 48#8 ≤ byte ∧ byte ≤ 57#8 then orOverflow (sub? byte 48#8)
  else if 65#8 ≤ byte ∧ byte ≤ 70#8 then letterValue 65#8 byte
  else if 97#8 ≤ byte ∧ byte ≤ 102#8 then letterValue 97#8 byte
  else .error .refused

/-- The value of a label of one byte. -/
def nibble : Text → Except Stop Nat
  | [c] =>
    if c.utf8Size = 1 then (hexDigit (BitVec.ofNat 8 c.toNat)).map BitVec.toNat
    else .error .refused
  | _ => .error .refused

theorem hexDigit_of_ascii : ∀ n : Fin 128, (hexDigit (BitVec.ofNat 8 n.val)).map BitVec.toNat =
    orRefused ((Text.hexDigit? (Char.ofNat n.val)).map Fin.val) := by
  decide

/-- The characters of one byte are those of ASCII. -/
theorem utf8Size_eq_one_iff_toNat_lt {c : Char} : c.utf8Size = 1 ↔ c.toNat < 128 := by
  rw [Char.utf8Size_eq_one_iff, UInt32.le_iff_toNat_le]
  exact Nat.lt_succ_iff.symm

theorem hexDigit?_eq_none_of_le {c : Char} (h : 128 ≤ c.toNat) : Text.hexDigit? c = none := by
  unfold Text.hexDigit?
  dsimp only
  rw [dif_neg (by omega), dif_neg (by omega), dif_neg (by omega)]

theorem nibble_eq (label : Text) :
    nibble label = orRefused ((ReverseName.nibble? label).map Fin.val) := by
  match label with
  | [] => rfl
  | [c] =>
    change (if c.utf8Size = 1 then _ else _) = orRefused ((Text.hexDigit? c).map Fin.val)
    by_cases hc : c.toNat < 128
    · have hascii := hexDigit_of_ascii ⟨c.toNat, hc⟩
      rw [Char.ofNat_toNat] at hascii
      rw [if_pos (utf8Size_eq_one_iff_toNat_lt.mpr hc), hascii]
    · rw [if_neg (mt utf8Size_eq_one_iff_toNat_lt.mp hc), hexDigit?_eq_none_of_le (by omega)]
      rfl
  | _ :: _ :: _ => rfl

/-- Two words with the values put after them that are read from labels, the least and the greatest of
each. Of `count` labels the leftmost is read last, and `i` have been read before. -/
def pushLabels (k : Nat) (read : Bool → Text → Except Stop (Nat × Nat)) (count : Nat) :
    Nat → List Text → BitVec w × BitVec w → Except Stop (BitVec w × BitVec w)
  | _, [], words => .ok words
  | i, label :: labels, (lo, hi) => do
    let last ← orOverflow (subLength? count 1)
    let (low, high) ← read (i == last) label
    let lo ← push k lo low
    let hi ← push k hi high
    pushLabels k read count (i + 1) labels (lo, hi)

/-- The ends from one word of `count` values to another, after the bits that are left are filled. -/
def fillEnds (k total count : Nat) (lo hi : BitVec w) : Except Stop (Ends w) := do
  let missing ← orOverflow (subLength? total count)
  let mask ← lowOnes (k * missing)
  let lo ← shiftLeftOrZero lo (k * missing)
  let hi ← shiftLeftOrZero hi (k * missing)
  Ends.ofBounds lo (hi ||| mask)

/-- The ends of the block with the given labels, leftmost first. -/
def endsOfLabels (k total : Nat) (read : Bool → Text → Except Stop (Nat × Nat))
    (labels : List Text) : Except Stop (Ends w) :=
  if total < labels.length then .error .refused
  else do
    let (lo, hi) ← pushLabels k read labels.length 0 labels.reverse (0#w, 0#w)
    fillEnds k total labels.length lo hi

theorem fillEnds_eq (k total count : Nat) (lo hi : BitVec w) :
    fillEnds k total count lo hi = (fill k total count lo hi).map Ends.ofBlock := by
  unfold fillEnds fill
  cases subLength? total count with
  | none => rfl
  | some missing =>
    simp only [orOverflow, bind, Except.bind, Ends.ofBounds_eq, ← map_orRefused]
    cases (lowOnes (k * missing) : Except Stop (BitVec w)) with
    | error stop => rfl
    | ok mask =>
      cases shiftLeftOrZero lo (k * missing) with
      | error stop => rfl
      | ok lo => cases shiftLeftOrZero hi (k * missing) <;> rfl

section Read
variable {read : Bool → Text → Except Stop (Nat × Nat)}
  {read? : Bool → Text → Option (Fin base × Fin base)}
  (hread : ∀ last label,
    read last label = orRefused ((read? last label).map (Prod.map Fin.val Fin.val)))
include hread

/-- The last label is told by its place. -/
theorem pushLabels_eq {labels : List Text} {count i : Nat} (h : count = i + labels.length)
    (words : BitVec w × BitVec w) :
    pushLabels k read count i labels words = pushAll k read? labels words := by
  induction labels generalizing i words with
  | nil => rfl
  | cons label labels ih =>
    rw [List.length_cons] at h
    have hlast : subLength? count 1 = some (i + labels.length) := by
      unfold subLength?
      rw [if_pos (by omega)]
      congr 1
      omega
    have hplace : (i == i + labels.length) = labels.isEmpty := by
      cases labels <;> simp
    have hrest := fun words => ih (i := i + 1) (by omega) words
    rw [pushLabels, pushAll, hlast]
    simp only [orOverflow, bind, Except.bind, hplace, hread, hrest]
    cases read? labels.isEmpty label <;> rfl

theorem endsOfLabels_eq (k total : Nat) (labels : List Text) :
    (endsOfLabels k total read labels : Except Stop (Ends w)) =
      (ofLabels k total read? labels).map Ends.ofBlock := by
  unfold endsOfLabels ofLabels
  have hcount : labels.length = 0 + labels.reverse.length := by simp
  by_cases hlabels : total < labels.length
  · rw [if_pos hlabels, if_pos hlabels]
    rfl
  · rw [if_neg hlabels, if_neg hlabels, pushLabels_eq hread hcount]
    cases pushAll k read? labels.reverse (0#w, 0#w) with
    | error stop => rfl
    | ok words => exact fillEnds_eq ..

end Read

end Word

namespace ReverseName

open Word

def octetValues (last : Bool) (label : Text) : Except Stop (Nat × Nat) :=
  orRefused ((octetPair? last label).map (Prod.map Fin.val Fin.val))

def nibbleValues (label : Text) : Except Stop (Nat × Nat) := do
  let value ← nibble label
  return (value, value)

/-- The ends of the IPv4 block with the given labels. -/
def endsV4 (labels : List Text) : Except Stop (Ends 32) := endsOfLabels 8 4 octetValues labels

/-- The ends of the IPv6 block with the given labels. -/
def endsV6 (labels : List Text) : Except Stop (Ends 128) :=
  endsOfLabels 4 32 (fun _ => nibbleValues) labels

theorem endsV4_eq {labels : List Text} (h : labels ≠ []) :
    endsV4 labels = orRefused ((blockV4? labels).map Ends.ofBlock) := by
  obtain ⟨label, parents, rfl⟩ := List.exists_cons_of_ne_nil h
  rw [← map_orRefused, ← ofLabels_octetPair?]
  exact endsOfLabels_eq (fun _ _ => rfl) ..

theorem endsV6_eq (labels : List Text) :
    endsV6 labels = orRefused ((blockV6? labels).map Ends.ofBlock) := by
  rw [← map_orRefused, ← ofLabels_nibblePair?]
  apply endsOfLabels_eq
  intro _ label
  unfold nibbleValues nibblePair?
  rw [nibble_eq]
  cases nibble? label <;> rfl

end ReverseName

end Whois

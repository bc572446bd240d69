import Whois.Proofs.Block.Reverse
import Whois.Proofs.Block.Word

/-!
Reverse-DNS names read on machine words. The digits of the labels are shifted in one after the other,
and the bits that are left are filled. No step overflows, no bit is shifted out, and what comes out is
the block that the name delegates.
-/
namespace Whois

namespace Word

variable {w k n m d len : Nat}

/-- A shift to the left by less than the width that loses no bit. -/
def shiftLeft (a : BitVec w) (k : Nat) : Except Stop (BitVec w) :=
  if k < w ∧ a.toNat < 2 ^ (w - k) then .ok (a <<< k) else .error .overflow

/-- A shift to the left, to zero where it is by the width. -/
def shiftLeftOrZero (a : BitVec w) (k : Nat) : Except Stop (BitVec w) :=
  if k < w then shiftLeft a k else .ok 0#w

/-- The word with `k` ones at its end. -/
def lowOnes (k : Nat) : Except Stop (BitVec w) :=
  if k < w then do
    let next ← shiftLeft 1#w k
    orOverflow (sub? next 1#w)
  else .ok (BitVec.allOnes w)

/-- A digit of `k` bits put after a word. -/
def push (k : Nat) (a : BitVec w) (d : Nat) : Except Stop (BitVec w) := do
  let a ← shiftLeft a k
  return a ||| BitVec.ofNat w d

theorem toNat_ofNat_of_lt (hlen : len ≤ w) (h : n < 2 ^ len) : (BitVec.ofNat w n).toNat = n := by
  rw [BitVec.toNat_ofNat]
  exact Nat.mod_eq_of_lt (Nat.lt_of_lt_of_le h (Nat.pow_le_pow_right (by decide) hlen))

theorem shiftLeft_ofNat (hk : k < w) (h : n < 2 ^ (w - k)) :
    shiftLeft (BitVec.ofNat w n) k = .ok (BitVec.ofNat w (n * 2 ^ k)) := by
  have hn := toNat_ofNat_of_lt (Nat.sub_le w k) h
  unfold shiftLeft
  rw [hn, if_pos ⟨hk, h⟩]
  congr 1
  apply BitVec.eq_of_toNat_eq
  rw [BitVec.toNat_shiftLeft, hn, Nat.shiftLeft_eq, BitVec.toNat_ofNat]

theorem shiftLeftOrZero_ofNat (hw : 0 < w) (hlen : len ≤ w) (h : n < 2 ^ len) :
    shiftLeftOrZero (BitVec.ofNat w n) (w - len) = .ok (BitVec.ofNat w (n * 2 ^ (w - len))) := by
  unfold shiftLeftOrZero
  by_cases hzero : len = 0
  · subst hzero
    have hn : n = 0 := Nat.lt_one_iff.mp h
    rw [if_neg (by omega), hn, Nat.zero_mul]
  · have hback : w - (w - len) = len := by omega
    rw [if_pos (by omega)]
    exact shiftLeft_ofNat (by omega) (hback.symm ▸ h)

theorem lowOnes_eq (hk : k ≤ w) :
    lowOnes k = .ok (BitVec.ofNat w (2 ^ k - 1)) := by
  unfold lowOnes
  by_cases hlt : k < w
  · have hpos : 0 < 2 ^ k := Nat.two_pow_pos k
    have hpow : 2 ^ k < 2 ^ w := Nat.pow_lt_pow_right (by decide) hlt
    have hone : 1 < 2 ^ (w - k) := Nat.one_lt_two_pow (by omega)
    have hle : 1#w ≤ BitVec.ofNat w (1 * 2 ^ k) := by
      rw [BitVec.le_def, toNat_ofNat_of_lt (Nat.le_refl w) (by omega),
        toNat_ofNat_of_lt (Nat.le_refl w) (by omega)]
      omega
    have hsub : BitVec.ofNat w (1 * 2 ^ k) - 1#w = BitVec.ofNat w (2 ^ k - 1) := by
      apply BitVec.eq_of_toNat_eq
      rw [BitVec.toNat_sub_of_le hle, toNat_ofNat_of_lt (Nat.le_refl w) (by omega),
        toNat_ofNat_of_lt (Nat.le_refl w) (by omega),
        toNat_ofNat_of_lt (Nat.le_refl w) (by omega), Nat.one_mul]
    rw [if_pos hlt, shiftLeft_ofNat hlt hone]
    change orOverflow (if 1#w ≤ BitVec.ofNat w (1 * 2 ^ k) then _ else none) = _
    rw [if_pos hle, hsub]
    rfl
  · have heq : k = w := by omega
    have hpow : 0 < 2 ^ w := Nat.two_pow_pos w
    rw [if_neg hlt, heq]
    congr 1
    apply BitVec.eq_of_toNat_eq
    rw [BitVec.toNat_allOnes, toNat_ofNat_of_lt (Nat.le_refl w) (by omega)]

theorem push_ofNat (hk : k < w) (h : n < 2 ^ (w - k)) (hd : d < 2 ^ k) :
    push k (BitVec.ofNat w n) d = .ok (BitVec.ofNat w (2 ^ k * n + d)) := by
  unfold push
  rw [shiftLeft_ofNat hk h, Nat.two_pow_add_eq_or_of_lt hd, BitVec.ofNat_or, Nat.mul_comm (2 ^ k)]
  rfl

section Labels
variable {base total : Nat} {read : Bool → Text → Option (Fin base × Fin base)}

/-- What is read from texts one by one, where `read` is told which of them is the last. -/
def readAll {α : Type} (read : Bool → Text → Option α) : List Text → Option (List α)
  | [] => some []
  | t :: ts => do
    let a ← read ts.isEmpty t
    let rest ← readAll read ts
    some (a :: rest)

/-- Two words with the digits put after them that are read from texts, two at a time. -/
def pushAll (k : Nat) (read : Bool → Text → Option (Fin base × Fin base)) :
    List Text → BitVec w × BitVec w → Except Stop (BitVec w × BitVec w)
  | [], words => .ok words
  | t :: ts, (lo, hi) => do
    let (low, high) ← orRefused (read ts.isEmpty t)
    let lo ← push k lo low.val
    let hi ← push k hi high.val
    pushAll k read ts (lo, hi)

/-- The block from one word of `count` digits, filled with zeros, to another, filled with ones. -/
def fill (k total count : Nat) (lo hi : BitVec w) : Except Stop (Block w) := do
  let missing ← orOverflow (subLength? total count)
  let mask ← lowOnes (k * missing)
  let lo ← shiftLeftOrZero lo (k * missing)
  let hi ← shiftLeftOrZero hi (k * missing)
  orRefused (block? lo (hi ||| mask))

/-- The block with the given labels, leftmost first, of which there are `total` at most. -/
def ofLabels (k total : Nat) (read : Bool → Text → Option (Fin base × Fin base))
    (labels : List Text) : Except Stop (Block w) :=
  if total < labels.length then .error .refused
  else do
    let (lo, hi) ← pushAll k read labels.reverse (0#w, 0#w)
    fill k total labels.length lo hi

theorem length_of_readAll {α : Type} {read : Bool → Text → Option α} {ts : List Text}
    {items : List α} (h : readAll read ts = some items) : items.length = ts.length := by
  induction ts generalizing items with
  | nil =>
    cases h
    rfl
  | cons t ts ih =>
    obtain ⟨a, _, h⟩ := Option.bind_eq_some_iff.mp h
    obtain ⟨rest, hrest, hcons⟩ := Option.bind_eq_some_iff.mp h
    cases hcons
    rw [List.length_cons, List.length_cons, ih hrest]

theorem readAll_const {α : Type} (read : Text → Option α) (ts : List Text) :
    readAll (fun _ => read) ts = ts.mapM read := by
  induction ts with
  | nil => rfl
  | cons t ts ih =>
    rw [readAll, ih, List.mapM_cons]
    rfl

theorem readAll_concat {α : Type} (read : Bool → Text → Option α) (ts : List Text) (t : Text) :
    readAll read (ts ++ [t]) =
      (ts.mapM (read false)).bind fun items => (read true t).map fun a => items ++ [a] := by
  induction ts with
  | nil =>
    change (read true t).bind _ = (read true t).map _
    cases read true t <;> rfl
  | cons t' ts ih =>
    have hmore : (ts ++ [t]).isEmpty = false := by simp
    rw [List.cons_append, readAll, hmore, ih, List.mapM_cons]
    cases read false t' with
    | none => rfl
    | some a =>
      cases ts.mapM (read false) with
      | none => rfl
      | some items => cases read true t <;> rfl

theorem push_lt {j : Nat} (hn : n < 2 ^ (k * j)) (hd : d < 2 ^ k) :
    2 ^ k * n + d < 2 ^ (k * (j + 1)) := by
  have hmul : 2 ^ k * (n + 1) ≤ 2 ^ k * 2 ^ (k * j) := Nat.mul_le_mul_left _ hn
  have hpow : 2 ^ (k * (j + 1)) = 2 ^ k * 2 ^ (k * j) := by
    rw [← Nat.pow_add, Nat.mul_add, Nat.mul_one, Nat.add_comm]
  rw [Nat.mul_add] at hmul
  omega

/-- The words hold the digits that have been read. After `j` of them there is still room for the rest,
so that every digit is put after a word without loss. -/
theorem pushAll_ofNat (read : Bool → Text → Option (Fin base × Fin base)) (hbase : base = 2 ^ k)
    (hk : k < w) {ts : List Text} {j : Nat} (hroom : k * (j + ts.length) ≤ w)
    (hn : n < 2 ^ (k * j)) (hm : m < 2 ^ (k * j)) :
    pushAll k read ts (BitVec.ofNat w n, BitVec.ofNat w m) =
      orRefused ((readAll read ts).map fun pairs =>
        (BitVec.ofNat w ((pairs.map Prod.fst).foldl (fun n d => base * n + d.val) n),
          BitVec.ofNat w ((pairs.map Prod.snd).foldl (fun n d => base * n + d.val) m))) := by
  subst hbase
  induction ts generalizing n m j with
  | nil => rfl
  | cons t ts ih =>
    rw [pushAll, readAll]
    cases read ts.isEmpty t with
    | none => rfl
    | some pair =>
      obtain ⟨low, high⟩ := pair
      have hroom' : k * (j + 1 + ts.length) ≤ w := by
        rwa [List.length_cons, Nat.add_comm ts.length, ← Nat.add_assoc] at hroom
      have hstep : k * j ≤ w - k := by
        have hmore : k * (j + 1) ≤ k * (j + 1 + ts.length) := Nat.mul_le_mul_left k (by omega)
        rw [Nat.mul_add, Nat.mul_one] at hmore
        omega
      have hpow : 2 ^ (k * j) ≤ 2 ^ (w - k) := Nat.pow_le_pow_right (by decide) hstep
      have hlow := push_ofNat hk (Nat.lt_of_lt_of_le hn hpow) low.isLt
      have hhigh := push_ofNat hk (Nat.lt_of_lt_of_le hm hpow) high.isLt
      have hrest := ih hroom' (push_lt hn low.isLt) (push_lt hm high.isLt)
      simp only [orRefused, bind, Except.bind, hlow, hhigh, hrest, Option.bind]
      cases readAll read ts <;> rfl

theorem block?_ofNat (hlen : len ≤ w) (hn : n < 2 ^ len) (hm : m < 2 ^ len) :
    block? (BitVec.ofNat w (n * 2 ^ (w - len)))
      (BitVec.ofNat w (m * 2 ^ (w - len)) ||| BitVec.ofNat w (2 ^ (w - len) - 1)) =
        Block.leading? len n m := by
  have hpow : 2 ^ w = 2 ^ len * 2 ^ (w - len) := by rw [← Nat.pow_add, Nat.add_sub_cancel' hlen]
  have hpos : 0 < 2 ^ (w - len) := Nat.two_pow_pos _
  have hword : ∀ {x : Nat}, x < 2 ^ len →
      (BitVec.ofNat w (x * 2 ^ (w - len))).toNat = x * 2 ^ (w - len) := by
    intro x hx
    apply toNat_ofNat_of_lt (Nat.le_refl w)
    rw [hpow]
    exact Nat.mul_lt_mul_of_pos_right hx hpos
  have hmask : (BitVec.ofNat w (2 ^ (w - len) - 1)).toNat = 2 ^ (w - len) - 1 :=
    toNat_ofNat_of_lt (Nat.sub_le w len) (by omega)
  apply Option.ext
  intro b
  rw [block?_eq_some_iff, toNat_or_mask (hword hm) hmask, hword hn, hword hm,
    Block.leading?_eq_some_iff_ends hlen hm]

theorem fill_ofNat {count : Nat} (hw : 0 < w) (htotal : k * total = w) (hcount : count ≤ total)
    (hn : n < 2 ^ (k * count)) (hm : m < 2 ^ (k * count)) :
    fill k total count (BitVec.ofNat w n) (BitVec.ofNat w m) =
      orRefused (Block.leading? (k * count) n m) := by
  have hlen : k * count ≤ w := by
    rw [← htotal]
    exact Nat.mul_le_mul_left k hcount
  have hmissing : subLength? total count = some (total - count) := if_pos hcount
  have hfree : k * (total - count) = w - k * count := by rw [Nat.mul_sub, htotal]
  unfold fill
  rw [hmissing]
  simp only [orOverflow, bind, Except.bind, hfree, lowOnes_eq (Nat.sub_le w _),
    shiftLeftOrZero_ofNat hw hlen hn, shiftLeftOrZero_ofNat hw hlen hm, block?_ofNat hlen hn hm]

/-- Labels give the block of the digits that are read from them, and no step overflows. -/
theorem ofLabels_eq (hbase : base = 2 ^ k) (hk : k < w) (htotal : k * total = w)
    (labels : List Text) : (ofLabels k total read labels : Except Stop (Block w)) =
      orRefused ((readAll read labels.reverse).bind fun pairs =>
        Block.leading? (k * pairs.length) (Positional.ofDigits (pairs.map Prod.fst))
          (Positional.ofDigits (pairs.map Prod.snd))) := by
  have hpos : 0 < k := by
    apply Nat.pos_of_ne_zero
    rintro rfl
    omega
  have hlength : ∀ pairs, readAll read labels.reverse = some pairs →
      pairs.length = labels.length := by
    intro pairs hpairs
    rw [length_of_readAll hpairs, List.length_reverse]
  unfold ofLabels
  by_cases hlabels : total < labels.length
  · rw [if_pos hlabels]
    cases hpairs : readAll read labels.reverse with
    | none => rfl
    | some pairs =>
      have hlong : ¬ k * pairs.length ≤ w := by
        rw [hlength pairs hpairs, ← htotal, Nat.not_le]
        exact Nat.mul_lt_mul_of_pos_left hlabels hpos
      have hnone : (Block.leading? (k * pairs.length) (Positional.ofDigits (pairs.map Prod.fst))
          (Positional.ofDigits (pairs.map Prod.snd)) : Option (Block w)) = none :=
        dif_neg fun h => hlong h.1
      rw [Option.bind_some, hnone]
      rfl
  · have hroom : k * (0 + labels.reverse.length) ≤ w := by
      rw [Nat.zero_add, List.length_reverse, ← htotal]
      exact Nat.mul_le_mul_left k (by omega)
    have hwords := pushAll_ofNat read hbase hk hroom (Nat.two_pow_pos _)
      (Nat.two_pow_pos _)
    rw [if_neg hlabels, hwords]
    cases hpairs : readAll read labels.reverse with
    | none => rfl
    | some pairs =>
      have hlt : ∀ digits : List (Fin base), digits.length = pairs.length →
          Positional.ofDigits digits < 2 ^ (k * labels.length) := by
        intro digits hdigits
        rw [← hlength pairs hpairs, ← hdigits]
        exact Positional.ofDigits_lt_two_pow hbase digits
      have hfill := fill_ofNat (by omega) htotal (by omega : labels.length ≤ total)
        (hlt (pairs.map Prod.fst) (List.length_map _)) (hlt (pairs.map Prod.snd) (List.length_map _))
      rw [Option.bind_some, hlength pairs hpairs]
      exact hfill

end Labels

end Word

namespace ReverseName

open Word

/-- The octets of a label. Only the last that is read, which is the leftmost, may have two. -/
def octetPair? (last : Bool) (label : Text) : Option (Fin 256 × Fin 256) :=
  match Text.cut? '-' label with
  | some (low, high) =>
    if last then do
      let low ← octet? low
      let high ← octet? high
      if low ≤ high then some (low, high) else none
    else none
  | none => (octet? label).map fun octet => (octet, octet)

def nibblePair? (label : Text) : Option (Fin 16 × Fin 16) :=
  (nibble? label).map fun nibble => (nibble, nibble)

/-- The block that a name delegates, computed on words. -/
def blockOnWords (name : Text) : Except Stop IpBlock :=
  let name := if name.getLast? = some '.' then name.dropLast else name
  match Text.beforeTail? ".in-addr.arpa" name with
  | some labels => (ofLabels 8 4 octetPair? (Text.split '.' labels)).map .v4
  | none =>
    match Text.beforeTail? ".ip6.arpa" name with
    | some labels => (ofLabels 4 32 (fun _ => nibblePair?) (Text.split '.' labels)).map .v6
    | none => .error .refused

theorem octet?_eq_none_of_hyphen_mem {label : Text} (h : '-' ∈ label) : octet? label = none := by
  rw [Option.eq_none_iff_forall_not_mem]
  intro octet hoctet
  have hdigit := (isDigit_of_octet? hoctet).2 '-' h
  exact absurd hdigit (by decide)

theorem octetPair?_false (label : Text) :
    octetPair? false label = (octet? label).map fun octet => (octet, octet) := by
  unfold octetPair?
  split
  next low high hcut =>
    have hhyphen : '-' ∈ label := by
      rw [Text.cut?_eq_some hcut]
      simp
    rw [octet?_eq_none_of_hyphen_mem hhyphen]
    rfl
  next => rfl

/-- The last label is a range in the right order. -/
theorem octetPair?_true (label : Text) :
    octetPair? true label = (octetRange? label).filter fun range => decide (range.1 ≤ range.2) := by
  unfold octetPair? octetRange?
  cases Text.cut? '-' label with
  | some parts =>
    obtain ⟨low, high⟩ := parts
    dsimp only
    cases octet? low with
    | none => rfl
    | some low =>
      cases octet? high with
      | none => rfl
      | some high => by_cases hle : low ≤ high <;> simp [hle, Option.filter_some]
  | none => cases octet? label <;> simp [Option.filter_some]

theorem blockV4?_cons (label : Text) (parents : List Text) : blockV4? (label :: parents) =
    (octetRange? label).bind fun range => (parents.mapM octet?).bind fun octets =>
      Block.leading? (8 * (octets.length + 1))
        (Positional.ofDigits (octets.reverse ++ [range.1]))
        (Positional.ofDigits (octets.reverse ++ [range.2])) := rfl

theorem ofLabels_octetPair? (label : Text) (parents : List Text) :
    ofLabels 8 4 octetPair? (label :: parents) = orRefused (blockV4? (label :: parents)) := by
  rw [ofLabels_eq (by decide) (by decide) (by decide), List.reverse_cons, readAll_concat,
    octetPair?_true, funext octetPair?_false, mapM_map_read, mapM_reverse, blockV4?_cons]
  cases octetRange? label with
  | none => cases parents.mapM octet? <;> rfl
  | some range =>
    obtain ⟨low, high⟩ := range
    cases parents.mapM octet? with
    | none => rfl
    | some octets =>
      by_cases hle : low ≤ high
      · simp [hle, Option.filter_some, Function.comp_def]
      · -- A range in the wrong order makes the whole run in the wrong order.
        have horder : ¬ Positional.ofDigits (octets.reverse ++ [low]) ≤
            Positional.ofDigits (octets.reverse ++ [high]) := by
          rw [Positional.ofDigits_concat, Positional.ofDigits_concat]
          omega
        have hnone : (Block.leading? (8 * (octets.length + 1))
            (Positional.ofDigits (octets.reverse ++ [low]))
            (Positional.ofDigits (octets.reverse ++ [high])) : Option (Block 32)) = none :=
          dif_neg fun h => horder h.2.1
        simp [hle, Option.filter_some, hnone]

theorem ofLabels_nibblePair? (labels : List Text) :
    ofLabels 4 32 (fun _ => nibblePair?) labels = orRefused (blockV6? labels) := by
  rw [ofLabels_eq (by decide) (by decide) (by decide), readAll_const]
  unfold nibblePair? blockV6?
  rw [mapM_map_read, mapM_reverse]
  cases labels.mapM nibble? with
  | none => rfl
  | some nibbles => simp [Function.comp_def]

/-- On words the block that a name delegates comes out as it is, and no step overflows. -/
theorem blockOnWords_eq (name : Text) : blockOnWords name = orRefused (block? name) := by
  unfold blockOnWords block?
  dsimp only
  generalize (if name.getLast? = some '.' then name.dropLast else name) = stem
  cases Text.beforeTail? ".in-addr.arpa" stem with
  | some labels =>
    obtain ⟨label, parents, hsplit⟩ :=
      List.exists_cons_of_ne_nil (Text.splitWhere_ne_nil (· == '.') labels)
    change Text.split '.' labels = label :: parents at hsplit
    dsimp only
    rw [hsplit, ofLabels_octetPair?, map_orRefused]
  | none =>
    cases Text.beforeTail? ".ip6.arpa" stem with
    | some labels =>
      dsimp only
      rw [ofLabels_nibblePair?, map_orRefused]
    | none => rfl

end ReverseName

end Whois

import Whois.Proofs.Block.ReverseWord

/-!
Blocks told by two machine words, their ends. Nothing keeps the ends in order but the way they are
read and computed. Where they are in order, they can be subtracted, and a prefix has its length; where
they are not, the subtraction overflows.
-/
namespace Whois.Word

variable {α β : Type} {w : Nat}

/-- What is computed from a result, or instead of one that does not exist. -/
def thenElse (x : Except Stop α) (f : α → Except Stop β) (y : Except Stop β) : Except Stop β :=
  match x with
  | .ok a => f a
  | .error .refused => y
  | .error .overflow => .error .overflow

theorem thenElse_ok_orRefused (x y : Option α) :
    thenElse (orRefused x) .ok (orRefused y) = orRefused (x.or y) := by
  cases x <;> rfl

/-- Two words, in whatever order. -/
structure Ends (w : Nat) where
  lo : BitVec w
  hi : BitVec w
  deriving DecidableEq

namespace Ends

variable {e : Ends w} {b : Block w}

def InOrder (e : Ends w) : Prop := e.lo ≤ e.hi

def ofBlock (b : Block w) : Ends w := ⟨.ofFin b.lo, .ofFin b.hi⟩

@[simp] theorem lo_ofBlock (b : Block w) : (ofBlock b).lo = .ofFin b.lo := rfl

@[simp] theorem hi_ofBlock (b : Block w) : (ofBlock b).hi = .ofFin b.hi := rfl

theorem inOrder_ofBlock (b : Block w) : (ofBlock b).InOrder := b.lo_le_hi

/-- Ends in order are those of a block. -/
theorem InOrder.exists_eq_ofBlock (h : e.InOrder) : ∃ b : Block w, e = ofBlock b :=
  ⟨⟨e.lo.toFin, e.hi.toFin, h⟩, rfl⟩

/-- Two ends that are given. -/
def ofBounds (lo hi : BitVec w) : Except Stop (Ends w) :=
  if lo ≤ hi then .ok ⟨lo, hi⟩ else .error .refused

/-- Two ends that have been computed and are taken to be in order. -/
def ofOrdered (lo hi : BitVec w) : Except Stop (Ends w) :=
  if lo ≤ hi then .ok ⟨lo, hi⟩ else .error .overflow

def single (a : BitVec w) : Ends w := ⟨a, a⟩

/-- The ends of the whole number space. -/
def whole (w : Nat) : Except Stop (Ends w) := ofOrdered 0#w (BitVec.allOnes w)

/-- The ends of the prefix of length `len` around `a`. -/
def ofPrefix (a : BitVec w) (len : Nat) : Except Stop (Ends w) :=
  if w < len then .error .refused
  else
    let mask := hostMask len
    let lo := a &&& ~~~mask
    ofOrdered lo (lo ||| mask)

theorem map_ofBlock_block? (lo hi : BitVec w) :
    (block? lo hi).map ofBlock = if lo ≤ hi then some ⟨lo, hi⟩ else none := by
  change Option.map ofBlock (if h : lo ≤ hi then some ⟨lo.toFin, hi.toFin, h⟩ else none) = _
  by_cases h : lo ≤ hi
  · rw [dif_pos h, if_pos h]
    rfl
  · rw [dif_neg h, if_neg h]
    rfl

theorem ofBounds_eq (lo hi : BitVec w) : ofBounds lo hi = orRefused ((block? lo hi).map ofBlock) := by
  rw [map_ofBlock_block?]
  unfold ofBounds
  split <;> rfl

theorem ofBounds_ofFin (lo hi : Number w) :
    ofBounds (.ofFin lo) (.ofFin hi) = orRefused ((Interval.ofBounds? lo hi).map ofBlock) :=
  ofBounds_eq ..

theorem ofOrdered_eq (lo hi : BitVec w) :
    ofOrdered lo hi = orOverflow ((block? lo hi).map ofBlock) := by
  rw [map_ofBlock_block?]
  unfold ofOrdered
  split <;> rfl

theorem whole_eq (w : Nat) : whole w = .ok (ofBlock (Block.whole w)) := by
  have hlo : BitVec.ofFin (Block.whole w).lo = 0#w := by
    apply BitVec.eq_of_toNat_eq
    exact ((Block.isWhole_iff _).mp (decide_eq_true rfl)).1
  have hhi : BitVec.ofFin (Block.whole w).hi = BitVec.allOnes w := by
    apply BitVec.eq_of_toNat_eq
    rw [BitVec.toNat_allOnes]
    exact ((Block.isWhole_iff _).mp (decide_eq_true rfl)).2
  have horder := inOrder_ofBlock (Block.whole w)
  unfold whole ofBlock
  rw [← hlo, ← hhi]
  exact if_pos horder

/-- A prefix comes out as it is, with its ends in order. -/
theorem ofPrefix_eq (a : Number w) (len : Nat) :
    ofPrefix (.ofFin a) len = orRefused ((Block.ofPrefix? a len).map ofBlock) := by
  rw [← map_orRefused, ← Word.ofPrefix_eq]
  unfold ofPrefix Word.ofPrefix
  by_cases hlen : w < len
  · rw [if_pos hlen, if_pos hlen]
    rfl
  · rw [if_neg hlen, if_neg hlen]
    dsimp only
    rw [ofOrdered_eq]
    cases block? (BitVec.ofFin a &&& ~~~hostMask len)
      ((BitVec.ofFin a &&& ~~~hostMask len) ||| hostMask len) <;> rfl

/-- A prefix of full length holds one number. -/
theorem ofPrefix_full (h : b.lo = b.hi) : ofPrefix (.ofFin b.lo) w = .ok (ofBlock b) := by
  have hblock : Block.ofPrefix? b.lo w = some b :=
    Block.prefixLen?_eq_some_iff.mp (Block.prefixLen?_of_lo_eq_hi h)
  rw [ofPrefix_eq, hblock]
  rfl

theorem inOrder_of_orRefused {x : Option (Block w)} (h : orRefused (x.map ofBlock) = .ok e) :
    e.InOrder := by
  cases x with
  | none => cases h
  | some b =>
    cases h
    exact inOrder_ofBlock b

theorem inOrder_of_ofBounds {lo hi : BitVec w} (h : ofBounds lo hi = .ok e) : e.InOrder :=
  inOrder_of_orRefused (ofBounds_eq lo hi ▸ h)

theorem inOrder_of_ofPrefix {a : BitVec w} {len : Nat} (h : ofPrefix a len = .ok e) : e.InOrder :=
  inOrder_of_orRefused (ofPrefix_eq a.toFin len ▸ h)

theorem inOrder_single (a : BitVec w) : (single a).InOrder := BitVec.le_refl a

theorem inOrder_of_whole (h : whole w = .ok e) : e.InOrder := by
  rw [whole_eq] at h
  cases h
  exact inOrder_ofBlock _

/-- The length of the prefix with the given ends, in a word of eight bits. -/
def prefixLen (e : Ends w) : Except Stop (BitVec 8) := do
  let span ← orOverflow (sub? e.hi e.lo)
  if span &&& (span + 1#w) = 0#w ∧ e.lo &&& span = 0#w then
    let len ← orOverflow (subLength? w span.cpop.toNat)
    return BitVec.ofNat 8 len
  else .error .refused

theorem prefixLen_ofBlock (b : Block w) :
    (ofBlock b).prefixLen = orRefused (b.prefixLen?.map (BitVec.ofNat 8)) := by
  rw [← map_orRefused, ← Word.prefixLen_eq]
  unfold prefixLen Word.prefixLen
  rw [lo_ofBlock, hi_ofBlock]
  cases sub? (BitVec.ofFin b.hi) (BitVec.ofFin b.lo) with
  | none => rfl
  | some span =>
    simp only [orOverflow, bind, Except.bind]
    split
    · cases subLength? w span.cpop.toNat <;> rfl
    · rfl

/-- Exactly the ends in the wrong order make the computation of the length overflow. -/
theorem prefixLen_eq_overflow_iff : e.prefixLen = .error .overflow ↔ ¬ e.InOrder := by
  constructor
  · intro h horder
    obtain ⟨b, rfl⟩ := horder.exists_eq_ofBlock
    rw [prefixLen_ofBlock] at h
    cases hlen : b.prefixLen? <;> rw [hlen] at h <;> cases h
  · intro h
    have hsub : sub? e.hi e.lo = none := if_neg h
    unfold prefixLen
    rw [hsub]
    rfl

/-- A length: a number of 32 bits, which has to be one of eight. -/
def readLength (t : Text) : Except Stop Nat := do
  let len ← orRefused (Text.below? (2 ^ 32) t)
  if len.val < 256 then return len.val else .error .refused

/-- The ends of an address or a prefix, where `read?` reads addresses. -/
def readPrefix (read? : Text → Option (Number w)) (t : Text) : Except Stop (Ends w) :=
  match Text.cut? '/' t with
  | some (address, len) => do
    let len ← readLength len
    let a ← orRefused (read? address)
    ofPrefix (.ofFin a) len
  | none => do
    let a ← orRefused (read? t)
    ofPrefix (.ofFin a) w

/-- Two addresses that are the ends. -/
def readRange (read? : Text → Option (Number w)) (low high : Text) : Except Stop (Ends w) := do
  let lo ← orRefused (read? (Text.trim low))
  let hi ← orRefused (read? (Text.trim high))
  ofBounds (.ofFin lo) (.ofFin hi)

/-- The written form of the block with the given ends, where `render` writes addresses. -/
def render (render : Number w → Text) (e : Ends w) : Except Stop Text :=
  thenElse e.prefixLen (fun len => .ok (render e.lo.toFin ++ "/" ++ Text.decimal len.toNat))
    (.ok (render e.lo.toFin ++ " - " ++ render e.hi.toFin))

theorem readLength_eq (t : Text) :
    readLength t = orRefused ((Text.natural? t).filter fun n => decide (n < 256)) := by
  have hbelow : Text.below? (2 ^ 32) t =
      (Text.natural? t).bind fun n => if h : n < 2 ^ 32 then some ⟨n, h⟩ else none := rfl
  unfold readLength
  rw [hbelow]
  cases Text.natural? t with
  | none => rfl
  | some n =>
    rw [Option.bind_some, Option.filter_some]
    by_cases hbyte : n < 256
    · rw [dif_pos (by omega), if_pos (decide_eq_true hbyte)]
      exact if_pos hbyte
    · rw [if_neg (by simpa using hbyte)]
      by_cases hword : n < 2 ^ 32
      · rw [dif_pos hword]
        exact if_neg hbyte
      · rw [dif_neg hword]
        rfl

/-- No prefix has a length that does not fit into eight bits. -/
theorem readPrefix_eq (hw : w < 256) (read? : Text → Option (Number w)) (t : Text) :
    readPrefix read? t = orRefused ((Block.readPrefix? read? t).map ofBlock) := by
  unfold readPrefix Block.readPrefix?
  cases Text.cut? '/' t with
  | none =>
    dsimp only
    cases read? t with
    | none => rfl
    | some a => exact ofPrefix_full (b := Interval.single a) rfl
  | some parts =>
    obtain ⟨address, len⟩ := parts
    dsimp only
    rw [readLength_eq]
    cases Text.natural? len with
    | none => rfl
    | some len =>
      rw [Option.filter_some]
      by_cases hlen : len < 256
      · rw [if_pos (decide_eq_true hlen)]
        cases read? address with
        | none => rfl
        | some a => exact ofPrefix_eq a len
      · -- Such a length is refused as it is read, and of numbers no prefix has it.
        rw [if_neg (by simpa using hlen)]
        cases read? address with
        | none => rfl
        | some a =>
          have hnone : Block.ofPrefix? a len = none := by
            rw [← Option.not_isSome_iff_eq_none, Block.ofPrefix?_isSome_iff]
            omega
          change _ = orRefused ((Block.ofPrefix? a len).map ofBlock)
          rw [hnone]
          rfl

theorem readRange_eq (read? : Text → Option (Number w)) (low high : Text) :
    readRange read? low high = orRefused ((Block.readRange? read? low high).map ofBlock) := by
  unfold readRange Block.readRange?
  cases read? (Text.trim low) with
  | none => rfl
  | some lo =>
    cases read? (Text.trim high) with
    | none => rfl
    | some hi => exact ofBounds_ofFin lo hi

theorem render_ofBlock (hw : w < 256) (render : Number w → Text) (b : Block w) :
    (ofBlock b).render render = .ok (b.render render) := by
  unfold Ends.render Block.render
  rw [prefixLen_ofBlock]
  cases hlen : b.prefixLen? with
  | none => rfl
  | some len =>
    have hle := (Block.ofPrefix?_eq_some_iff.mp (Block.prefixLen?_eq_some_iff.mp hlen)).1
    have hbyte : (BitVec.ofNat 8 len).toNat = len := by
      rw [BitVec.toNat_ofNat]
      exact Nat.mod_eq_of_lt (by omega)
    simp [thenElse, orRefused, hbyte]

end Ends

end Whois.Word

import Mathlib.Data.Nat.Digits.Defs
import Whois.Proofs.Block.ReverseWord
import Whois.Proofs.Text.Lower

/-!
The grammar of reverse-DNS names. The names that delegate a block are exactly those with octets or
nibbles for labels under one of the two zones; the labels are the leading digits of the block, least
significant first.
-/
namespace Whois

namespace Positional

variable {base : Nat}

theorem ofDigits_reverse (digits : List (Fin base)) :
    ofDigits digits.reverse = Nat.ofDigits base (digits.map Fin.val) := by
  induction digits with
  | nil => rfl
  | cons d digits ih =>
    rw [List.reverse_cons, ofDigits_concat, ih, List.map_cons, Nat.ofDigits_cons, Nat.add_comm]

theorem take_toDigits [@NeZero Nat Zero.ofOfNat0 base] {count total : Nat} (h : count ≤ total)
    (n : Nat) : (toDigits base total n).take count =
      toDigits base count (n / base ^ (total - count)) := by
  have hsplit := toDigits_add base count (total - count) n
  rw [Nat.add_sub_cancel' h] at hsplit
  rw [hsplit]
  exact List.take_left' (length_toDigits ..)

end Positional

namespace Block

variable {w k base : Nat} {low high : List (Fin base)} {b : Block w}

/-- Whether a block runs from the numbers that start with the digits `low`, filled with zero bits, to
those that start with the digits `high`, filled with one bits. The digits have `k` bits, and the least
significant comes first. -/
def Spans (k : Nat) (low high : List (Fin base)) (b : Block w) : Prop :=
  b.lo.val = Nat.ofDigits (2 ^ k) (low.map Fin.val) * 2 ^ (w - k * low.length) ∧
    b.hi.val = Nat.ofDigits (2 ^ k) (high.map Fin.val) * 2 ^ (w - k * high.length) +
      (2 ^ (w - k * high.length) - 1)

/-- Digits span one block at most. -/
theorem Spans.eq {b' : Block w} (h : Spans k low high b) (h' : Spans k low high b') : b = b' :=
  Interval.ext (Fin.ext (h.1.trans h'.1.symm)) (Fin.ext (h.2.trans h'.2.symm))

theorem leading?_eq_some_iff_spans (hbase : base = 2 ^ k) (hroom : k * high.length ≤ w)
    (hlength : low.length = high.length) :
    leading? (k * high.length) (Positional.ofDigits low.reverse)
      (Positional.ofDigits high.reverse) = some b ↔ Spans k low high b := by
  have hlt := Positional.ofDigits_lt_two_pow hbase high.reverse
  rw [List.length_reverse] at hlt
  subst hbase
  rw [leading?_eq_some_iff_ends hroom hlt, Positional.ofDigits_reverse, Positional.ofDigits_reverse]
  unfold Spans
  rw [hlength]

/-- Leading bits in order make a block. -/
theorem exists_leading? {n m len : Nat} (hlen : len ≤ w) (hle : n ≤ m) (hlt : m < 2 ^ len) :
    ∃ b : Block w, leading? len n m = some b :=
  ⟨_, dif_pos ⟨hlen, hle, hlt⟩⟩

/-- A prefix is spanned by the leading digits of its addresses. -/
theorem spans_of_prefixLen? (base total : Nat) [@NeZero Nat Zero.ofOfNat0 base] {count : Nat}
    (hbase : base = 2 ^ k) (hk : 0 < k) (htotal : k * total = w)
    (h : b.prefixLen? = some (k * count)) :
    count ≤ total ∧ Spans k ((Positional.toDigits base total b.lo.val).take count).reverse
      ((Positional.toDigits base total b.lo.val).take count).reverse b := by
  obtain ⟨hlen, hlo, hhi⟩ := ofPrefix?_eq_some_iff.mp (prefixLen?_eq_some_iff.mp h)
  have hcount : count ≤ total := by
    rw [← htotal] at hlen
    exact Nat.le_of_mul_le_mul_left hlen hk
  have hfree : k * (total - count) = w - k * count := by rw [Nat.mul_sub, htotal]
  have hvalue : Nat.ofDigits (2 ^ k)
      (((Positional.toDigits base total b.lo.val).take count).reverse.map Fin.val) =
        b.lo.val / 2 ^ (w - k * count) := by
    rw [Positional.take_toDigits hcount, ← hbase, ← Positional.ofDigits_reverse,
      List.reverse_reverse, Positional.ofDigits_toDigits, hbase, ← Nat.pow_mul, ← Nat.pow_mul, hfree]
    exact Nat.mod_eq_of_lt (div_two_pow_lt b.lo hlen)
  have hlength : ((Positional.toDigits base total b.lo.val).take count).reverse.length = count := by
    rw [List.length_reverse, Positional.take_toDigits hcount, Positional.length_toDigits]
  refine ⟨hcount, ?_⟩
  unfold Spans
  rw [hvalue, hlength, ← hlo]
  exact ⟨rfl, hhi⟩

end Block

namespace ReverseName

variable {name label : Text} {labels : List Text}

/-- Whether a label is a decimal numeral of an octet. Leading zeros are allowed. -/
structure IsOctet (label : Text) (octet : Fin 256) : Prop where
  ne_nil : label ≠ []
  isDigit : ∀ c ∈ label, c.isDigit = true
  value : Nat.ofDigitChars 10 label 0 = octet.val

/-- Whether a label is an octet, or two in order with a hyphen between them. -/
inductive IsOctetRange : Text → Fin 256 → Fin 256 → Prop
  | octet {label : Text} {octet : Fin 256} : IsOctet label octet → IsOctetRange label octet octet
  | range {lowLabel highLabel : Text} {low high : Fin 256} : IsOctet lowLabel low →
      IsOctet highLabel high → low ≤ high → IsOctetRange (lowLabel ++ '-' :: highLabel) low high

/-- Whether a label is one hexadecimal digit, of either case. -/
def IsNibble (label : Text) (nibble : Fin 16) : Prop :=
  ∃ c : Char, label = [c] ∧ c.toLower = Nat.digitChar nibble.val

theorem octet?_eq_some_iff {octet : Fin 256} : octet? label = some octet ↔ IsOctet label octet := by
  have hnumeral : Text.IsNumeral label octet.val ↔ IsOctet label octet :=
    ⟨fun ⟨hne, hdigits, hvalue⟩ => ⟨hne, hdigits, hvalue⟩, fun h => ⟨h.ne_nil, h.isDigit, h.value⟩⟩
  rw [← hnumeral, ← Text.natural?_eq_some_iff]
  constructor
  · exact Text.natural?_of_below?
  · intro hnumber
    unfold octet? Text.below?
    rw [hnumber]
    exact dif_pos octet.isLt

theorem IsOctet.not_mem {octet : Fin 256} {c : Char} (h : IsOctet label octet)
    (hc : c.isDigit = false) : c ∉ label := by
  intro hmem
  have hdigit := h.isDigit c hmem
  rw [hc] at hdigit
  cases hdigit

theorem octetRange?_eq_some_iff {low high : Fin 256} :
    octetRange? label = some (low, high) ∧ low ≤ high ↔ IsOctetRange label low high := by
  constructor
  · rintro ⟨h, hle⟩
    unfold octetRange? at h
    split at h
    next lowLabel highLabel hcut =>
      obtain ⟨low', hlow, h⟩ := Option.bind_eq_some_iff.mp h
      obtain ⟨high', hhigh, h⟩ := Option.bind_eq_some_iff.mp h
      cases h
      rw [Text.cut?_eq_some hcut]
      exact .range (octet?_eq_some_iff.mp hlow) (octet?_eq_some_iff.mp hhigh) hle
    next =>
      obtain ⟨octet, hoctet, h⟩ := Option.map_eq_some_iff.mp h
      cases h
      exact .octet (octet?_eq_some_iff.mp hoctet)
  · intro h
    unfold octetRange?
    cases h with
    | octet hoctet =>
      rw [Text.cut?_eq_none (hoctet.not_mem rfl), octet?_eq_some_iff.mpr hoctet]
      exact ⟨rfl, Nat.le_refl _⟩
    | range hlow hhigh hle =>
      rw [Text.cut?_append_cons (hlow.not_mem rfl)]
      dsimp only
      rw [octet?_eq_some_iff.mpr hlow, octet?_eq_some_iff.mpr hhigh]
      exact ⟨rfl, hle⟩

theorem nibble?_eq_some_iff {nibble : Fin 16} :
    nibble? label = some nibble ↔ IsNibble label nibble := by
  constructor
  · intro h
    match label, h with
    | [c], h => exact ⟨c, rfl, Text.hexDigit?_eq_some_iff.mp h⟩
  · rintro ⟨c, rfl, hc⟩
    exact Text.hexDigit?_eq_some_iff.mpr hc

/-- Whether labels, leftmost first, are one to four octets. The first may be a range, so that they
stand for the octets from `low` to `high`. -/
inductive ReadsV4 : (labels : List Text) → (low high : List (Fin 256)) → Prop
  | intro {label : Text} {parents : List Text} {low high : Fin 256} {octets : List (Fin 256)} :
      IsOctetRange label low high → List.Forall₂ IsOctet parents octets → parents.length ≤ 3 →
      ReadsV4 (label :: parents) (low :: octets) (high :: octets)

/-- Whether labels, leftmost first, are one to 32 nibbles. -/
structure ReadsV6 (labels : List Text) (nibbles : List (Fin 16)) : Prop where
  length_pos : 1 ≤ labels.length
  length_le : labels.length ≤ 32
  nibbles : List.Forall₂ IsNibble labels nibbles

theorem mapM_octet?_eq_some_iff {octets : List (Fin 256)} :
    labels.mapM octet? = some octets ↔ List.Forall₂ IsOctet labels octets := by
  rw [mapM_eq_some_iff_forall₂]
  simp only [octet?_eq_some_iff]

theorem mapM_nibble?_eq_some_iff {nibbles : List (Fin 16)} :
    labels.mapM nibble? = some nibbles ↔ List.Forall₂ IsNibble labels nibbles := by
  rw [mapM_eq_some_iff_forall₂]
  simp only [nibble?_eq_some_iff]

theorem exists_of_blockV4? {b : Block 32} (h : blockV4? labels = some b) :
    ∃ low high, ReadsV4 labels low high ∧ b.Spans 8 low high := by
  cases labels with
  | nil => cases h
  | cons label parents =>
    rw [blockV4?_cons] at h
    obtain ⟨⟨low, high⟩, hrange, h⟩ := Option.bind_eq_some_iff.mp h
    obtain ⟨octets, hoctets, h⟩ := Option.bind_eq_some_iff.mp h
    obtain ⟨⟨hroom, hle, _⟩, _⟩ := Block.leading?_eq_some_iff.mp h
    have hlength : octets.length = parents.length := length_of_mapM_eq_some hoctets
    dsimp only at h hle
    rw [Positional.ofDigits_concat, Positional.ofDigits_concat] at hle
    refine ⟨low :: octets, high :: octets, .intro (octetRange?_eq_some_iff.mp ⟨hrange, by omega⟩)
      (mapM_octet?_eq_some_iff.mp hoctets) (by omega), ?_⟩
    rw [← List.reverse_cons, ← List.reverse_cons] at h
    exact (Block.leading?_eq_some_iff_spans (by decide) (by simpa using hroom) (by simp)).mp h

theorem exists_of_readsV4 {low high : List (Fin 256)} (h : ReadsV4 labels low high) :
    ∃ b, blockV4? labels = some b ∧ b.Spans 8 low high := by
  cases h with
  | @intro label parents low high octets hrange hoctets hcount =>
    obtain ⟨hrange, hle⟩ := octetRange?_eq_some_iff.mpr hrange
    have hlength := hoctets.length_eq
    have hroom : 8 * (high :: octets).length ≤ 32 := by
      rw [List.length_cons]
      omega
    have hdigits := Positional.ofDigits_lt_two_pow (k := 8) (by decide) (high :: octets).reverse
    have horder : Positional.ofDigits (low :: octets).reverse ≤
        Positional.ofDigits (high :: octets).reverse := by
      rw [List.reverse_cons, List.reverse_cons, Positional.ofDigits_concat,
        Positional.ofDigits_concat]
      omega
    rw [List.length_reverse] at hdigits
    obtain ⟨b, hb⟩ := Block.exists_leading? hroom horder hdigits
    refine ⟨b, ?_, (Block.leading?_eq_some_iff_spans (by decide) hroom (by simp)).mp hb⟩
    rw [blockV4?_cons, hrange, mapM_octet?_eq_some_iff.mpr hoctets]
    simpa using hb

theorem exists_of_blockV6? {b : Block 128} (hne : labels ≠ []) (h : blockV6? labels = some b) :
    ∃ nibbles, ReadsV6 labels nibbles ∧ b.Spans 4 nibbles nibbles ∧
      b.prefixLen? = some (4 * labels.length) := by
  obtain ⟨nibbles, hnibbles, h⟩ := Option.bind_eq_some_iff.mp h
  obtain ⟨⟨hroom, _, _⟩, _⟩ := Block.leading?_eq_some_iff.mp h
  have hlength : nibbles.length = labels.length := length_of_mapM_eq_some hnibbles
  have hpos := List.length_pos_of_ne_nil hne
  refine ⟨nibbles, ⟨hpos, by omega, mapM_nibble?_eq_some_iff.mp hnibbles⟩, ?_, ?_⟩
  · exact (Block.leading?_eq_some_iff_spans (by decide) hroom rfl).mp h
  · rw [← hlength]
    exact Block.prefixLen?_of_leading? h

theorem exists_of_readsV6 {nibbles : List (Fin 16)} (h : ReadsV6 labels nibbles) :
    ∃ b, blockV6? labels = some b ∧ b.Spans 4 nibbles nibbles := by
  have hlength := h.nibbles.length_eq
  have hcount := h.length_le
  have hroom : 4 * nibbles.length ≤ 128 := by omega
  have hdigits := Positional.ofDigits_lt_two_pow (k := 4) (by decide) nibbles.reverse
  rw [List.length_reverse] at hdigits
  obtain ⟨b, hb⟩ := Block.exists_leading? hroom (Nat.le_refl _) hdigits
  refine ⟨b, ?_, (Block.leading?_eq_some_iff_spans (by decide) hroom rfl).mp hb⟩
  unfold blockV6?
  rw [mapM_nibble?_eq_some_iff.mpr h.nibbles]
  exact hb

theorem IsOctetRange.dot_not_mem {low high : Fin 256} (h : IsOctetRange label low high) :
    '.' ∉ label := by
  cases h with
  | octet hoctet => exact hoctet.not_mem rfl
  | range hlow hhigh _ =>
    rw [List.mem_append, List.mem_cons]
    rintro (hdot | hdot | hdot)
    · exact hlow.not_mem rfl hdot
    · exact absurd hdot (by decide)
    · exact hhigh.not_mem rfl hdot

theorem IsNibble.dot_not_mem {nibble : Fin 16} (h : IsNibble label nibble) : '.' ∉ label := by
  obtain ⟨c, rfl, hc⟩ := h
  rw [List.mem_singleton]
  rintro rfl
  have hnone : ∀ d : Fin 16, '.'.toLower ≠ Nat.digitChar d.val := by decide
  exact hnone nibble hc

/-- Whether a name has labels, with dots between them, under a zone, which is written in any case.
One dot may follow. -/
def IsUnder (zone : Text) (labels : List Text) (name : Text) : Prop :=
  ∃ written dot : Text, name = Text.join "." labels ++ written ++ dot ∧
    Text.alike written zone = true ∧ (dot = [] ∨ dot = ".")

/-- A name without the dot that may follow it. -/
theorem stem_eq {written zone start dot : Text} (halike : Text.alike written zone = true)
    (hzone : (Text.lower zone).getLast? = some 'a') (hdot : dot = [] ∨ dot = ".") :
    (if (start ++ written ++ dot).getLast? = some '.' then (start ++ written ++ dot).dropLast
      else start ++ written ++ dot) = start ++ written := by
  rcases hdot with rfl | rfl
  · rw [List.append_nil]
    apply if_neg
    rw [List.getLast?_append]
    rw [← Text.lower_eq_of_alike halike] at hzone
    cases hlast : written.getLast? with
    | none =>
      rw [List.getLast?_eq_none_iff.mp hlast] at hzone
      cases hzone
    | some c =>
      rintro ⟨⟩
      rw [(Text.getLast?_lower Text.isMark_dot).mpr hlast] at hzone
      cases hzone
  · have hlast : (start ++ written ++ "." : Text).getLast? = some '.' := List.getLast?_concat
    rw [if_pos hlast]
    exact List.dropLast_concat

theorem block?_of_isUnder_v4 (h : IsUnder ".in-addr.arpa" labels name) (hne : labels ≠ [])
    (hdots : ∀ label ∈ labels, '.' ∉ label) : block? name = (blockV4? labels).map .v4 := by
  obtain ⟨written, dot, rfl, halike, hdot⟩ := h
  have hsplit : Text.split '.' (Text.join "." labels) = labels := Text.split_join hne hdots
  unfold block?
  dsimp only
  rw [stem_eq halike rfl hdot, Text.beforeTail?_append halike]
  dsimp only
  rw [hsplit]

/-- A text ends with one zone only. -/
theorem beforeTail?_v4_eq_none {written start : Text} (h : Text.alike written ".ip6.arpa" = true) :
    Text.beforeTail? ".in-addr.arpa" (start ++ written) = none := by
  rw [Option.eq_none_iff_forall_not_mem]
  intro rest hrest
  obtain ⟨written', heq, h'⟩ := Text.beforeTail?_eq_some hrest
  have hlower : Text.lower start ++ Text.lower ".ip6.arpa" =
      Text.lower rest ++ Text.lower ".in-addr.arpa" := by
    rw [← Text.lower_eq_of_alike h, ← Text.lower_eq_of_alike h']
    unfold Text.lower
    rw [← List.map_append, ← List.map_append, heq]
  have hsuffix : Text.lower ".ip6.arpa" <:+ Text.lower ".in-addr.arpa" := by
    apply List.suffix_of_suffix_length_le (List.suffix_append (Text.lower start) _)
    · rw [hlower]
      exact List.suffix_append _ _
    · decide
  exact absurd hsuffix (by decide)

theorem block?_of_isUnder_v6 (h : IsUnder ".ip6.arpa" labels name) (hne : labels ≠ [])
    (hdots : ∀ label ∈ labels, '.' ∉ label) : block? name = (blockV6? labels).map .v6 := by
  obtain ⟨written, dot, rfl, halike, hdot⟩ := h
  have hsplit : Text.split '.' (Text.join "." labels) = labels := Text.split_join hne hdots
  unfold block?
  dsimp only
  rw [stem_eq halike rfl hdot, beforeTail?_v4_eq_none halike, Text.beforeTail?_append halike]
  dsimp only
  rw [hsplit]

theorem block?_of_readsV4 {low high : List (Fin 256)} (hname : IsUnder ".in-addr.arpa" labels name)
    (h : ReadsV4 labels low high) : ∃ b, block? name = some (.v4 b) ∧ b.Spans 8 low high := by
  obtain ⟨b, hb, hspans⟩ := exists_of_readsV4 h
  have hne : labels ≠ [] := by
    rintro rfl
    cases h
  have hdots : ∀ label ∈ labels, '.' ∉ label := by
    cases h with
    | intro hrange hoctets _ =>
      refine List.forall_mem_cons.mpr ⟨hrange.dot_not_mem, ?_⟩
      intro label hlabel
      obtain ⟨octet, hoctet⟩ := exists_of_mapM_eq_some (mapM_octet?_eq_some_iff.mpr hoctets) hlabel
      exact (octet?_eq_some_iff.mp hoctet).not_mem rfl
  refine ⟨b, ?_, hspans⟩
  rw [block?_of_isUnder_v4 hname hne hdots, hb]
  rfl

theorem block?_of_readsV6 {nibbles : List (Fin 16)} (hname : IsUnder ".ip6.arpa" labels name)
    (h : ReadsV6 labels nibbles) : ∃ b, block? name = some (.v6 b) ∧ b.Spans 4 nibbles nibbles := by
  obtain ⟨b, hb, hspans⟩ := exists_of_readsV6 h
  have hne : labels ≠ [] := List.ne_nil_of_length_pos h.length_pos
  have hdots : ∀ label ∈ labels, '.' ∉ label := by
    intro label hlabel
    obtain ⟨nibble, hnibble⟩ :=
      exists_of_mapM_eq_some (mapM_nibble?_eq_some_iff.mpr h.nibbles) hlabel
    exact (nibble?_eq_some_iff.mp hnibble).dot_not_mem
  refine ⟨b, ?_, hspans⟩
  rw [block?_of_isUnder_v6 hname hne hdots, hb]
  rfl

theorem block?_eq_some_v4_iff {b : Block 32} : block? name = some (.v4 b) ↔
    ∃ labels low high, IsUnder ".in-addr.arpa" labels name ∧ ReadsV4 labels low high ∧
      b.Spans 8 low high := by
  constructor
  · intro h
    obtain ⟨labels, zone, dot, hname, hdot, ⟨halike, _, hblock, hfamily⟩ | ⟨_, _, _, hfamily⟩⟩ :=
      exists_labels_of_block? h
    · cases hfamily
      obtain ⟨low, high, hreads, hspans⟩ := exists_of_blockV4? hblock
      have hjoin : Text.join "." (Text.split '.' labels) = labels := Text.join_split '.' labels
      refine ⟨_, low, high, ⟨zone, dot, ?_, halike, hdot⟩, hreads, hspans⟩
      rw [hjoin, hname]
    · cases hfamily
  · rintro ⟨labels, low, high, hname, hreads, hspans⟩
    obtain ⟨b', hb', hspans'⟩ := block?_of_readsV4 hname hreads
    rw [hb', hspans.eq hspans']

theorem block?_eq_some_v6_iff {b : Block 128} : block? name = some (.v6 b) ↔
    ∃ labels nibbles, IsUnder ".ip6.arpa" labels name ∧ ReadsV6 labels nibbles ∧
      b.Spans 4 nibbles nibbles ∧ b.prefixLen? = some (4 * labels.length) := by
  constructor
  · intro h
    obtain ⟨labels, zone, dot, hname, hdot, ⟨_, _, _, hfamily⟩ | ⟨halike, _, hblock, hfamily⟩⟩ :=
      exists_labels_of_block? h
    · cases hfamily
    · cases hfamily
      have hne : Text.split '.' labels ≠ [] := Text.splitWhere_ne_nil (· == '.') labels
      obtain ⟨nibbles, hreads, hspans⟩ := exists_of_blockV6? hne hblock
      have hjoin : Text.join "." (Text.split '.' labels) = labels := Text.join_split '.' labels
      refine ⟨_, nibbles, ⟨zone, dot, ?_, halike, hdot⟩, hreads, hspans⟩
      rw [hjoin, hname]
  · rintro ⟨labels, nibbles, hname, hreads, hspans, _⟩
    obtain ⟨b', hb', hspans'⟩ := block?_of_readsV6 hname hreads
    rw [hb', hspans.eq hspans']

/-- The name of the first `count` octets of an address. -/
def nameV4 (count : Nat) (a : Ipv4) : Text :=
  Text.join "." (((Ipv4.octets a).take count).reverse.map fun octet => Text.decimal octet.val) ++
    ".in-addr.arpa"

/-- The name of the first `count` nibbles of an address. -/
def nameV6 (count : Nat) (a : Ipv6) : Text :=
  Text.join "." (((Positional.toDigits 16 32 a.val).take count).reverse.map
    fun nibble => [Nat.digitChar nibble.val]) ++ ".ip6.arpa"

theorem isOctet_decimal (octet : Fin 256) : IsOctet (Text.decimal octet.val) octet :=
  octet?_eq_some_iff.mp (Text.below?_decimal octet)

theorem isNibble_digitChar (nibble : Fin 16) : IsNibble [Nat.digitChar nibble.val] nibble :=
  nibble?_eq_some_iff.mp (Text.hexDigit?_digitChar nibble)

theorem isUnder_append (zone : Text) (labels : List Text) :
    IsUnder zone labels (Text.join "." labels ++ zone) :=
  ⟨zone, [], (List.append_nil _).symm, beq_self_eq_true _, .inl rfl⟩

theorem block?_nameV4 {b : Block 32} {count : Nat} (hpos : 0 < count)
    (h : b.prefixLen? = some (8 * count)) : block? (nameV4 count b.lo) = some (.v4 b) := by
  obtain ⟨hcount, hspans⟩ :=
    Block.spans_of_prefixLen? 256 4 (by decide) (by decide) (by decide) h
  have hlength : ((Ipv4.octets b.lo).take count).reverse.length = count := by
    rw [List.length_reverse, List.length_take, Ipv4.octets, Positional.length_toDigits]
    omega
  refine block?_eq_some_v4_iff.mpr ⟨_, _, _, isUnder_append _ _, ?_, hspans⟩
  change ReadsV4 _ ((Ipv4.octets b.lo).take count).reverse ((Ipv4.octets b.lo).take count).reverse
  cases hoctets : ((Ipv4.octets b.lo).take count).reverse with
  | nil =>
    rw [hoctets, List.length_nil] at hlength
    omega
  | cons octet octets =>
    rw [hoctets, List.length_cons] at hlength
    refine .intro (.octet (isOctet_decimal octet)) ?_ ?_
    · rw [List.forall₂_map_left_iff, List.forall₂_same]
      exact fun octet _ => isOctet_decimal octet
    · rw [List.length_map]
      omega

theorem block?_nameV6 {b : Block 128} {count : Nat} (hpos : 0 < count)
    (h : b.prefixLen? = some (4 * count)) : block? (nameV6 count b.lo) = some (.v6 b) := by
  obtain ⟨hcount, hspans⟩ :=
    Block.spans_of_prefixLen? 16 32 (by decide) (by decide) (by decide) h
  have hlength : (((Positional.toDigits 16 32 b.lo.val).take count).reverse.map
      fun nibble => [Nat.digitChar nibble.val]).length = count := by
    rw [List.length_map, List.length_reverse, List.length_take, Positional.length_toDigits]
    omega
  refine block?_eq_some_v6_iff.mpr ⟨_, _, isUnder_append _ _, ⟨?_, ?_, ?_⟩, hspans, ?_⟩
  · rw [hlength]
    exact hpos
  · rw [hlength]
    exact hcount
  · rw [List.forall₂_map_left_iff, List.forall₂_same]
    exact fun nibble _ => isNibble_digitChar nibble
  · rw [hlength]
    exact h

/-- Reverse-DNS names are read by their grammar. A name delegates an IPv4 block exactly if its labels
are octets, of which the first may be a range, and an IPv6 block exactly if they are nibbles; whatever
the labels, there is such a block, and for nibbles it is a prefix. The name of a prefix that ends with
an octet or a nibble delegates this prefix. On words of 32 and 128 bits the same comes out, and no step
overflows. -/
theorem block?_grammar :
    (∀ (name : Text) (b : Block 32), block? name = some (.v4 b) ↔
      ∃ labels low high, IsUnder ".in-addr.arpa" labels name ∧ ReadsV4 labels low high ∧
        b.Spans 8 low high) ∧
    (∀ (name : Text) (labels : List Text) (low high : List (Fin 256)),
      IsUnder ".in-addr.arpa" labels name → ReadsV4 labels low high →
        ∃ b, block? name = some (.v4 b) ∧ b.Spans 8 low high) ∧
    (∀ (name : Text) (b : Block 128), block? name = some (.v6 b) ↔
      ∃ labels nibbles, IsUnder ".ip6.arpa" labels name ∧ ReadsV6 labels nibbles ∧
        b.Spans 4 nibbles nibbles ∧ b.prefixLen? = some (4 * labels.length)) ∧
    (∀ (name : Text) (labels : List Text) (nibbles : List (Fin 16)),
      IsUnder ".ip6.arpa" labels name → ReadsV6 labels nibbles →
        ∃ b, block? name = some (.v6 b) ∧ b.Spans 4 nibbles nibbles) ∧
    (∀ (b : Block 32) (count : Nat), 0 < count → b.prefixLen? = some (8 * count) →
      block? (nameV4 count b.lo) = some (.v4 b)) ∧
    (∀ (b : Block 128) (count : Nat), 0 < count → b.prefixLen? = some (4 * count) →
      block? (nameV6 count b.lo) = some (.v6 b)) ∧
    ∀ name : Text, blockOnWords name = Word.orRefused (block? name) :=
  ⟨fun _ _ => block?_eq_some_v4_iff, fun _ _ _ _ => block?_of_readsV4,
    fun _ _ => block?_eq_some_v6_iff, fun _ _ _ => block?_of_readsV6,
    fun _ _ => block?_nameV4, fun _ _ => block?_nameV6, blockOnWords_eq⟩

/-- The first half of `10.0.1.0/24` is delegated by a range, and this prefix and `2001:db8::/32` are
by their own names. -/
theorem block?_grammar_delegations :
    (IsUnder ".in-addr.arpa" ["0-127", "1", "0", "10"] "0-127.1.0.10.IN-ADDR.ARPA." ∧
      ReadsV4 ["0-127", "1", "0", "10"] [0, 1, 0, 10] [127, 1, 0, 10] ∧
      ∃ b, block? "0-127.1.0.10.IN-ADDR.ARPA." = some (.v4 b) ∧
        b.Spans 8 ([0, 1, 0, 10] : List (Fin 256)) [127, 1, 0, 10]) ∧
    (IsUnder ".ip6.arpa" ["D", "0", "1", "0", "0", "2"] "D.0.1.0.0.2.ip6.arpa" ∧
      ReadsV6 ["D", "0", "1", "0", "0", "2"] [13, 0, 1, 0, 0, 2] ∧
      ∃ b, block? "D.0.1.0.0.2.ip6.arpa" = some (.v6 b) ∧
        b.Spans 4 ([13, 0, 1, 0, 0, 2] : List (Fin 16)) [13, 0, 1, 0, 0, 2]) ∧
    (∃ b : Block 32, IpBlock.read? "10.0.1.0/24" = some (.v4 b) ∧ b.prefixLen? = some (8 * 3) ∧
      nameV4 3 b.lo = "1.0.10.in-addr.arpa" ∧ block? (nameV4 3 b.lo) = some (.v4 b)) ∧
    ∃ b : Block 128, IpBlock.read? "2001:db8::/32" = some (.v6 b) ∧ b.prefixLen? = some (4 * 8) ∧
      nameV6 8 b.lo = "8.b.d.0.1.0.0.2.ip6.arpa" ∧ block? (nameV6 8 b.lo) = some (.v6 b) := by
  obtain ⟨_, hreadsV4, _, hreadsV6, hnameV4, hnameV6, _⟩ := block?_grammar
  refine ⟨?_, ?_, ?_, ?_⟩
  · have hname : IsUnder ".in-addr.arpa" ["0-127", "1", "0", "10"] "0-127.1.0.10.IN-ADDR.ARPA." :=
      ⟨".IN-ADDR.ARPA", ".", rfl, by decide, .inr rfl⟩
    have hreads : ReadsV4 ["0-127", "1", "0", "10"] [0, 1, 0, 10] [127, 1, 0, 10] :=
      .intro (.range (isOctet_decimal 0) (isOctet_decimal 127) (by decide))
        (mapM_octet?_eq_some_iff.mp rfl) (by decide)
    exact ⟨hname, hreads, hreadsV4 _ _ _ _ hname hreads⟩
  · have hname : IsUnder ".ip6.arpa" ["D", "0", "1", "0", "0", "2"] "D.0.1.0.0.2.ip6.arpa" :=
      ⟨".ip6.arpa", [], rfl, by decide, .inl rfl⟩
    have hreads : ReadsV6 ["D", "0", "1", "0", "0", "2"] [13, 0, 1, 0, 0, 2] :=
      ⟨by decide, by decide, mapM_nibble?_eq_some_iff.mp rfl⟩
    exact ⟨hname, hreads, hreadsV6 _ _ _ hname hreads⟩
  · refine ⟨⟨167772416, 167772671, by decide⟩, by decide +kernel, by decide +kernel,
      by decide +kernel, ?_⟩
    exact hnameV4 _ 3 (by decide) (by decide +kernel)
  · refine ⟨⟨42540766411282592856903984951653826560, 42540766490510755371168322545197776895,
      by decide⟩, by decide +kernel, by decide +kernel, by decide +kernel, ?_⟩
    exact hnameV6 _ 8 (by decide) (by decide +kernel)

end ReverseName

end Whois

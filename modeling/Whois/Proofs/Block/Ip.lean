import Whois.Block.Ip
import Whois.Proofs.Address.Ipv6
import Whois.Proofs.Block.Prefix

/-!
IP blocks in writing: every IPv4 block and every IPv6 prefix is read back, and no IPv6 text is taken
for an IPv4 one.
-/
namespace Whois

namespace Ipv6

variable {t : Text} {c : Char}

theorem IsAddressChar.isBlank (h : IsAddressChar c) : Text.isBlank c = false := by
  rcases h with hdigit | rfl | rfl
  · exact Text.isBlank_of_hexDigit? hdigit
  · decide
  · decide

theorem hyphen_not_mem (h : ∀ c ∈ t, IsAddressChar c) : '-' ∉ t :=
  fun hc => absurd (h '-' hc) (by decide)

theorem slash_not_mem (h : ∀ c ∈ t, IsAddressChar c) : '/' ∉ t :=
  fun hc => absurd (h '/' hc) (by decide)

theorem isAddressChar_of_mem_decimal {n : Nat} (h : c ∈ Text.decimal n) : IsAddressChar c :=
  .inl (Text.hexDigit?_of_isDigit (Text.isDigit_of_mem_decimal h))

end Ipv6

namespace Ipv4

theorem isAddressChar_of_mem_render {a : Ipv4} {c : Char} (h : c ∈ a.render) :
    Ipv6.IsAddressChar c :=
  Ipv6.isAddressChar_of_ipv4 a.read?_render h

theorem render_ne_nil (a : Ipv4) : a.render ≠ [] :=
  List.ne_nil_of_mem (dot_mem_of_read? a.read?_render)

end Ipv4

theorem Ipv6.render_ne_nil (a : Ipv6) : a.render ≠ [] :=
  List.ne_nil_of_mem (colon_mem_of_read? a.read?_render)

namespace Block

section Family
variable {w : Nat} {render : Number w → Text} {b : Block w} {len : Nat}

theorem render_of_prefixLen? (h : b.prefixLen? = some len) :
    b.render render = render b.lo ++ '/' :: Text.decimal len := by
  unfold Block.render
  rw [h]
  exact List.append_assoc ..

theorem render_of_range (h : b.prefixLen? = none) :
    b.render render = render b.lo ++ " " ++ '-' :: (" " ++ render b.hi) := by
  unfold Block.render
  rw [h]
  simp

variable {read? : Text → Option (Number w)}

/-- What is read as a prefix is an address, with no more than a slash and digits after it. -/
theorem exists_address_of_readPrefix? {t : Text} (h : readPrefix? read? t = some b) :
    ∃ address rest a, t = address ++ rest ∧ read? address = some a ∧
      ∀ c ∈ rest, c = '/' ∨ c.isDigit = true := by
  unfold readPrefix? at h
  split at h
  next address len hcut =>
    obtain ⟨n, hn, h⟩ := Option.bind_eq_some_iff.mp h
    obtain ⟨a, ha, _⟩ := Option.bind_eq_some_iff.mp h
    refine ⟨address, '/' :: len, a, Text.cut?_eq_some hcut, ha, ?_⟩
    intro c hc
    exact (List.mem_cons.mp hc).imp_right (Text.isDigit_of_natural? hn)
  next =>
    obtain ⟨a, ha, _⟩ := Option.map_eq_some_iff.mp h
    exact ⟨t, [], a, (List.append_nil t).symm, ha, by simp⟩

theorem exists_prefixLen?_of_readPrefix? {t : Text} (h : readPrefix? read? t = some b) :
    ∃ len, b.prefixLen? = some len := by
  unfold readPrefix? at h
  split at h
  next =>
    obtain ⟨len, _, h⟩ := Option.bind_eq_some_iff.mp h
    obtain ⟨a, _, h⟩ := Option.bind_eq_some_iff.mp h
    exact ⟨len, prefixLen?_of_ofPrefix? h⟩
  next =>
    obtain ⟨a, _, rfl⟩ := Option.map_eq_some_iff.mp h
    exact ⟨w, prefixLen?_of_lo_eq_hi rfl⟩

theorem readPrefix?_append {t : Text} (h : '/' ∉ t) (len : Nat) :
    readPrefix? read? (t ++ '/' :: Text.decimal len) = (read? t).bind fun a => ofPrefix? a len := by
  unfold readPrefix?
  rw [Text.cut?_append_cons h]
  dsimp only
  rw [Text.natural?_decimal]
  rfl

variable (hchars : ∀ a, ∀ c ∈ render a, Ipv6.IsAddressChar c)
include hchars

/-- A prefix is read back from its first address and its length. -/
theorem readPrefix?_render (hread : ∀ a, read? (render a) = some a) (h : b.prefixLen? = some len) :
    readPrefix? read? (b.render render) = some b := by
  rw [render_of_prefixLen? h, readPrefix?_append (Ipv6.slash_not_mem (hchars b.lo)), hread]
  exact prefixLen?_eq_some_iff.mp h

/-- A range is read back from its two ends. -/
theorem readRange?_render (hread : ∀ a, read? (render a) = some a) (b : Block w) :
    readRange? read? (render b.lo ++ " ") (" " ++ render b.hi) = some b := by
  have hblank : ∀ a, ∀ c ∈ render a, Text.isBlank c = false := fun a c hc => (hchars a c hc).isBlank
  unfold readRange?
  rw [Text.trim_append_space (hblank b.lo), Text.trim_space_append (hblank b.hi), hread, hread]
  exact Interval.ofBounds?_eq_some_iff.mpr ⟨rfl, rfl⟩

section Words
variable (hne : ∀ a, render a ≠ [])
include hne

theorem isPlainWord_render (a : Number w) : Text.IsPlainWord (render a) := by
  refine ⟨hne a, fun c hc => ⟨(hchars a c hc).isBlank, ?_⟩⟩
  rintro rfl
  exact Ipv6.hyphen_not_mem (hchars a) hc

theorem isPlainWord_of_prefixLen? (h : b.prefixLen? = some len) :
    Text.IsPlainWord (b.render render) := by
  rw [render_of_prefixLen? h]
  refine ⟨by simp, ?_⟩
  intro c hc
  simp only [List.mem_append, List.mem_cons] at hc
  rcases hc with hc | rfl | hc
  · exact (isPlainWord_render hchars hne b.lo).2 c hc
  · decide
  · have hdigit := Ipv6.isAddressChar_of_mem_decimal hc
    refine ⟨hdigit.isBlank, ?_⟩
    rintro rfl
    exact absurd hdigit (by decide)

/-- A block is written as one word, or as two around a hyphen if it is no prefix. -/
theorem render_cases (b : Block w) :
    Text.IsPlainWord (b.render render) ∨ ∃ s t, Text.IsPlainWord s ∧ Text.IsPlainWord t ∧
      b.render render = s ++ " - " ++ t := by
  cases hlen : b.prefixLen? with
  | none =>
    right
    refine ⟨_, _, isPlainWord_render hchars hne b.lo, isPlainWord_render hchars hne b.hi, ?_⟩
    unfold Block.render
    rw [hlen]
  | some len => exact .inl (isPlainWord_of_prefixLen? hchars hne hlen)

end Words

end Family

end Block

namespace IpBlock

/-- The ends of an IPv4 range are addresses, with blanks beside them. -/
theorem mem_of_readRange? {low high : Text} {b : Block 32} {c : Char}
    (h : Block.readRange? Ipv4.read? low high = some b) (hc : c ∈ low ∨ c ∈ high) :
    c.isDigit = true ∨ c = '.' ∨ Text.isBlank c = true := by
  have haddress : ∀ {s : Text} {a : Ipv4}, Ipv4.read? (Text.trim s) = some a → c ∈ s →
      c.isDigit = true ∨ c = '.' ∨ Text.isBlank c = true := by
    intro s a ha hs
    cases hblank : Text.isBlank c with
    | true => exact .inr (.inr rfl)
    | false =>
      have hchar := Ipv4.mem_of_read? ha (Text.mem_trim_of_mem hs hblank)
      exact hchar.imp_right .inl
  obtain ⟨lo, hlo, h⟩ := Option.bind_eq_some_iff.mp h
  obtain ⟨hi, hhi, _⟩ := Option.bind_eq_some_iff.mp h
  exact hc.elim (haddress hlo) (haddress hhi)

theorem mem_of_readV4? {t : Text} {b : IpBlock} (h : readV4? t = some b) {c : Char} (hc : c ∈ t) :
    c.isDigit = true ∨ c = '.' ∨ c = '/' ∨ c = '-' ∨ Text.isBlank c = true := by
  unfold readV4? at h
  split at h
  next low high hcut =>
    obtain ⟨_, hrange, _⟩ := Option.map_eq_some_iff.mp h
    have hends := mem_of_readRange? (c := c) hrange
    rw [Text.cut?_eq_some hcut] at hc
    simp only [List.mem_append, List.mem_cons] at hc
    grind
  next =>
    obtain ⟨_, hblock, _⟩ := Option.map_eq_some_iff.mp h
    obtain ⟨address, rest, a, rfl, ha, hrest⟩ := Block.exists_address_of_readPrefix? hblock
    rcases List.mem_append.mp hc with hc | hc
    · rcases Ipv4.mem_of_read? ha hc with hdigit | hdot
      · exact .inl hdigit
      · exact .inr (.inl hdot)
    · rcases hrest c hc with hslash | hdigit
      · exact .inr (.inr (.inl hslash))
      · exact .inl hdigit

theorem dot_mem_of_readV4? {t : Text} {b : IpBlock} (h : readV4? t = some b) : '.' ∈ t := by
  unfold readV4? at h
  split at h
  next low high hcut =>
    obtain ⟨_, hrange, _⟩ := Option.map_eq_some_iff.mp h
    obtain ⟨lo, hlo, _⟩ := Option.bind_eq_some_iff.mp hrange
    rw [Text.cut?_eq_some hcut]
    exact List.mem_append_left _ (Text.mem_of_mem_trim (Ipv4.dot_mem_of_read? hlo))
  next =>
    obtain ⟨_, hblock, _⟩ := Option.map_eq_some_iff.mp h
    obtain ⟨address, rest, a, rfl, ha, _⟩ := Block.exists_address_of_readPrefix? hblock
    exact List.mem_append_left _ (Ipv4.dot_mem_of_read? ha)

theorem hyphen_not_mem_of_readV6? {t : Text} {b : IpBlock} (h : readV6? t = some b) : '-' ∉ t := by
  obtain ⟨_, hblock, _⟩ := Option.map_eq_some_iff.mp h
  obtain ⟨address, rest, a, rfl, ha, hrest⟩ := Block.exists_address_of_readPrefix? hblock
  rw [List.mem_append]
  rintro (hc | hc)
  · exact absurd (Ipv6.isAddressChar_of_read? ha hc) (by decide)
  · exact absurd (hrest _ hc) (by decide)

theorem colon_mem_of_readV6? {t : Text} {b : IpBlock} (h : readV6? t = some b) : ':' ∈ t := by
  obtain ⟨_, hblock, _⟩ := Option.map_eq_some_iff.mp h
  obtain ⟨address, rest, a, rfl, ha, _⟩ := Block.exists_address_of_readPrefix? hblock
  exact List.mem_append_left _ (Ipv6.colon_mem_of_read? ha)

/-- The characters of blocks of either family. -/
def IsBlockChar (c : Char) : Prop :=
  Ipv6.IsAddressChar c ∨ c = '/' ∨ c = '-' ∨ Text.isBlank c = true

instance (c : Char) : Decidable (IsBlockChar c) :=
  inferInstanceAs (Decidable (_ ∨ _ ∨ _ ∨ _))

theorem isBlockChar_of_isDigit {c : Char} (h : c.isDigit = true) : IsBlockChar c :=
  .inl (.inl (Text.hexDigit?_of_isDigit h))

theorem isBlockChar_of_readV4? {t : Text} {b : IpBlock} (h : readV4? t = some b) {c : Char}
    (hc : c ∈ t) : IsBlockChar c := by
  rcases mem_of_readV4? h hc with hdigit | hdot | hrest
  · exact isBlockChar_of_isDigit hdigit
  · exact .inl (.inr (.inl hdot))
  · exact .inr hrest

theorem isBlockChar_of_readV6? {t : Text} {b : IpBlock} (h : readV6? t = some b) {c : Char}
    (hc : c ∈ t) : IsBlockChar c := by
  obtain ⟨_, hblock, _⟩ := Option.map_eq_some_iff.mp h
  obtain ⟨address, rest, a, rfl, ha, hrest⟩ := Block.exists_address_of_readPrefix? hblock
  rcases List.mem_append.mp hc with hc | hc
  · exact .inl (Ipv6.isAddressChar_of_read? ha hc)
  · rcases hrest c hc with hslash | hdigit
    · exact .inr (.inl hslash)
    · exact isBlockChar_of_isDigit hdigit

theorem isBlockChar_of_read? {t : Text} {b : IpBlock} (h : read? t = some b) {c : Char}
    (hc : c ∈ t) : IsBlockChar c := by
  rcases Option.or_eq_some_iff.mp h with hv4 | ⟨_, hv6⟩
  · exact isBlockChar_of_readV4? hv4 hc
  · exact isBlockChar_of_readV6? hv6 hc

/-- A text with another character is no block. -/
theorem read?_eq_none_of_mem {t : Text} {c : Char} (hc : c ∈ t) (hchar : ¬ IsBlockChar c) :
    read? t = none := by
  cases h : read? t with
  | none => rfl
  | some b => exact absurd (isBlockChar_of_read? h hc) hchar

/-- Only an IPv6 block has a colon. -/
theorem readV4?_eq_none_of_readV6? {t : Text} {b : IpBlock} (h : readV6? t = some b) :
    readV4? t = none := by
  cases hv4 : readV4? t with
  | none => rfl
  | some b' => exact absurd (mem_of_readV4? hv4 (colon_mem_of_readV6? h)) (by decide)

theorem exists_prefixLen?_of_readV6? {t : Text} {b : IpBlock} (h : readV6? t = some b) :
    ∃ len, b.prefixLen? = some len := by
  obtain ⟨block, hblock, rfl⟩ := Option.map_eq_some_iff.mp h
  exact Block.exists_prefixLen?_of_readPrefix? hblock

/-- No IPv4 range has a slash. -/
theorem exists_prefixLen?_of_readV4? {t : Text} {b : IpBlock} (h : readV4? t = some b)
    (hslash : '/' ∈ t) : ∃ len, b.prefixLen? = some len := by
  unfold readV4? at h
  split at h
  next low high hcut =>
    obtain ⟨_, hrange, _⟩ := Option.map_eq_some_iff.mp h
    rw [Text.cut?_eq_some hcut, List.mem_append, List.mem_cons] at hslash
    have hends : '/' ∈ low ∨ '/' ∈ high := hslash.imp_right (Or.resolve_left · (by decide))
    exact absurd (mem_of_readRange? hrange hends) (by decide)
  next =>
    obtain ⟨block, hblock, rfl⟩ := Option.map_eq_some_iff.mp h
    exact Block.exists_prefixLen?_of_readPrefix? hblock

/-- What is read from a text with a slash is a prefix. -/
theorem exists_prefixLen?_of_read? {t : Text} {b : IpBlock} (h : read? t = some b)
    (hslash : '/' ∈ t) : ∃ len, b.prefixLen? = some len := by
  rcases Option.or_eq_some_iff.mp h with hv4 | ⟨_, hv6⟩
  · exact exists_prefixLen?_of_readV4? hv4 hslash
  · exact exists_prefixLen?_of_readV6? hv6

/-- Every IPv4 block is read back. -/
theorem readV4?_render (b : Block 32) : readV4? (b.render Ipv4.render) = some (.v4 b) := by
  have hchars : ∀ a : Ipv4, ∀ c ∈ a.render, Ipv6.IsAddressChar c :=
    fun _ _ => Ipv4.isAddressChar_of_mem_render
  unfold readV4?
  cases hlen : b.prefixLen? with
  | none =>
    have hword := Block.isPlainWord_render hchars Ipv4.render_ne_nil b.lo
    have hhyphen : '-' ∉ Ipv4.render b.lo ++ " " := by
      simp [hword.hyphen_not_mem]
    rw [Block.render_of_range hlen, Text.cut?_append_cons hhyphen]
    dsimp only
    rw [Block.readRange?_render hchars Ipv4.read?_render]
    rfl
  | some len =>
    have hword := Block.isPlainWord_of_prefixLen? hchars Ipv4.render_ne_nil hlen
    rw [Text.cut?_eq_none hword.hyphen_not_mem]
    dsimp only
    rw [Block.readPrefix?_render hchars Ipv4.read?_render hlen]
    rfl

/-- Every IPv6 prefix is read back. -/
theorem readV6?_render {b : Block 128} {len : Nat} (h : b.prefixLen? = some len) :
    readV6? (b.render Ipv6.render) = some (.v6 b) := by
  unfold readV6?
  rw [Block.readPrefix?_render (fun _ _ => Ipv6.isAddressChar_of_mem_render) Ipv6.read?_render h]
  rfl

end IpBlock

end Whois

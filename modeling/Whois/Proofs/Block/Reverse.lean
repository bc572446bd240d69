import Mathlib.Data.List.Basic
import Whois.Block.Reverse
import Whois.Proofs.Block.Prefix
import Whois.Proofs.Text.Case
import Whois.Proofs.Text.Numeral

/-!
Reverse-DNS names. A name is one word that starts with a digit and ends with the name of its zone, in
any case; under `ip6.arpa` it delegates a prefix.
-/
namespace Whois.ReverseName

variable {name : Text} {b : IpBlock}

theorem eq_append_dot (name : Text) :
    ∃ dot : Text, name = (if name.getLast? = some '.' then name.dropLast else name) ++ dot ∧
      (dot = [] ∨ dot = ".") := by
  by_cases h : name.getLast? = some '.'
  · refine ⟨".", ?_, .inr rfl⟩
    rw [if_pos h]
    exact (List.dropLast_append_getLast? '.' h).symm
  · refine ⟨[], ?_, .inl rfl⟩
    rw [if_neg h, List.append_nil]

/-- A name is made of labels, a zone and perhaps a dot. The zone tells the family. -/
theorem exists_labels_of_block? (h : block? name = some b) :
    ∃ labels zone dot : Text, name = labels ++ zone ++ dot ∧ (dot = [] ∨ dot = ".") ∧
      ((Text.alike zone ".in-addr.arpa" = true ∧
          ∃ block, blockV4? (Text.split '.' labels) = some block ∧ b = .v4 block) ∨
        (Text.alike zone ".ip6.arpa" = true ∧
          ∃ block, blockV6? (Text.split '.' labels) = some block ∧ b = .v6 block)) := by
  obtain ⟨dot, hname, hdot⟩ := eq_append_dot name
  unfold block? at h
  dsimp only at h
  split at h
  next labels hv4 =>
    obtain ⟨zone, hzone, halike⟩ := Text.beforeTail?_eq_some hv4
    obtain ⟨block, hblock, rfl⟩ := Option.map_eq_some_iff.mp h
    exact ⟨labels, zone, dot, hzone ▸ hname, hdot, .inl ⟨halike, block, hblock, rfl⟩⟩
  next =>
    split at h
    next labels hv6 =>
      obtain ⟨zone, hzone, halike⟩ := Text.beforeTail?_eq_some hv6
      obtain ⟨block, hblock, rfl⟩ := Option.map_eq_some_iff.mp h
      exact ⟨labels, zone, dot, hzone ▸ hname, hdot, .inr ⟨halike, block, hblock, rfl⟩⟩
    next => cases h

/-- Every zone has an `r` in its name. -/
theorem r_mem_of_block? (h : block? name = some b) : 'r' ∈ name ∨ 'R' ∈ name := by
  obtain ⟨labels, zone, dot, rfl, _, hzone⟩ := exists_labels_of_block? h
  have hr : 'r' ∈ zone ∨ 'R' ∈ zone := by
    rcases hzone with ⟨halike, _⟩ | ⟨halike, _⟩
    · exact Text.mem_or_toUpper_mem_of_alike halike (c := 'r') (by decide)
    · exact Text.mem_or_toUpper_mem_of_alike halike (c := 'r') (by decide)
  simp only [List.mem_append]
  exact hr.imp (fun hc => .inl (.inr hc)) (fun hc => .inl (.inr hc))

/-- Nibbles name a prefix. -/
theorem exists_prefixLen?_of_blockV6? {labels : List Text} {b : Block 128}
    (h : blockV6? labels = some b) : ∃ len, b.prefixLen? = some len := by
  obtain ⟨nibbles, _, hblock⟩ := Option.bind_eq_some_iff.mp h
  exact ⟨_, Block.prefixLen?_of_leading? hblock⟩

/-- The IPv6 blocks that names delegate are prefixes. -/
theorem exists_prefixLen?_of_block? {block : Block 128} (h : block? name = some (.v6 block)) :
    ∃ len, block.prefixLen? = some len := by
  obtain ⟨labels, _, _, _, _, ⟨_, _, _, hfamily⟩ | ⟨_, _, hblock, hfamily⟩⟩ :=
    exists_labels_of_block? h
  · cases hfamily
  · cases hfamily
    exact exists_prefixLen?_of_blockV6? hblock

section Labels
variable {label : Text} {c : Char}

/-- The characters of labels, and the dots between them. -/
def IsLabelChar (c : Char) : Prop := (Text.hexDigit? c).isSome = true ∨ c = '-' ∨ c = '.'

instance (c : Char) : Decidable (IsLabelChar c) := inferInstanceAs (Decidable (_ ∨ _ ∨ _))

theorem isDigit_of_octet? {octet : Fin 256} (h : octet? label = some octet) :
    label ≠ [] ∧ ∀ c ∈ label, c.isDigit = true := by
  have hnumber := Text.natural?_of_below? h
  exact ⟨Text.ne_nil_of_natural? hnumber, fun _ => Text.isDigit_of_natural? hnumber⟩

theorem isLabelChar_of_isDigit (h : c.isDigit = true) : IsLabelChar c :=
  .inl (Text.hexDigit?_of_isDigit h)

/-- Whether a label starts with a digit and goes on with the characters of labels. -/
def IsLabel (label : Text) : Prop :=
  (∃ c, label.head? = some c ∧ (Text.hexDigit? c).isSome = true) ∧ ∀ c ∈ label, IsLabelChar c

theorem isLabel_of_digits (hne : label ≠ []) (h : ∀ c ∈ label, c.isDigit = true) : IsLabel label := by
  obtain ⟨c, rest, rfl⟩ := List.exists_cons_of_ne_nil hne
  exact ⟨⟨c, rfl, Text.hexDigit?_of_isDigit (h c List.mem_cons_self)⟩,
    fun d hd => isLabelChar_of_isDigit (h d hd)⟩

theorem isLabel_of_octet? {octet : Fin 256} (h : octet? label = some octet) : IsLabel label :=
  isLabel_of_digits (isDigit_of_octet? h).1 (isDigit_of_octet? h).2

theorem isLabel_of_octetRange? {range : Fin 256 × Fin 256} (h : octetRange? label = some range) :
    IsLabel label := by
  unfold octetRange? at h
  split at h
  next low high hcut =>
    obtain ⟨_, hlow, h⟩ := Option.bind_eq_some_iff.mp h
    obtain ⟨_, hhigh, _⟩ := Option.bind_eq_some_iff.mp h
    obtain ⟨⟨c, hhead, hdigit⟩, hlow⟩ := isLabel_of_octet? hlow
    obtain ⟨_, hhigh⟩ := isLabel_of_octet? hhigh
    rw [Text.cut?_eq_some hcut]
    refine ⟨⟨c, by simp [hhead], hdigit⟩, ?_⟩
    intro d hd
    rw [List.mem_append, List.mem_cons] at hd
    rcases hd with hd | rfl | hd
    · exact hlow d hd
    · exact .inr (.inl rfl)
    · exact hhigh d hd
  next =>
    obtain ⟨_, hoctet, _⟩ := Option.map_eq_some_iff.mp h
    exact isLabel_of_octet? hoctet

theorem isLabel_of_nibble? {nibble : Fin 16} (h : nibble? label = some nibble) : IsLabel label := by
  match label, h with
  | [c], h =>
    have hdigit : (Text.hexDigit? c).isSome = true := Option.isSome_iff_exists.mpr ⟨_, h⟩
    exact ⟨⟨c, rfl, hdigit⟩, fun d hd => .inl (List.mem_singleton.mp hd ▸ hdigit)⟩

theorem isLabel_of_blockV4? {labels : List Text} {block : Block 32}
    (h : blockV4? labels = some block) : ∀ label ∈ labels, IsLabel label := by
  cases labels with
  | nil => cases h
  | cons label parents =>
    obtain ⟨range, hrange, h⟩ := Option.bind_eq_some_iff.mp h
    obtain ⟨octets, hoctets, _⟩ := Option.bind_eq_some_iff.mp h
    refine List.forall_mem_cons.mpr ⟨isLabel_of_octetRange? hrange, ?_⟩
    intro parent hparent
    obtain ⟨octet, hoctet⟩ := exists_of_mapM_eq_some hoctets hparent
    exact isLabel_of_octet? hoctet

theorem isLabel_of_blockV6? {labels : List Text} {block : Block 128}
    (h : blockV6? labels = some block) : ∀ label ∈ labels, IsLabel label := by
  obtain ⟨nibbles, hnibbles, _⟩ := Option.bind_eq_some_iff.mp h
  intro label hlabel
  obtain ⟨nibble, hnibble⟩ := exists_of_mapM_eq_some hnibbles hlabel
  exact isLabel_of_nibble? hnibble

/-- Labels with dots between them look like one label. -/
theorem isLabel_of_split (h : ∀ part ∈ Text.split '.' label, IsLabel part) : IsLabel label := by
  obtain ⟨first, parts, hsplit⟩ :=
    List.exists_cons_of_ne_nil (Text.splitWhere_ne_nil (· == '.') label)
  change Text.split '.' label = first :: parts at hsplit
  constructor
  · obtain ⟨c, hhead, hdigit⟩ := (h first (hsplit ▸ List.mem_cons_self)).1
    refine ⟨c, ?_, hdigit⟩
    rw [Text.head?_of_split hsplit (by rintro rfl; cases hhead), hhead]
  · intro c hc
    by_cases hdot : c = '.'
    · exact .inr (.inr hdot)
    · obtain ⟨part, hpart, hcpart⟩ := Text.exists_mem_split hc hdot
      exact (h part hpart).2 c hcpart

end Labels

theorem IsLabelChar.isBlank {c : Char} (h : IsLabelChar c) : Text.isBlank c = false := by
  rcases h with hdigit | rfl | rfl
  · exact Text.isBlank_of_hexDigit? hdigit
  · rfl
  · rfl

theorem isBlank_of_alike_zone {zone : Text} {c : Char}
    (h : Text.alike zone ".in-addr.arpa" = true ∨ Text.alike zone ".ip6.arpa" = true)
    (hc : c ∈ zone) : Text.isBlank c = false := by
  have hcases : ∀ s : Text, Text.alike zone s = true →
      (Text.lower s ++ Text.upper (Text.lower s)).all (fun d => !Text.isBlank d) = true →
      Text.isBlank c = false := by
    intro s halike hall
    have hmem := List.all_eq_true.mp hall c (List.mem_append.mpr (Text.mem_of_alike halike hc))
    simpa using hmem
  rcases h with hv4 | hv6
  · exact hcases _ hv4 (by decide)
  · exact hcases _ hv6 (by decide)

/-- A name is one word, and starts with a digit. -/
theorem isWord_of_block? (h : block? name = some b) :
    Text.IsWord name ∧ name.head? ≠ some '-' := by
  obtain ⟨labels, zone, dot, rfl, hdot, hzone⟩ := exists_labels_of_block? h
  have hlabels : IsLabel labels := by
    apply isLabel_of_split
    rcases hzone with ⟨_, _, hblock, _⟩ | ⟨_, _, hblock, _⟩
    · exact isLabel_of_blockV4? hblock
    · exact isLabel_of_blockV6? hblock
  have hzone := hzone.imp And.left And.left
  obtain ⟨⟨c, hhead, hdigit⟩, hchars⟩ := hlabels
  have hname : (labels ++ zone ++ dot).head? = some c := by simp [hhead]
  refine ⟨⟨?_, ?_⟩, ?_⟩
  · intro hnil
    rw [hnil] at hname
    cases hname
  · intro d hd
    rw [List.mem_append, List.mem_append] at hd
    rcases hd with (hd | hd) | hd
    · exact (hchars d hd).isBlank
    · exact isBlank_of_alike_zone hzone hd
    · rcases hdot with rfl | rfl
      · cases hd
      · rw [List.mem_singleton.mp hd]
        rfl
  · rw [hname]
    rintro ⟨⟩
    cases hdigit

end Whois.ReverseName

import Whois.NameSyntax
import Whois.Proofs.Block.Ip
import Whois.Proofs.Block.Autonomous
import Whois.Proofs.SearchForm

/-!
The characters of names. Names of objects, NIC handles and key certificates have letters, digits,
hyphens and underscores only, and the names of sets colons besides. So the marks in the text of an
address tell it from a name. No syntax depends on case.
-/
namespace Whois.NameSyntax

variable {t mark : Text} {c : Char}

theorem isAlphanum_of_isAlpha (h : c.isAlpha = true) : c.isAlphanum = true :=
  Bool.or_eq_true_iff.mpr (.inl h)

theorem isAlphanum_of_isDigit (h : c.isDigit = true) : c.isAlphanum = true :=
  Bool.or_eq_true_iff.mpr (.inr h)

theorem isUpper_iff : c.isUpper = true ↔ 65 ≤ c.toNat ∧ c.toNat ≤ 90 :=
  decide_eq_true_iff.trans (and_congr UInt32.le_iff_toNat_le UInt32.le_iff_toNat_le)

theorem isLower_iff : c.isLower = true ↔ 97 ≤ c.toNat ∧ c.toNat ≤ 122 :=
  Bool.and_eq_true_iff.trans (and_congr (decide_eq_true_iff.trans UInt32.le_iff_toNat_le)
    (decide_eq_true_iff.trans UInt32.le_iff_toNat_le))

theorem isDigit_iff : c.isDigit = true ↔ 48 ≤ c.toNat ∧ c.toNat ≤ 57 :=
  Bool.and_eq_true_iff.trans (and_congr (decide_eq_true_iff.trans UInt32.le_iff_toNat_le)
    (decide_eq_true_iff.trans UInt32.le_iff_toNat_le))

theorem isAlpha_iff :
    c.isAlpha = true ↔ 65 ≤ c.toNat ∧ c.toNat ≤ 90 ∨ 97 ≤ c.toNat ∧ c.toNat ≤ 122 :=
  Bool.or_eq_true_iff.trans (or_congr isUpper_iff isLower_iff)

theorem isObjectNameChar_of_isAlphanum (h : c.isAlphanum = true) : isObjectNameChar c = true := by
  simp [isObjectNameChar, h]

theorem isObjectNameChar_of_isObjectName (h : isObjectName t = true) (hc : c ∈ t) :
    isObjectNameChar c = true := by
  obtain ⟨_, hrest⟩ := Bool.and_eq_true_iff.mp h
  obtain ⟨_, hall⟩ := Bool.and_eq_true_iff.mp hrest
  exact List.all_eq_true.mp hall c hc

theorem isObjectNameChar_of_isMarkedName (h : isMarkedName mark t = true) (hc : c ∈ t) :
    isObjectNameChar c = true :=
  isObjectNameChar_of_isObjectName (Bool.and_eq_true_iff.mp h).2 hc

theorem isObjectNameChar_of_isAsNumber (h : isAsNumber t = true) (hc : c ∈ t) :
    isObjectNameChar c = true := by
  obtain ⟨n, hn⟩ := Option.isSome_iff_exists.mp h
  rcases AsNumber.mem_of_read (eq_ok_of_toOption hn) hc with hletter | hdigit
  · have hletters : ("asAS" : Text).all isObjectNameChar = true := by decide
    exact List.all_eq_true.mp hletters c hletter
  · exact isObjectNameChar_of_isAlphanum (isAlphanum_of_isDigit hdigit)

theorem char_of_isSetName (h : isSetName mark t = true) (hc : c ∈ t) :
    c = ':' ∨ isObjectNameChar c = true := by
  obtain ⟨hall, _⟩ := Bool.and_eq_true_iff.mp h
  by_cases hcolon : c = ':'
  · exact .inl hcolon
  · right
    obtain ⟨part, hpart, hcpart⟩ := Text.exists_mem_split hc hcolon
    have hname := List.all_eq_true.mp hall part hpart
    simp only [Bool.or_eq_true] at hname
    rcases hname with (hmarked | has) | hobject
    · exact isObjectNameChar_of_isMarkedName hmarked hcpart
    · exact isObjectNameChar_of_isAsNumber has hcpart
    · exact isObjectNameChar_of_isObjectName hobject hcpart

/-- One of the components has the mark of the class, which has a hyphen in it. -/
theorem hyphen_mem_of_isSetName (h : isSetName mark t = true) (hmark : '-' ∈ Text.lower mark) :
    '-' ∈ t := by
  obtain ⟨_, hany⟩ := Bool.and_eq_true_iff.mp h
  obtain ⟨part, hpart, hmarked⟩ := List.any_eq_true.mp hany
  obtain ⟨hlead, _⟩ := Bool.and_eq_true_iff.mp hmarked
  obtain ⟨rest, hrest, _⟩ := (Option.any_eq_true _ _).mp hlead
  obtain ⟨start, rfl, halike⟩ := Text.afterLead?_eq_some hrest
  have hstart : '-' ∈ start :=
    (Text.mem_or_toUpper_mem_of_alike halike hmark).elim id id
  exact Text.mem_of_mem_split hpart (List.mem_append_left _ hstart)

theorem isObjectNameChar_of_isDigits (h : isDigits t = true) (hc : c ∈ t) :
    isObjectNameChar c = true := by
  obtain ⟨_, hall⟩ := Bool.and_eq_true_iff.mp h
  exact isObjectNameChar_of_isAlphanum (isAlphanum_of_isDigit (List.all_eq_true.mp hall c hc))

theorem isObjectNameChar_of_isNicSuffix (h : isNicSuffix t = true) (hc : c ∈ t) :
    isObjectNameChar c = true := by
  obtain ⟨_, hall⟩ := Bool.and_eq_true_iff.mp h
  exact isObjectNameChar_of_isAlphanum (List.all_eq_true.mp hall c hc)

theorem isObjectNameChar_of_isNicHead (h : isNicHead t = true) (hc : c ∈ t) :
    isObjectNameChar c = true := by
  obtain ⟨_, hdigits⟩ := Bool.and_eq_true_iff.mp h
  apply isObjectNameChar_of_isAlphanum
  rw [← List.takeWhile_append_dropWhile (p := Char.isAlpha) (l := t), List.mem_append] at hc
  rcases hc with hletter | hdigit
  · exact isAlphanum_of_isAlpha (List.all_eq_true.mp List.all_takeWhile c hletter)
  · exact isAlphanum_of_isDigit (List.all_eq_true.mp hdigits c hdigit)

/-- Texts that are alike to a lead are made of its characters, in either case. -/
theorem isObjectNameChar_of_alike {lead : Text} (h : Text.alike t lead = true)
    (hlower : (Text.lower lead).all isObjectNameChar = true)
    (hupper : (Text.upper (Text.lower lead)).all isObjectNameChar = true) (hc : c ∈ t) :
    isObjectNameChar c = true := by
  rcases Text.mem_of_alike h hc with hc | hc
  · exact List.all_eq_true.mp hlower c hc
  · exact List.all_eq_true.mp hupper c hc

theorem isObjectNameChar_of_isNicHandle (h : isNicHandle t = true) (hc : c ∈ t) :
    isObjectNameChar c = true := by
  unfold isNicHandle at h
  split at h
  next head suffix hcut =>
    rw [Text.cut?_eq_some hcut, List.mem_append, List.mem_cons] at hc
    split at h
    next hauto =>
      rcases hc with hc | rfl | hc
      · exact isObjectNameChar_of_alike hauto (by decide) (by decide) hc
      · decide
      · exact isObjectNameChar_of_isDigits h hc
    next =>
      obtain ⟨hhead, hsuffix⟩ := Bool.and_eq_true_iff.mp h
      rcases hc with hc | rfl | hc
      · exact isObjectNameChar_of_isNicHead hhead hc
      · decide
      · exact isObjectNameChar_of_isNicSuffix hsuffix hc
  next => exact isObjectNameChar_of_isNicHead (Bool.and_eq_true_iff.mp h).2 hc

theorem isAlphanum_of_isHexDigit (h : isHexDigit c = true) : c.isAlphanum = true := by
  have hrange : 48 ≤ c.toNat ∧ c.toNat ≤ 57 ∨
      65 ≤ c.toNat ∧ c.toNat ≤ 70 ∨ 97 ≤ c.toNat ∧ c.toNat ≤ 102 := by
    by_contra hnot
    unfold isHexDigit Text.hexDigit? at h
    rw [dif_neg (by omega), dif_neg (by omega), dif_neg (by omega)] at h
    cases h
  rcases hrange with hdigit | hletter
  · exact isAlphanum_of_isDigit (isDigit_iff.mpr hdigit)
  · exact isAlphanum_of_isAlpha (isAlpha_iff.mpr (by omega))

theorem isObjectNameChar_of_isKeyCert (h : isKeyCert t = true) (hc : c ∈ t) :
    isObjectNameChar c = true := by
  unfold isKeyCert at h
  split at h
  next id hid =>
    obtain ⟨start, rfl, halike⟩ := Text.afterLead?_eq_some hid
    obtain ⟨_, hall⟩ := Bool.and_eq_true_iff.mp h
    rcases List.mem_append.mp hc with hc | hc
    · exact isObjectNameChar_of_alike halike (by decide) (by decide) hc
    · exact isObjectNameChar_of_isAlphanum
        (isAlphanum_of_isHexDigit (List.all_eq_true.mp hall c hc))
  next =>
    obtain ⟨number, hnumber, hdigits⟩ := (Option.any_eq_true _ _).mp h
    obtain ⟨start, rfl, halike⟩ := Text.afterLead?_eq_some hnumber
    rcases List.mem_append.mp hc with hc | hc
    · exact isObjectNameChar_of_alike halike (by decide) (by decide) hc
    · exact isObjectNameChar_of_isDigits hdigits hc

theorem char_of_isPersonName (h : isPersonName t = true) (hc : c ∈ t) :
    Text.isBlank c = true ∨ c.isAlphanum = true ∨ c ∈ (".'`-_" : Text) := by
  obtain ⟨_, hall⟩ := Bool.and_eq_true_iff.mp h
  cases hblank : Text.isBlank c with
  | true => exact .inl rfl
  | false =>
    right
    obtain ⟨word, hword, hcword⟩ := Text.exists_mem_words hc hblank
    have hperson := List.all_eq_true.mp hall word hword
    obtain ⟨_, hchars⟩ := Bool.and_eq_true_iff.mp hperson
    have hchar := List.all_eq_true.mp hchars c hcword
    simpa using hchar

theorem exists_isAlpha_of_isPersonName (h : isPersonName t = true) : ∃ c ∈ t, c.isAlpha = true := by
  obtain ⟨hlength, hall⟩ := Bool.and_eq_true_iff.mp h
  have hlength : 2 ≤ (Text.words t).length := of_decide_eq_true hlength
  obtain ⟨word, hword⟩ := List.exists_mem_of_length_pos (by omega : 0 < (Text.words t).length)
  have hperson := List.all_eq_true.mp hall word hword
  obtain ⟨hhead, _⟩ := Bool.and_eq_true_iff.mp hperson
  obtain ⟨c, hc, halpha⟩ := (Option.any_eq_true _ _).mp hhead
  exact ⟨c, Text.mem_of_mem_words hword (List.mem_of_head? hc), halpha⟩

/-- Whether a text has no syntax of a name other than a domain name. The classes of sets have marks
with a hyphen. -/
structure IsNoName (t : Text) : Prop where
  object : isObjectName t = false
  marked : ∀ mark, isMarkedName mark t = false
  set : ∀ mark : Text, '-' ∈ Text.lower mark → isSetName mark t = false
  nicHandle : isNicHandle t = false
  keyCert : isKeyCert t = false
  person : isPersonName t = false

theorem isNoName_of_marks (hmark : c ∈ t) (hchar : isObjectNameChar c = false)
    (hset : c ≠ ':' ∨ '-' ∉ t) (hperson : isPersonName t = false) : IsNoName t := by
  have hrefute : ∀ {b : Bool}, (b = true → isObjectNameChar c = true) → b = false := by
    intro b h
    cases b with
    | true => exact absurd (h rfl) (by simp [hchar])
    | false => rfl
  constructor
  case object => exact hrefute fun h => isObjectNameChar_of_isObjectName h hmark
  case marked => exact fun mark => hrefute fun h => isObjectNameChar_of_isMarkedName h hmark
  case set =>
    intro mark hhyphen
    apply hrefute
    intro h
    rcases hset with hcolon | hnone
    · exact (char_of_isSetName h hmark).resolve_left hcolon
    · exact absurd (hyphen_mem_of_isSetName h hhyphen) hnone
  case nicHandle => exact hrefute fun h => isObjectNameChar_of_isNicHandle h hmark
  case keyCert => exact hrefute fun h => isObjectNameChar_of_isKeyCert h hmark
  case person => exact hperson

theorem isAlpha_eq_false_of_isDigit (h : c.isDigit = true) : c.isAlpha = false := by
  rw [isDigit_iff] at h
  rw [Bool.eq_false_iff, ne_eq, isAlpha_iff]
  omega

theorem isAlpha_eq_false_of_isBlank (h : Text.isBlank c = true) : c.isAlpha = false := by
  simp only [Text.isBlank, Bool.or_eq_true, decide_eq_true_eq, beq_iff_eq] at h
  rw [Bool.eq_false_iff, ne_eq, isAlpha_iff]
  omega

theorem isPersonName_eq_false_of_mem (hc : c ∈ t) (hchar : ¬ (Text.isBlank c = true ∨
    c.isAlphanum = true ∨ c ∈ (".'`-_" : Text))) : isPersonName t = false := by
  rw [Bool.eq_false_iff]
  exact fun h => hchar (char_of_isPersonName h hc)

/-- IPv4 texts have dots and no letters. -/
theorem isNoName_of_readV4? {b : IpBlock} (h : IpBlock.readV4? t = some b) : IsNoName t := by
  apply isNoName_of_marks (IpBlock.dot_mem_of_readV4? h) (by decide) (.inl (by decide))
  rw [Bool.eq_false_iff]
  intro hperson
  obtain ⟨c, hc, halpha⟩ := exists_isAlpha_of_isPersonName hperson
  have hnot : c.isAlpha = false := by
    rcases IpBlock.mem_of_readV4? h hc with hdigit | rfl | rfl | rfl | hblank
    · exact isAlpha_eq_false_of_isDigit hdigit
    · decide
    · decide
    · decide
    · exact isAlpha_eq_false_of_isBlank hblank
  rw [hnot] at halpha
  cases halpha

/-- IPv6 texts have colons and no hyphens. -/
theorem isNoName_of_readV6? {b : IpBlock} (h : IpBlock.readV6? t = some b) : IsNoName t :=
  have hcolon := IpBlock.colon_mem_of_readV6? h
  isNoName_of_marks hcolon (by decide) (.inr (IpBlock.hyphen_not_mem_of_readV6? h))
    (isPersonName_eq_false_of_mem hcolon (by decide))

/-- Routes have slashes. -/
theorem isNoName_of_slash_mem (h : '/' ∈ t) : IsNoName t :=
  isNoName_of_marks h (by decide) (.inl (by decide)) (isPersonName_eq_false_of_mem h (by decide))

section Case

theorem isObjectNameChar_toLower : ∀ c : Char, isObjectNameChar c.toLower = isObjectNameChar c :=
  Text.toLower_eq_of_ascii (by decide)

theorem isHexDigit_toLower (c : Char) : isHexDigit c.toLower = isHexDigit c := by
  unfold isHexDigit
  rw [Text.hexDigit?_toLower]

theorem isDigits_lower (t : Text) : isDigits (Text.lower t) = isDigits t := Text.isNumeral_lower t

theorem isObjectName_lower (t : Text) : isObjectName (Text.lower t) = isObjectName t := by
  unfold isObjectName
  rw [Text.any_head?_lower Text.isAlpha_toLower, Text.any_getLast?_lower Text.isAlphanum_toLower,
    Text.length_lower, Text.all_lower isObjectNameChar_toLower]

theorem isMarkedName_lower (mark t : Text) :
    isMarkedName mark (Text.lower t) = isMarkedName mark t := by
  unfold isMarkedName
  rw [Text.afterLead?_lower, Option.any_map, isObjectName_lower]
  simp only [Text.isEmpty_lower]

theorem isAsNumber_lower (t : Text) : isAsNumber (Text.lower t) = isAsNumber t := by
  unfold isAsNumber
  rw [AsNumber.read_lower]

theorem isSetName_lower (mark t : Text) : isSetName mark (Text.lower t) = isSetName mark t := by
  unfold isSetName
  rw [Text.split_lower Text.isMark_colon]
  dsimp only
  rw [List.all_map, List.any_map]
  congr 2
  · funext component
    simp only [Function.comp, isMarkedName_lower, isAsNumber_lower, isObjectName_lower]
  · exact funext (isMarkedName_lower mark)

theorem isNicSuffix_lower (t : Text) : isNicSuffix (Text.lower t) = isNicSuffix t := by
  unfold isNicSuffix
  rw [Text.length_lower, Text.all_lower Text.isAlphanum_toLower]

theorem isNicHead_lower (t : Text) : isNicHead (Text.lower t) = isNicHead t := by
  unfold isNicHead
  rw [Text.takeWhile_lower Text.isAlpha_toLower, Text.dropWhile_lower Text.isAlpha_toLower]
  dsimp only
  rw [Text.length_lower, Text.length_lower, Text.all_lower Text.isDigit_toLower]

theorem isNicHandle_lower (t : Text) : isNicHandle (Text.lower t) = isNicHandle t := by
  unfold isNicHandle
  rw [Text.cut?_lower Text.isMark_hyphen]
  cases Text.cut? '-' t with
  | none =>
    dsimp only [Option.map_none]
    rw [Text.alike_lower, isNicHead_lower]
  | some parts =>
    obtain ⟨head, suffix⟩ := parts
    dsimp only [Option.map_some, Prod.map]
    rw [Text.alike_lower, isDigits_lower, isNicHead_lower, isNicSuffix_lower]

theorem isKeyCert_lower (t : Text) : isKeyCert (Text.lower t) = isKeyCert t := by
  unfold isKeyCert
  rw [Text.afterLead?_lower, Text.afterLead?_lower]
  cases Text.afterLead? "PGPKEY-" t with
  | some id =>
    dsimp only [Option.map_some]
    rw [Text.length_lower, Text.all_lower isHexDigit_toLower]
  | none =>
    dsimp only [Option.map_none]
    rw [Option.any_map]
    congr 1
    exact funext isDigits_lower

theorem isPersonWord_lower (t : Text) : isPersonWord (Text.lower t) = isPersonWord t := by
  unfold isPersonWord
  rw [Text.any_head?_lower Text.isAlpha_toLower, Text.all_lower_of_ascii]
  decide

theorem isPersonName_lower (t : Text) : isPersonName (Text.lower t) = isPersonName t := by
  unfold isPersonName
  rw [Text.words_lower]
  dsimp only
  rw [List.length_map, List.all_map]
  congr 2
  exact funext isPersonWord_lower

theorem isDomainLabel_lower (t : Text) : isDomainLabel (Text.lower t) = isDomainLabel t := by
  have hfirst : ((Text.lower t).head? != some '-') = (t.head? != some '-') := by
    rw [Bool.eq_iff_iff, bne_iff_ne, bne_iff_ne, ne_eq, Text.head?_lower Text.isMark_hyphen]
  have hlast : ((Text.lower t).getLast? != some '-') = (t.getLast? != some '-') := by
    rw [Bool.eq_iff_iff, bne_iff_ne, bne_iff_ne, ne_eq, Text.getLast?_lower Text.isMark_hyphen]
  unfold isDomainLabel
  rw [Text.length_lower, hfirst, hlast, Text.all_lower_of_ascii]
  decide

theorem isDomainName_lower (t : Text) : isDomainName (Text.lower t) = isDomainName t := by
  unfold isDomainName
  rw [ReverseName.withoutDot_lower]
  dsimp only
  rw [Text.length_lower, Text.contains_lower Text.isMark_dot, Text.split_lower Text.isMark_dot,
    List.all_map]
  congr 2
  exact funext isDomainLabel_lower

end Case

end Whois.NameSyntax

import Whois.Proofs.NameSyntax
import Whois.Target

/-!
Ranges of AS numbers as names. With blanks around its hyphen a range is no name. Without them it is
one that a maintainer may have, and if its numbers are small also a NIC handle.
-/
namespace Whois

namespace NameSyntax

variable (r : AsRange)

/-- The hyphen between the blanks is no word of the name of a person. -/
theorem isNoName_render : IsNoName r.render := by
  have hspace : ' ' ∈ r.render := by
    rw [AsRange.render_eq]
    simp
  have hhyphen : isPersonWord ['-'] = false := by decide
  apply isNoName_of_marks hspace (by decide) (.inl (by decide))
  unfold isPersonName
  rw [AsRange.words_render]
  simp [hhyphen]

theorem length_renderCompact_le : r.renderCompact.length ≤ 25 := by
  have hnumber : ∀ n : AsNumber, (AsNumber.render n).length ≤ 12 := by
    intro n
    have hlt : n.val < 10 ^ 10 := Nat.lt_trans n.isLt (by decide)
    have hdigits := (Text.length_decimal_le_iff (by decide)).mpr hlt
    change (Text.decimal n.val).length + 2 ≤ 12
    omega
  have hlo := hnumber r.lo
  have hhi := hnumber r.hi
  rw [AsRange.renderCompact_eq, List.length_append, List.length_cons]
  omega

theorem isObjectName_renderCompact : isObjectName r.renderCompact = true := by
  have hlength := length_renderCompact_le r
  have hhead : r.renderCompact.head?.any Char.isAlpha = true := rfl
  have hlast : r.renderCompact.getLast?.any Char.isAlphanum = true := by
    have hdigits := Text.decimal_ne_nil r.hi.val
    have hsplit : r.renderCompact = (AsNumber.render r.lo ++ "-AS") ++ Text.decimal r.hi.val := by
      simp [AsRange.renderCompact, AsNumber.render]
    rw [hsplit, List.getLast?_append, List.getLast?_eq_some_getLast hdigits, Option.some_or,
      Option.any_some]
    exact isAlphanum_of_isDigit (Text.isDigit_of_mem_decimal (List.getLast_mem hdigits))
  have hall : r.renderCompact.all isObjectNameChar = true := by
    rw [List.all_eq_true]
    intro c hc
    rcases AsRange.mem_renderCompact hc with rfl | rfl | rfl | hdigit
    · decide
    · decide
    · decide
    · exact isObjectNameChar_of_isAlphanum (isAlphanum_of_isDigit hdigit)
  unfold isObjectName
  rw [hhead, hlast, hall, decide_eq_true (by omega : r.renderCompact.length ≤ 80)]
  rfl

/-- The marks of all classes of objects that are named so, but for key certificates. -/
def classMarks : List Text :=
  ["AS-", "RS-", "FLTR-", "PRNG-", "RTRS-", "IRT-", "POEM-", "FORM-", "ORG-"]

/-- No mark stands at the start of a range: even after `AS` a range goes on with a digit. -/
theorem afterLead?_renderCompact {mark : Text} (h : mark ∈ classMarks) :
    Text.afterLead? mark r.renderCompact = none := by
  obtain ⟨d, rest, hdigits⟩ := List.exists_cons_of_ne_nil (Text.decimal_ne_nil r.lo.val)
  have hd : d.isDigit = true := Text.isDigit_of_mem_decimal (hdigits ▸ List.mem_cons_self)
  have hhyphen : '-'.toLower ≠ d.toLower := by
    rw [Text.toLower_of_isDigit hd]
    rintro rfl
    cases hd
  have hrange : r.renderCompact = 'A' :: 'S' :: d :: (rest ++ "-" ++ AsNumber.render r.hi) := by
    have hsplit : r.renderCompact =
        'A' :: 'S' :: (Text.decimal r.lo.val ++ "-" ++ AsNumber.render r.hi) := rfl
    rw [hsplit, hdigits]
    rfl
  rw [hrange]
  simp only [classMarks, List.mem_cons, List.not_mem_nil, or_false] at h
  rcases h with rfl | rfl | rfl | rfl | rfl | rfl | rfl | rfl | rfl
  · exact if_neg hhyphen
  all_goals rfl

theorem isMarkedName_renderCompact {mark : Text} (h : mark ∈ classMarks) :
    isMarkedName mark r.renderCompact = false := by
  unfold isMarkedName
  rw [afterLead?_renderCompact r h]
  rfl

theorem isSetName_renderCompact {mark : Text} (h : mark ∈ classMarks) :
    isSetName mark r.renderCompact = false := by
  have hcolon : ':' ∉ r.renderCompact := fun hc => absurd (AsRange.mem_renderCompact hc) (by decide)
  unfold isSetName
  rw [Text.split_of_not_mem hcolon]
  simp [isMarkedName_renderCompact r h]

theorem isKeyCert_renderCompact : isKeyCert r.renderCompact = false := rfl

theorem isPersonName_renderCompact : isPersonName r.renderCompact = false := by
  unfold isPersonName
  rw [Text.words_of_isWord r.isWord_renderCompact]
  rfl

theorem isNicHead_render_iff (n : AsNumber) : isNicHead n.render = true ↔ n.val < 10 ^ 6 := by
  have hdigit : ∀ c ∈ Text.decimal n.val, c.isDigit = true := fun _ => Text.isDigit_of_mem_decimal
  have hall : (Text.decimal n.val).all Char.isDigit = true := List.all_eq_true.mpr hdigit
  obtain ⟨d, rest, hdigits⟩ := List.exists_cons_of_ne_nil (Text.decimal_ne_nil n.val)
  have hd : d.isAlpha = false :=
    isAlpha_eq_false_of_isDigit (hdigit d (hdigits ▸ List.mem_cons_self))
  have hsplit : n.render = "AS" ++ Text.decimal n.val := rfl
  have hmark : ∀ c ∈ ("AS" : Text), c.isAlpha = true := List.all_eq_true.mp rfl
  have hletters : n.render.takeWhile Char.isAlpha = "AS" := by
    rw [hsplit, List.takeWhile_append_of_pos hmark, hdigits, List.takeWhile_cons, hd]
    rfl
  have hrest : n.render.dropWhile Char.isAlpha = Text.decimal n.val := by
    rw [hsplit, List.dropWhile_append_of_pos hmark, hdigits, List.dropWhile_cons, hd]
    rfl
  have htwo : decide (2 ≤ ("AS" : Text).length ∧ ("AS" : Text).length ≤ 4) = true := by decide
  unfold isNicHead
  dsimp only
  rw [hletters, hrest, hall, htwo, Bool.true_and, Bool.and_true, decide_eq_true_iff]
  exact Text.length_decimal_le_iff (by decide)

theorem isNicSuffix_render_iff (n : AsNumber) : isNicSuffix n.render = true ↔ n.val < 10 ^ 8 := by
  have hlength : n.render.length = (Text.decimal n.val).length + 2 := rfl
  have hdecimal : (Text.decimal n.val).length ≤ 8 ↔ n.val < 10 ^ 8 :=
    Text.length_decimal_le_iff (by decide)
  have hall : n.render.all Char.isAlphanum = true := by
    rw [List.all_eq_true]
    intro c hc
    rcases AsNumber.mem_render hc with rfl | rfl | hdigit
    · decide
    · decide
    · exact isAlphanum_of_isDigit hdigit
  unfold isNicSuffix
  rw [hall, Bool.and_true, decide_eq_true_iff, hlength, ← hdecimal]
  omega

/-- The first number has the digits of a handle, and the second is its suffix. -/
theorem isNicHandle_renderCompact_iff :
    isNicHandle r.renderCompact = true ↔ r.lo.val < 10 ^ 6 ∧ r.hi.val < 10 ^ 8 := by
  have hauto : Text.alike (AsNumber.render r.lo) "AUTO" = false := by
    rw [Bool.eq_false_iff]
    intro h
    have hlower := Text.lower_eq_of_alike h
    cases hlower
  unfold isNicHandle
  rw [AsRange.renderCompact_eq,
    Text.cut?_append_cons (AsNumber.isPlainWord_render r.lo).hyphen_not_mem]
  dsimp only
  rw [hauto, if_neg Bool.false_ne_true, Bool.and_eq_true, isNicHead_render_iff,
    isNicSuffix_render_iff]

end NameSyntax

/-- Whether objects of a type may have a range without blanks for their name. -/
def AsRange.MayName (r : AsRange) : ObjectType → Prop
  | .mntner => True
  | .role | .person => r.lo.val < 10 ^ 6 ∧ r.hi.val < 10 ^ 8
  | _ => False

namespace Target

open NameSyntax

variable (r : AsRange) (both : Bool) (o : ObjectType)

theorem canFind_render : canFind ⟨⟨r.render, .asRange r⟩, both⟩ o = true ↔ o = .asBlock := by
  obtain ⟨hobject, hmarked, hset, hhandle, hcert, hperson⟩ := isNoName_render r
  cases o <;>
    simp (disch := decide) [canFind, ObjectType.lookupAttributes, canUse, SearchKey.kind, ipBlock?,
      reverseBlock?, SearchKey.ipBlock?, SearchKey.reverseBlock?, SearchKey.asRange?, hobject,
      hmarked, hset, hhandle, hcert, hperson]

theorem canFind_renderCompact :
    canFind ⟨⟨r.renderCompact, .asRange r⟩, both⟩ o = true ↔ o = .asBlock ∨ r.MayName o := by
  have hobject := isObjectName_renderCompact r
  have hmarked : ∀ mark ∈ classMarks, isMarkedName mark r.renderCompact = false :=
    fun _ => isMarkedName_renderCompact r
  have hset : ∀ mark ∈ classMarks, isSetName mark r.renderCompact = false :=
    fun _ => isSetName_renderCompact r
  have hhandle := isNicHandle_renderCompact_iff r
  have hcert := isKeyCert_renderCompact r
  have hperson := isPersonName_renderCompact r
  cases o <;>
    simp (disch := decide) [canFind, ObjectType.lookupAttributes, canUse, SearchKey.kind, ipBlock?,
      reverseBlock?, SearchKey.ipBlock?, SearchKey.reverseBlock?, SearchKey.asRange?, hobject,
      hmarked, hset, hhandle, hcert, hperson, AsRange.MayName]

end Target

end Whois

import Whois.Proofs.Address.Ipv6
import Whois.Proofs.Text.Lower
import Whois.SearchKey

/-!
The form of a search term does not depend on its case. Whatever is tried on a term reads the same
from the term in lower case.
-/
namespace Whois

namespace Ipv4

theorem octet?_lower (t : Text) : octet? (Text.lower t) = octet? t := by
  unfold octet?
  simp only [Text.length_lower, Text.head?_lower Text.isMark_zero, Text.below?_lower]

theorem read?_lower (t : Text) : read? (Text.lower t) = read? t := by
  unfold read?
  rw [Text.split_lower Text.isMark_dot, List.mapM_map]
  congr 2
  exact funext octet?_lower

end Ipv4

namespace Ipv6

theorem group?_lower (t : Text) : group? (Text.lower t) = group? t := by
  have hdigits : (Text.lower t).mapM Text.hexDigit? = t.mapM Text.hexDigit? := by
    unfold Text.lower
    rw [List.mapM_map]
    congr 1
    exact funext Text.hexDigit?_toLower
  unfold group?
  rw [hdigits]

theorem cutGap?_lower (t : Text) :
    cutGap? (Text.lower t) = (cutGap? t).map (Prod.map Text.lower Text.lower) := by
  induction t with
  | nil => rfl
  | cons c rest ih =>
    -- Two colons are a gap in either case, and nothing else becomes one.
    by_cases hgap : c = ':' ∧ rest.head? = some ':'
    · obtain ⟨rfl, hhead⟩ := hgap
      obtain ⟨after, rfl⟩ := List.head?_eq_some_iff.mp hhead
      rfl
    · have hlower : c.toLower = ':' → (Text.lower rest).head? ≠ some ':' := by
        rw [Text.isMark_colon.toLower_eq_iff, ne_eq, Text.head?_lower Text.isMark_colon]
        exact not_and.mp hgap
      rw [Text.lower_cons, cutGap?_cons hlower, cutGap?_cons (not_and.mp hgap), ih, Option.map_map,
        Option.map_map]
      rfl

theorem lastGroups?_lower (t : Text) : lastGroups? (Text.lower t) = lastGroups? t := by
  unfold lastGroups?
  rw [group?_lower, Ipv4.read?_lower]

theorem parts?_lower (ts : List Text) : parts? (ts.map Text.lower) = parts? ts := by
  fun_induction parts? ts with
  | case1 => rfl
  | case2 t => exact lastGroups?_lower t
  | case3 t rest hrest ih =>
    have hne : rest.map Text.lower ≠ [] := by simpa using hrest
    rw [List.map_cons, parts?_cons hne, group?_lower, ih]
    rfl

theorem front?_lower (t : Text) : front? (Text.lower t) = front? t := by
  unfold front?
  rw [Text.isEmpty_lower, Text.split_lower Text.isMark_colon, List.mapM_map]
  congr 2
  exact funext group?_lower

theorem back?_lower (t : Text) : back? (Text.lower t) = back? t := by
  unfold back?
  rw [Text.isEmpty_lower, Text.split_lower Text.isMark_colon, parts?_lower]

theorem read?_lower (t : Text) : read? (Text.lower t) = read? t := by
  unfold read?
  rw [cutGap?_lower]
  cases cutGap? t with
  | none =>
    dsimp only [Option.map_none]
    rw [back?_lower]
  | some parts =>
    obtain ⟨before, after⟩ := parts
    dsimp only [Option.map_some, Prod.map]
    rw [front?_lower, back?_lower]

end Ipv6

namespace Block

variable {w : Nat} {read? : Text → Option (Number w)} (hread : ∀ t, read? (Text.lower t) = read? t)
include hread

theorem readPrefix?_lower (t : Text) :
    readPrefix? read? (Text.lower t) = readPrefix? read? t := by
  unfold readPrefix?
  rw [Text.cut?_lower Text.isMark_slash]
  cases Text.cut? '/' t with
  | none =>
    dsimp only [Option.map_none]
    rw [hread]
  | some parts =>
    obtain ⟨address, len⟩ := parts
    dsimp only [Option.map_some, Prod.map]
    rw [Text.natural?_lower, hread]

theorem readRange?_lower (low high : Text) :
    readRange? read? (Text.lower low) (Text.lower high) = readRange? read? low high := by
  unfold readRange?
  rw [Text.trim_lower, Text.trim_lower, hread, hread]

end Block

namespace IpBlock

theorem readV4?_lower (t : Text) : readV4? (Text.lower t) = readV4? t := by
  unfold readV4?
  rw [Text.cut?_lower Text.isMark_hyphen]
  cases Text.cut? '-' t with
  | none =>
    dsimp only [Option.map_none]
    rw [Block.readPrefix?_lower Ipv4.read?_lower]
  | some parts =>
    obtain ⟨low, high⟩ := parts
    dsimp only [Option.map_some, Prod.map]
    rw [Block.readRange?_lower Ipv4.read?_lower]

theorem readV6?_lower (t : Text) : readV6? (Text.lower t) = readV6? t := by
  unfold readV6?
  rw [Block.readPrefix?_lower Ipv6.read?_lower]

theorem read?_lower (t : Text) : read? (Text.lower t) = read? t := by
  unfold read?
  rw [readV4?_lower, readV6?_lower]

end IpBlock

theorem AsNumber.read_lower (t : Text) : read (Text.lower t) = read t := by
  unfold read
  rw [Text.afterLead?_lower]
  cases Text.afterLead? "AS" t with
  | none => rfl
  | some digits =>
    dsimp only [Option.map_some]
    rw [Text.below?_lower]

theorem AsRange.read_lower (t : Text) : read (Text.lower t) = read t := by
  unfold read
  rw [Text.cut?_lower Text.isMark_hyphen]
  cases Text.cut? '-' t with
  | none => rfl
  | some parts =>
    obtain ⟨low, high⟩ := parts
    dsimp only [Option.map_some, Prod.map]
    rw [Text.trim_lower, Text.trim_lower, AsNumber.read_lower, AsNumber.read_lower]

namespace ReverseName

theorem octet?_lower (label : Text) : octet? (Text.lower label) = octet? label :=
  Text.below?_lower 256 label

theorem octetRange?_lower (label : Text) :
    octetRange? (Text.lower label) = octetRange? label := by
  unfold octetRange?
  rw [Text.cut?_lower Text.isMark_hyphen]
  cases Text.cut? '-' label with
  | none =>
    dsimp only [Option.map_none]
    rw [octet?_lower]
  | some parts =>
    obtain ⟨low, high⟩ := parts
    dsimp only [Option.map_some, Prod.map]
    rw [octet?_lower, octet?_lower]

theorem blockV4?_lower (labels : List Text) :
    blockV4? (labels.map Text.lower) = blockV4? labels := by
  cases labels with
  | nil => rfl
  | cons label parents =>
    have hparents : (parents.map Text.lower).mapM octet? = parents.mapM octet? := by
      rw [List.mapM_map]
      congr 1
      exact funext octet?_lower
    rw [List.map_cons, blockV4?, blockV4?, octetRange?_lower, hparents]

theorem nibble?_lower (label : Text) : nibble? (Text.lower label) = nibble? label := by
  match label with
  | [] => rfl
  | [c] => exact Text.hexDigit?_toLower c
  | _ :: _ :: _ => rfl

theorem blockV6?_lower (labels : List Text) :
    blockV6? (labels.map Text.lower) = blockV6? labels := by
  unfold blockV6?
  rw [List.mapM_map]
  congr 2
  exact funext nibble?_lower

/-- A dot at the end does not depend on case. -/
theorem withoutDot_lower (name : Text) :
    (if (Text.lower name).getLast? = some '.' then (Text.lower name).dropLast
      else Text.lower name) =
    Text.lower (if name.getLast? = some '.' then name.dropLast else name) := by
  simp only [Text.getLast?_lower Text.isMark_dot]
  split
  · exact List.map_dropLast.symm
  · rfl

theorem block?_lower (name : Text) : block? (Text.lower name) = block? name := by
  unfold block?
  dsimp only
  rw [withoutDot_lower, Text.beforeTail?_lower, Text.beforeTail?_lower]
  generalize (if name.getLast? = some '.' then name.dropLast else name) = name
  cases Text.beforeTail? ".in-addr.arpa" name with
  | some labels =>
    dsimp only [Option.map_some]
    rw [Text.split_lower Text.isMark_dot, blockV4?_lower]
  | none =>
    dsimp only [Option.map_none]
    cases Text.beforeTail? ".ip6.arpa" name with
    | some labels =>
      dsimp only [Option.map_some]
      rw [Text.split_lower Text.isMark_dot, blockV6?_lower]
    | none => rfl

end ReverseName

namespace SearchForm

theorem cutLastAs?_lower (t : Text) :
    cutLastAs? (Text.lower t) = (cutLastAs? t).map (Prod.map Text.lower Text.lower) := by
  induction t with
  | nil => rfl
  | cons c rest ih =>
    have hlead := Text.afterLead?_lower "AS" (c :: rest)
    rw [Text.lower_cons] at hlead
    rw [Text.lower_cons, cutLastAs?, cutLastAs?, ih, hlead, Option.isSome_map]
    cases cutLastAs? rest with
    | some parts => rfl
    | none =>
      dsimp only [Option.map_none]
      split <;> rfl

theorem route?_lower (t : Text) : route? (Text.lower t) = route? t := by
  unfold route?
  rw [cutLastAs?_lower]
  cases cutLastAs? t with
  | none => rfl
  | some parts =>
    obtain ⟨announced, origin⟩ := parts
    simp only [Option.map_some, Prod.map, Option.bind_eq_bind, Option.bind_some,
      Text.contains_lower Text.isMark_slash, IpBlock.read?_lower, AsNumber.read_lower]

theorem ofText_lower (t : Text) : ofText (Text.lower t) = ofText t := by
  unfold ofText
  rw [IpBlock.readV4?_lower, IpBlock.readV6?_lower, route?_lower, AsNumber.read_lower,
    AsRange.read_lower, ReverseName.block?_lower]

end SearchForm

theorem SearchKey.ofTerm_lower (t : Text) :
    ofTerm (Text.lower t) = ⟨Text.lower (ofTerm t).term, (ofTerm t).form⟩ := by
  unfold ofTerm
  dsimp only
  rw [Text.trim_lower, SearchForm.ofText_lower]

end Whois

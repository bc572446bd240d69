import Whois.Flag

/-!
A set of flags that can be told apart by their spellings, and the look-up of a flag by a spelling.
-/
namespace Whois

namespace FlagSpec

/-- Whether a spelling stands for the flag. -/
def answersTo (spec : FlagSpec) (s : Spelling) : Bool := spec.flag.spellings.any s.clashes

end FlagSpec

namespace Registry

/-- The first spelling in a list of specs that an earlier spec has too. `known` holds the specs
before the list. -/
def firstClash? (known : List FlagSpec) : List FlagSpec → Option Spelling
  | [] => none
  | spec :: rest =>
    match spec.flag.spellings.find? fun s => known.any (·.answersTo s) with
    | some s => some s
    | none => firstClash? (spec :: known) rest

end Registry

structure Registry where
  specs : List FlagSpec
  no_clash : Registry.firstClash? [] specs = none

namespace Registry

/-- The registry of the given flags, or the first spelling that two of them share. -/
def ofSpecs (specs : List FlagSpec) : Except Spelling Registry :=
  match h : firstClash? [] specs with
  | some s => .error s
  | none => .ok ⟨specs, h⟩

/-- The registry of all flags, as queries use them. -/
def standard : Registry where
  specs := Flag.all.map Flag.standardSpec
  no_clash := by decide +kernel

def spec? (r : Registry) (f : Flag) : Option FlagSpec := r.specs.find? (·.flag == f)

/-- The flag with the given letter. -/
def letter? (r : Registry) (c : Char) : Option FlagSpec :=
  r.specs.find? (·.answersTo (.letter c))

/-- The flag with the given name, of either case. -/
def name? (r : Registry) (word : Text) : Option FlagSpec :=
  r.specs.find? (·.answersTo (.name word))

theorem spec?_eq_some {r : Registry} {f : Flag} {spec : FlagSpec} (h : r.spec? f = some spec) :
    spec ∈ r.specs ∧ spec.flag = f :=
  ⟨List.mem_of_find?_eq_some h, by simpa using List.find?_some h⟩

theorem letter?_eq_some {r : Registry} {c : Char} {spec : FlagSpec} (h : r.letter? c = some spec) :
    spec ∈ r.specs ∧ spec.answersTo (.letter c) = true := by
  unfold letter? at h
  exact ⟨List.mem_of_find?_eq_some h, by simpa using List.find?_some h⟩

theorem name?_eq_some {r : Registry} {word : Text} {spec : FlagSpec}
    (h : r.name? word = some spec) : spec ∈ r.specs ∧ spec.answersTo (.name word) = true := by
  unfold name? at h
  exact ⟨List.mem_of_find?_eq_some h, by simpa using List.find?_some h⟩

/-- The registered flags of a group. -/
def flagsIn (r : Registry) (g : FlagGroup) : List Flag :=
  Flag.all.filter fun f => (r.spec? f).any (·.group == g)

def size (r : Registry) : Nat := r.specs.length

end Registry

end Whois

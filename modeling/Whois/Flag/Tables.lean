import Whois.Flag

/-!
The tables that flags are looked up in: one by letters, one by names and one by the flags themselves.
They are filled spelling by spelling, until a spelling turns up that is in them already.
-/
namespace Whois

/-- A map, with one entry for each of its keys. -/
structure Table (κ α : Type) where
  entries : List (κ × α)
  nodup : (entries.map (·.1)).Nodup

namespace Table

variable {κ α : Type}

def empty : Table κ α := ⟨[], List.nodup_nil⟩

def size (t : Table κ α) : Nat := t.entries.length

variable [DecidableEq κ]

def get? (t : Table κ α) (k : κ) : Option α := t.entries.lookup k

/-- Puts in an entry, in place of the one with the same key. -/
def put (t : Table κ α) (k : κ) (a : α) : Table κ α where
  entries := (k, a) :: t.entries.filter (·.1 ≠ k)
  nodup := by
    rw [List.map_cons, List.nodup_cons]
    constructor
    · intro hk
      obtain ⟨entry, hentry, hkey⟩ := List.mem_map.mp hk
      exact of_decide_eq_true (List.mem_filter.mp hentry).2 hkey
    · exact t.nodup.sublist (List.filter_sublist.map _)

end Table

/-- Where a spelling is looked up. One of a single character is a letter, any other one a name, whose
case does not count. -/
def Spelling.slot (s : Spelling) : Char ⊕ Text :=
  match s.text with
  | [c] => .inl c
  | word => .inr (Text.lower word)

structure FlagTables where
  specs : Table Flag FlagSpec
  letters : Table Char Flag
  /-- The names are in lower case. -/
  names : Table Text Flag

namespace FlagTables

def empty : FlagTables := ⟨.empty, .empty, .empty⟩

/-- Registers a spelling of a flag, unless it is taken. -/
def addSpelling (f : Flag) (t : FlagTables) (s : Spelling) : Except Spelling FlagTables :=
  match s.slot with
  | .inl c =>
    if (t.letters.get? c).isSome then .error s
    else .ok { t with letters := t.letters.put c f }
  | .inr word =>
    if (t.names.get? word).isSome then .error s
    else .ok { t with names := t.names.put word f }

/-- Registers a flag: its spellings first, and then how it is used. -/
def add (t : FlagTables) (spec : FlagSpec) : Except Spelling FlagTables := do
  let t ← spec.flag.spellings.foldlM (addSpelling spec.flag) t
  .ok { t with specs := t.specs.put spec.flag spec }

/-- The tables of the given flags, or the first spelling that was taken. -/
def ofSpecs (specs : List FlagSpec) : Except Spelling FlagTables := specs.foldlM add empty

def spec? (t : FlagTables) (f : Flag) : Option FlagSpec := t.specs.get? f

/-- The flag with the given letter. -/
def letter? (t : FlagTables) (c : Char) : Option FlagSpec := (t.letters.get? c).bind t.spec?

/-- The flag with the given name, of either case. -/
def name? (t : FlagTables) (word : Text) : Option FlagSpec :=
  (t.names.get? (Text.lower word)).bind t.spec?

/-- The registered flags of a group. -/
def flagsIn (t : FlagTables) (g : FlagGroup) : List Flag :=
  Flag.all.filter fun f => (t.spec? f).any (·.group == g)

def size (t : FlagTables) : Nat := t.specs.size

end FlagTables

end Whois

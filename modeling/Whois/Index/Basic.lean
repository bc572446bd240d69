import Whois.Index.Layer
import Whois.ResourceKey

/-!
An index of values by blocks of number space. The three number spaces do not touch each other.
-/
namespace Whois

structure Index (α : Type) where
  v4 : Layer 32 α
  v6 : Layer 128 α
  asn : Layer 32 α

namespace Index

variable {α : Type}

def empty : Index α := ⟨[], [], []⟩

/-- The number of blocks that have values. -/
def size (i : Index α) : Nat := i.v4.length + i.v6.length + i.asn.length

def isEmpty (i : Index α) : Bool := i.size == 0

/-- The values of a block. -/
def valuesAt (i : Index α) : ResourceKey → List α
  | .ip (.v4 b) => i.v4.valuesAt b
  | .ip (.v6 b) => i.v6.valuesAt b
  | .asn r => i.asn.valuesAt r

variable [DecidableEq α]

/-- Whether a block has a value. -/
def holds (i : Index α) (key : ResourceKey) (v : α) : Bool := decide (v ∈ i.valuesAt key)

/-- Adds a value to a block, unless the block has it. -/
def insert (i : Index α) (key : ResourceKey) (v : α) : Index α :=
  match key with
  | .ip (.v4 b) => { i with v4 := i.v4.insert b v }
  | .ip (.v6 b) => { i with v6 := i.v6.insert b v }
  | .asn r => { i with asn := i.asn.insert r v }

/-- The index of a sequence of insertions. -/
def ofList (entries : List (ResourceKey × α)) : Index α :=
  entries.foldl (fun i (key, v) => i.insert key v) empty

/-- The values that an operation finds from a key, outermost block first and each once. -/
def lookup (i : Index α) (key : ResourceKey) (op : MatchOperation) : List α :=
  match key with
  | .ip (.v4 b) => i.v4.lookup b op
  | .ip (.v6 b) => i.v6.lookup b op
  | .asn r => i.asn.lookup r op

end Index

end Whois

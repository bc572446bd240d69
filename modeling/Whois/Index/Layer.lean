import Whois.Block.Basic
import Whois.MatchOperation

/-!
The blocks of one number space in listing order, each with its values, and the walks from a key.

Listing order puts a block before the blocks it contains. So the blocks that contain a key are at or
before the key, and those in it come after it and before the first block that starts past its end.
-/
namespace Whois

/-- A block with its values, in the order in which they were added. -/
structure Entry (w : Nat) (α : Type) where
  block : Block w
  values : List α

/-- The entries of a number space, in listing order. -/
abbrev Layer (w : Nat) (α : Type) := List (Entry w α)

namespace Layer

variable {w : Nat} {α : Type}

/-- The entry of a block. -/
def entry? (layer : Layer w α) (b : Block w) : Option (Entry w α) := layer.find? (·.block == b)

/-- The values of a block. -/
def valuesAt (layer : Layer w α) (b : Block w) : List α :=
  match layer.entry? b with
  | some e => e.values
  | none => []

/-- Adds a value to a block, unless the block has it. -/
def insert [DecidableEq α] (b : Block w) (v : α) : Layer w α → Layer w α
  | [] => [⟨b, [v]⟩]
  | e :: rest =>
    if b = e.block then ⟨b, if v ∈ e.values then e.values else e.values ++ [v]⟩ :: rest
    else if b.before e.block then ⟨b, [v]⟩ :: e :: rest
    else e :: insert b v rest

/-- The entries at or before a key. -/
def upTo (layer : Layer w α) (key : Block w) : Layer w α :=
  layer.takeWhile fun e => !key.before e.block

/-- The entries from a key on that start in it. -/
def startingIn (layer : Layer w α) (key : Block w) : Layer w α :=
  (layer.dropWhile fun e => e.block.before key).takeWhile fun e => decide (e.block.lo ≤ key.hi)

/-- The blocks that contain a key, outermost first. -/
def lessSpecific (layer : Layer w α) (key : Block w) : Layer w α :=
  (layer.upTo key).filter (·.block.contains key)

/-- The last block that strictly contains a key. -/
def oneLess? (layer : Layer w α) (key : Block w) : Option (Entry w α) :=
  ((layer.lessSpecific key).filter (·.block != key)).getLast?

/-- The blocks strictly inside a key. -/
def moreSpecific (layer : Layer w α) (key : Block w) : Layer w α :=
  (layer.startingIn key).filter (key.strictlyContains ·.block)

/-- The entries that follow `outer` and do not lie in the last entry kept before them. -/
def outermostAfter (outer : Block w) : Layer w α → Layer w α
  | [] => []
  | e :: rest =>
    if outer.contains e.block then outermostAfter outer rest
    else e :: outermostAfter e.block rest

/-- The entries that do not lie in the last entry kept before them. -/
def outermost : Layer w α → Layer w α
  | [] => []
  | e :: rest => e :: outermostAfter e.block rest

/-- The entries that an operation selects for a key. -/
def select (layer : Layer w α) (key : Block w) : MatchOperation → Layer w α
  | .exact => (layer.entry? key).toList
  | .oneLess => (layer.oneLess? key).toList
  | .exactOrOneLess => ((layer.entry? key).or (layer.oneLess? key)).toList
  | .allLess => layer.lessSpecific key
  | .oneMore => outermost (layer.moreSpecific key)
  | .allMore => layer.moreSpecific key

/-- The values that an operation finds, each once. -/
def lookup [DecidableEq α] (layer : Layer w α) (key : Block w) (op : MatchOperation) : List α :=
  ((layer.select key op).flatMap (·.values)).eraseDups

end Layer

end Whois

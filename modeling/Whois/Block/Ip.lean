import Whois.Text.Blank
import Whois.Address.Ipv6
import Whois.Misread

/-!
Blocks of IPv4 and IPv6 address space. A block that is a prefix is written as one, any other as a
range; a single address stands for the block that holds it alone.
-/
namespace Whois

namespace Block

variable {w : Nat}

/-- An address or a prefix, where `read?` reads addresses. -/
def readPrefix? (read? : Text → Option (Number w)) (t : Text) : Option (Block w) :=
  match Text.cut? '/' t with
  | some (address, len) => do
    let len ← Text.natural? len
    let a ← read? address
    ofPrefix? a len
  | none => (read? t).map Interval.single

/-- Two addresses around a hyphen, which may have blanks beside it. -/
def readRange? (read? : Text → Option (Number w)) (low high : Text) : Option (Block w) := do
  let lo ← read? (Text.trim low)
  let hi ← read? (Text.trim high)
  Interval.ofBounds? lo hi

/-- The written form of a block, where `render` writes addresses. -/
def render (render : Number w → Text) (b : Block w) : Text :=
  match b.prefixLen? with
  | some len => render b.lo ++ "/" ++ Text.decimal len
  | none => render b.lo ++ " - " ++ render b.hi

end Block

inductive IpBlock where
  | v4 (block : Block 32)
  | v6 (block : Block 128)
  deriving DecidableEq

namespace IpBlock

/-- An IPv4 address, prefix or range. -/
def readV4? (t : Text) : Option IpBlock :=
  match Text.cut? '-' t with
  | some (low, high) => (Block.readRange? Ipv4.read? low high).map .v4
  | none => (Block.readPrefix? Ipv4.read? t).map .v4

/-- An IPv6 address or prefix. -/
def readV6? (t : Text) : Option IpBlock := (Block.readPrefix? Ipv6.read? t).map .v6

def read? (t : Text) : Option IpBlock := (readV4? t).or (readV6? t)

def read (t : Text) : Except Misread IpBlock :=
  match read? t with
  | some b => .ok b
  | none => .error .noIpBlock

def render : IpBlock → Text
  | .v4 b => b.render Ipv4.render
  | .v6 b => b.render Ipv6.render

def prefixLen? : IpBlock → Option Nat
  | .v4 b => b.prefixLen?
  | .v6 b => b.prefixLen?

/-- Whether the block is all of its address family. -/
def isWhole : IpBlock → Bool
  | .v4 b => b.isWhole
  | .v6 b => b.isWhole

def isV4 : IpBlock → Bool
  | .v4 _ => true
  | .v6 _ => false

def isV6 : IpBlock → Bool
  | .v4 _ => false
  | .v6 _ => true

/-- Whether `b` lies in `a`. Blocks of two families never contain each other. -/
def contains : (a b : IpBlock) → Bool
  | .v4 a, .v4 b => a.contains b
  | .v6 a, .v6 b => a.contains b
  | _, _ => false

/-- All of IPv4 comes before all of IPv6. -/
def cmp : (a b : IpBlock) → Ordering
  | .v4 a, .v4 b => a.cmp b
  | .v4 _, .v6 _ => .lt
  | .v6 _, .v4 _ => .gt
  | .v6 a, .v6 b => a.cmp b

end IpBlock

end Whois

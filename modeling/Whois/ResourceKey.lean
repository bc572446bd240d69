import Whois.Block.Ip
import Whois.Block.Autonomous

/-!
Keys of objects that describe number resources: a block of IPv4, IPv6 or AS number space.
-/
namespace Whois

inductive ResourceKey where
  | ip (block : IpBlock)
  | asn (range : AsRange)
  deriving DecidableEq

namespace ResourceKey

/-- A single AS number, as a key, is the range that holds it alone. -/
def ofAsNumber (n : AsNumber) : ResourceKey := .asn (AsRange.ofNumber n)

def readAs? (t : Text) : Option ResourceKey :=
  match AsNumber.read t with
  | .ok n => some (ofAsNumber n)
  | .error _ => (AsRange.read t).toOption.map .asn

/-- Blanks around a key do not count. -/
def read? (t : Text) : Option ResourceKey :=
  let t := Text.trim t
  ((IpBlock.read? t).map ResourceKey.ip).or (readAs? t)

def read (t : Text) : Except Misread ResourceKey :=
  match read? t with
  | some key => .ok key
  | none => .error .noResourceKey

def render : ResourceKey → Text
  | .ip b => b.render
  | .asn r => if r.lo = r.hi then AsNumber.render r.lo else AsRange.render r

/-- Whether the key is all of its number space. -/
def isWhole : ResourceKey → Bool
  | .ip b => b.isWhole
  | .asn r => Block.isWhole r

/-- Whether `b` lies in `a`. Keys of two number spaces never contain each other. -/
def contains : (a b : ResourceKey) → Bool
  | .ip a, .ip b => a.contains b
  | .asn a, .asn b => Interval.contains a b
  | _, _ => false

/-- Address space comes before AS numbers. -/
def cmp : (a b : ResourceKey) → Ordering
  | .ip a, .ip b => a.cmp b
  | .ip _, .asn _ => .lt
  | .asn _, .ip _ => .gt
  | .asn a, .asn b => Interval.cmp a b

/-- Keys in listing order: every key before the keys it contains. -/
def sort (keys : List ResourceKey) : List ResourceKey :=
  keys.mergeSort fun a b => a.cmp b != .gt

end ResourceKey

end Whois

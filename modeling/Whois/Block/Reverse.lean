import Whois.Text.Case
import Whois.Block.Ip

/-!
Reverse-DNS names and the address space that they delegate.

Under `in-addr.arpa` each label is an octet of an IPv4 address in decimal, and the leftmost label
may be a range of octets. Under `ip6.arpa` each label is a nibble of an IPv6 address in hexadecimal.
In both the least significant label comes first.
-/
namespace Whois.ReverseName

def octet? (label : Text) : Option (Fin 256) := Text.below? 256 label

/-- An octet, or two with a hyphen between them. -/
def octetRange? (label : Text) : Option (Fin 256 × Fin 256) :=
  match Text.cut? '-' label with
  | some (low, high) => do
    let low ← octet? low
    let high ← octet? high
    some (low, high)
  | none => (octet? label).map fun octet => (octet, octet)

/-- The IPv4 block with the given labels, leftmost first. -/
def blockV4? : List Text → Option (Block 32)
  | [] => none
  | label :: parents => do
    let (low, high) ← octetRange? label
    let octets ← parents.mapM octet?
    let start := octets.reverse
    Block.leading? (8 * (octets.length + 1))
      (Positional.ofDigits (start ++ [low])) (Positional.ofDigits (start ++ [high]))

def nibble? : Text → Option (Fin 16)
  | [c] => Text.hexDigit? c
  | _ => none

/-- The IPv6 prefix with the given labels, leftmost first. -/
def blockV6? (labels : List Text) : Option (Block 128) := do
  let nibbles ← labels.mapM nibble?
  let start := Positional.ofDigits nibbles.reverse
  Block.leading? (4 * nibbles.length) start start

/-- The block that a reverse-DNS name delegates. One dot may follow the name. -/
def block? (name : Text) : Option IpBlock :=
  let name := if name.getLast? = some '.' then name.dropLast else name
  match Text.beforeTail? ".in-addr.arpa" name with
  | some labels => (blockV4? (Text.split '.' labels)).map .v4
  | none =>
    match Text.beforeTail? ".ip6.arpa" name with
    | some labels => (blockV6? (Text.split '.' labels)).map .v6
    | none => none

end Whois.ReverseName

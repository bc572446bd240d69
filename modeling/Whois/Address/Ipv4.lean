import Whois.Text.Numeral
import Whois.Positional
import Whois.Block.Basic

/-!
IPv4 addresses in dotted decimal notation.
-/
namespace Whois

abbrev Ipv4 := Number 32

namespace Ipv4

/-- An octet has at most three decimal digits, and no leading zero. -/
def octet? (t : Text) : Option (Fin 256) :=
  if t.length ≤ 3 ∧ (t.head? = some '0' → t.length = 1) then Text.below? 256 t else none

/-- The address with the given octets, of which there have to be four. -/
def ofOctets? (octets : List (Fin 256)) : Option Ipv4 :=
  if h : octets.length = 4 then
    some ⟨Positional.ofDigits octets, by simpa [h] using Positional.ofDigits_lt octets⟩
  else none

def octets (a : Ipv4) : List (Fin 256) := Positional.toDigits 256 4 a.val

def read? (t : Text) : Option Ipv4 := do
  let octets ← (Text.split '.' t).mapM octet?
  ofOctets? octets

def render (a : Ipv4) : Text := Text.join "." (a.octets.map fun octet => Text.decimal octet.val)

end Ipv4

end Whois

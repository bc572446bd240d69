/-!
Numbers of a fixed width.
-/
namespace Whois

/-- Powers are those of the core library, also where monoids are in scope. -/
@[default_instance high]
instance (priority := high) powOfNatPow {α : Type} [NatPow α] : Pow α Nat := instPowNat

/-- The numbers of `w` bits: addresses of one family, or AS numbers. -/
abbrev Number (w : Nat) := Fin (2 ^ w)

end Whois

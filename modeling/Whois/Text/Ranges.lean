/-!
Sets of characters as ranges of code points.
-/
namespace Whois.Text

/-- The first and the last code point of each range. -/
abbrev Ranges := List (Nat × Nat)

namespace Ranges

def contains (rs : Ranges) (c : Char) : Bool := rs.any fun (lo, hi) => lo ≤ c.toNat && c.toNat ≤ hi

end Ranges

end Whois.Text

import Whois.Text.Blank
import Whois.Text.Case
import Whois.Text.Numeral
import Whois.Block.Basic
import Whois.Misread

/-!
Numbers of autonomous systems, such as `AS3333`, and ranges of them, such as `AS1 - AS5`.
-/
namespace Whois

abbrev AsNumber := Number 32

abbrev AsRange := Block 32

namespace AsNumber

/-- The letters before the number may be of either case. -/
def read (t : Text) : Except Misread AsNumber :=
  match Text.afterLead? "AS" t with
  | none => .error .noAsMark
  | some digits =>
    match Text.below? (2 ^ 32) digits with
    | some n => .ok n
    | none => .error .noAsNumber

def render (n : AsNumber) : Text := "AS" ++ Text.decimal n.val

end AsNumber

namespace AsRange

/-- The range that holds one number. -/
def ofNumber (n : AsNumber) : AsRange := Interval.single n

/-- Two AS numbers around a hyphen, which may have blanks beside it. -/
def read (t : Text) : Except Misread AsRange :=
  match Text.cut? '-' t with
  | none => .error .noHyphen
  | some (low, high) => do
    let lo ← AsNumber.read (Text.trim low)
    let hi ← AsNumber.read (Text.trim high)
    match Interval.ofBounds? lo hi with
    | some range => .ok range
    | none => .error .reversedRange

def render (r : AsRange) : Text := AsNumber.render r.lo ++ " - " ++ AsNumber.render r.hi

end AsRange

end Whois

import Whois.Text.Numeral
import Whois.Text.Quoted
import Whois.Misread

/-!
The values that a configuration file holds, before anything is known of their meaning, and the
faults that their meaning can have.
-/
namespace Whois

inductive Setting where
  | text (t : Text)
  | integer (n : Int)
  | boolean (b : Bool)
  | list (items : List Setting)
  | table (fields : List (Text × Setting))

/-- The named values of a table. -/
abbrev Fields := List (Text × Setting)

namespace Setting

/-- A value as it is named in a report. -/
def describe : Setting → Text
  | .text t => "string " ++ Text.quote t
  | .integer n =>
    "integer `" ++ (if n < 0 then ['-'] else []) ++ Text.decimal n.natAbs ++ "`"
  | .boolean true => "boolean `true`"
  | .boolean false => "boolean `false`"
  | .list _ => "sequence"
  | .table _ => "map"

end Setting

inductive ConfigFault where
  | notFound
  /-- The file is not a configuration at all. -/
  | malformed (detail : Text)
  | unknownField (name : Text) (known : List Text)
  | missingField (name : Text)
  | invalidType (found : Setting) (expected : Text)
  /-- A list with too few or too many values. -/
  | invalidLength (found : Nat) (expected : Text)
  | invalidValue (what : Text) (cause : Misread)

namespace ConfigFault

def detail : ConfigFault → Text
  | .notFound => "No such file or directory (os error 2)"
  | .malformed detail => detail
  | .unknownField name known =>
    "unknown field `" ++ name ++ "`, expected one of " ++
      Text.join ", " (known.map fun k => "`" ++ k ++ "`")
  | .missingField name => "missing field `" ++ name ++ "`"
  | .invalidType found expected => "invalid type: " ++ found.describe ++ ", expected " ++ expected
  | .invalidLength found expected =>
    "invalid length " ++ Text.decimal found ++ ", expected " ++ expected
  | .invalidValue what cause => "invalid " ++ what ++ ": " ++ cause.message

/-- What failed, from the outside in. -/
def causes (f : ConfigFault) : List Text :=
  match f with
  | .notFound =>
    ["failed to load the configuration", "failed to read the configuration file", f.detail]
  | _ => ["failed to load the configuration", "failed to parse the configuration file", f.detail]

end ConfigFault

end Whois

import Whois.Text.Numeral
import Whois.Flag

/-!
Why a query cannot be taken apart into flags and a search term.
-/
namespace Whois

/-- The number of tokens that a query may have. -/
def maxElements : Nat := 60

inductive OptionFault where
  | tooManyElements (count : Nat)
  | unknownFlag (token : Text)
  | missingValue (flag : Flag)
  | unexpectedValue (flag : Flag)
  | multipleValues (flag : Flag)
  deriving DecidableEq

def OptionFault.message : OptionFault → Text
  | .tooManyElements count =>
    "the query has " ++ Text.decimal count ++ " elements, but at most " ++
      Text.decimal maxElements ++ " are allowed"
  | .unknownFlag token => "unknown flag " ++ token
  | .missingValue flag => "the flag \"" ++ flag.render ++ "\" requires a value"
  | .unexpectedValue flag => "the flag \"" ++ flag.render ++ "\" takes no value"
  | .multipleValues flag => "the flag \"" ++ flag.render ++ "\" cannot be used multiple times"

end Whois

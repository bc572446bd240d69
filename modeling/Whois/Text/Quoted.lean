import Whois.Text.Basic
import Whois.Text.Extender
import Whois.Text.Unseen

/-!
Texts between quotation marks, written so that every character of them can be seen.
-/
namespace Whois.Text

/-- Whether a character can be seen, and apart from the one before it. -/
def isDistinct (c : Char) : Bool := !isExtender c && !isUnseen c

/-- A character by its number in hexadecimal. -/
def codeEscape (c : Char) : Text := "\\u\x7b" ++ Nat.toDigits 16 c.toNat ++ "\x7d"

/-- A character as it stands between quotation marks. -/
def quoteChar (c : Char) : Text :=
  if c = '"' then "\\\""
  else if c = '\\' then "\\\\"
  else if c = '\n' then "\\n"
  else if c = '\r' then "\\r"
  else if c = '\t' then "\\t"
  else if c.toNat = 0 then "\\0"
  else if isDistinct c then [c]
  else codeEscape c

def quote (t : Text) : Text := "\"" ++ t.flatMap quoteChar ++ "\""

end Whois.Text

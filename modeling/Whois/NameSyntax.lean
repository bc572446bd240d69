import Whois.Text.Blank
import Whois.Block.Autonomous

/-!
The syntax of the names by which registry objects are found. All names are ASCII.
-/
namespace Whois.NameSyntax

def isDigits (t : Text) : Bool := Text.isNumeral t

def isObjectNameChar (c : Char) : Bool := c.isAlphanum || c == '-' || c == '_'

/-- The name of an object such as a maintainer: a letter, then letters, digits, hyphens and
underscores, with a letter or digit at the end. -/
def isObjectName (t : Text) : Bool :=
  (t.head?.any Char.isAlpha && t.getLast?.any Char.isAlphanum) &&
    (decide (t.length ≤ 80) && t.all isObjectNameChar)

/-- An object name that starts with the mark of its class, such as `IRT-`, and goes on after it. -/
def isMarkedName (mark t : Text) : Bool :=
  (Text.afterLead? mark t).any (!·.isEmpty) && isObjectName t

def isAsNumber (t : Text) : Bool := (AsNumber.read t).toOption.isSome

/-- The name of a set: components with colons between them, each an AS number or an object name, and
one of them at least with the mark of the class of sets. -/
def isSetName (mark t : Text) : Bool :=
  let components := Text.split ':' t
  components.all (fun c => isMarkedName mark c || isAsNumber c || isObjectName c) &&
    components.any (isMarkedName mark)

/-- What follows the hyphen of a NIC handle. -/
def isNicSuffix (t : Text) : Bool :=
  decide (1 ≤ t.length ∧ t.length ≤ 10) && t.all Char.isAlphanum

/-- The first part of a NIC handle: two to four letters and up to six digits. -/
def isNicHead (t : Text) : Bool :=
  let letters := t.takeWhile Char.isAlpha
  let digits := t.dropWhile Char.isAlpha
  decide (2 ≤ letters.length ∧ letters.length ≤ 4) && decide (digits.length ≤ 6) &&
    digits.all Char.isDigit

/-- A NIC handle, such as `JS123-TEST`, or a placeholder for one, such as `AUTO-1`. -/
def isNicHandle (t : Text) : Bool :=
  match Text.cut? '-' t with
  | some (head, suffix) =>
    if Text.alike head "AUTO" then isDigits suffix else isNicHead head && isNicSuffix suffix
  | none => !Text.alike t "AUTO" && isNicHead t

def isHexDigit (c : Char) : Bool := (Text.hexDigit? c).isSome

/-- The name of a key certificate: `PGPKEY-` and eight hexadecimal digits, or `X509-` and a
number. -/
def isKeyCert (t : Text) : Bool :=
  match Text.afterLead? "PGPKEY-" t with
  | some id => id.length == 8 && id.all isHexDigit
  | none => (Text.afterLead? "X509-" t).any isDigits

def isPersonWord (t : Text) : Bool :=
  t.head?.any Char.isAlpha && t.all fun c => c.isAlphanum || (".'`-_" : Text).contains c

/-- The name of a person or role: two words at least, each with a letter at the start. -/
def isPersonName (t : Text) : Bool :=
  let words := Text.words t
  decide (2 ≤ words.length) && words.all isPersonWord

def isDomainLabel (t : Text) : Bool :=
  decide (1 ≤ t.length ∧ t.length ≤ 63) && t.head? != some '-' && t.getLast? != some '-' &&
    t.all fun c => c.isAlphanum || c == '-'

/-- A domain name of two labels at least. One dot may follow it. -/
def isDomainName (t : Text) : Bool :=
  let name := if t.getLast? = some '.' then t.dropLast else t
  decide (name.length ≤ 253) && name.contains '.' && (Text.split '.' name).all isDomainLabel

end Whois.NameSyntax

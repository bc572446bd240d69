import Whois.AttributeType
import Whois.Options.Fault
import Whois.Version

/-!
What can be wrong with a query, and how it is reported: a line with a code and a title, an empty
comment line, and a line that explains.
-/
namespace Whois

/-- The class of an issue, for programs to act on. -/
inductive Reason where
  | malformed
  | duplicateFlags
  | uselessIpFlag
  | illegalRange
  | invalidObjectType
  | invalidAttributeType
  | invalidCombination
  | noSearchKey
  | invalidSearchKey
  | invalidVersion
  deriving DecidableEq, Repr

def Reason.render : Reason → Text
  | .malformed => "MALFORMED"
  | .duplicateFlags => "DUPLICATE_FLAGS"
  | .uselessIpFlag => "USELESS_IP_FLAG"
  | .illegalRange => "ILLEGAL_RANGE"
  | .invalidObjectType => "INVALID_OBJECT_TYPE"
  | .invalidAttributeType => "INVALID_ATTRIBUTE_TYPE"
  | .invalidCombination => "INVALID_COMBINATION"
  | .noSearchKey => "NO_SEARCH_KEY"
  | .invalidSearchKey => "INVALID_SEARCH_KEY"
  | .invalidVersion => "INVALID_VERSION"

inductive Issue where
  /-- The options cannot be used. Without a detail the report gives general advice. -/
  | unusable (detail : Option Text)
  | malformed (fault : OptionFault)
  | unknownInformation (value : Text)
  | invalidProxy (value : Text)
  | duplicateIpFlags
  /-- The key is not one to which the flag applies. -/
  | uselessIpFlag (flag : Flag)
  | illegalRange
  | unknownObjectType (name : Text)
  | unknownAttribute (name : Text)
  | attributeNotSearchable (a : AttributeType)
  | invalidCombination (a b : Flag)
  | conflictingTags (tags : List Text)
  | noSearchKey
  | abuseContactNotApplicable
  | invalidVersion (fault : VersionFault)
  | ignoredFlag (ignored because : Flag)
  deriving DecidableEq

namespace Issue

/-- An issue that is not an error is a warning. -/
def isError : Issue → Bool
  | .ignoredFlag _ _ => false
  | _ => true

def reason : Issue → Reason
  | .unusable _ | .malformed _ | .unknownInformation _ | .invalidProxy _ => .malformed
  | .duplicateIpFlags => .duplicateFlags
  | .uselessIpFlag _ => .uselessIpFlag
  | .illegalRange => .illegalRange
  | .unknownObjectType _ => .invalidObjectType
  | .unknownAttribute _ | .attributeNotSearchable _ => .invalidAttributeType
  | .invalidCombination _ _ | .conflictingTags _ | .ignoredFlag _ _ => .invalidCombination
  | .noSearchKey => .noSearchKey
  | .abuseContactNotApplicable => .invalidSearchKey
  | .invalidVersion _ => .invalidVersion

def code : Issue → Nat
  | .unusable _ | .malformed _ | .unknownInformation _ | .invalidProxy _ | .invalidVersion _ => 111
  | .duplicateIpFlags => 901
  | .uselessIpFlag _ => 902
  | .illegalRange => 903
  | .unknownObjectType _ => 103
  | .unknownAttribute _ => 104
  | .attributeNotSearchable _ => 105
  | .invalidCombination _ _ | .conflictingTags _ => 109
  | .noSearchKey => 106
  | .abuseContactNotApplicable => 115
  | .ignoredFlag _ _ => 905

def title : Issue → Text
  | .unusable _ | .malformed _ | .unknownInformation _ | .invalidProxy _ | .invalidVersion _ =>
    "invalid option supplied"
  | .duplicateIpFlags => "duplicate IP flags passed"
  | .uselessIpFlag _ => "useless IP flag passed"
  | .illegalRange => "illegal range"
  | .unknownObjectType _ => "unknown object type"
  | .unknownAttribute _ => "unknown attribute"
  | .attributeNotSearchable _ => "attribute is not searchable"
  | .invalidCombination _ _ | .conflictingTags _ => "invalid combination of flags passed"
  | .noSearchKey => "no search key specified"
  | .abuseContactNotApplicable => "invalid search key"
  | .ignoredFlag _ _ => "flag has no effect"

def detail : Issue → Text
  | .unusable (some detail) => detail
  | .unusable none => "Use help query to see the valid options."
  | .malformed fault => fault.message
  | .unknownInformation value => "Invalid option: " ++ value
  | .invalidProxy value =>
    "The client \"" ++ value ++ "\" is not of the form <client>[,<ip address>]."
  | .duplicateIpFlags =>
    "More than one IP flag (-l, -L, -m, -M or -x) passed to the server."
  | .uselessIpFlag .reverseDomain =>
    "The -d flag needs an IP address, prefix, range or reverse-domain search key."
  | .uselessIpFlag _ =>
    "An IP flag (-l, -L, -m, -M or -x) was used without an IP or AS search key."
  | .illegalRange => "More specific lookups of the entire address space are not allowed."
  | .unknownObjectType name => "Unknown object type \"" ++ name ++ "\"."
  | .unknownAttribute name => "Unknown attribute \"" ++ name ++ "\"."
  | .attributeNotSearchable a =>
    "\"" ++ a.name ++ "\" is not a known RPSL attribute that is inverse searchable."
  | .invalidCombination a b =>
    "The flags \"" ++ a.render ++ "\" and \"" ++ b.render ++ "\" cannot be used together."
  | .conflictingTags tags =>
    "The tags " ++ Text.join ", " tags ++ " are both included and excluded."
  | .noSearchKey => "A search key is required for this query."
  | .abuseContactNotApplicable =>
    "Abuse contacts can only be looked up for IP address space and AS numbers."
  | .invalidVersion fault => fault.message
  | .ignoredFlag ignored because =>
    "The flag \"" ++ ignored.render ++ "\" is ignored when \"" ++ because.render ++ "\" is used."

def severity (i : Issue) : Text := if i.isError then "ERROR" else "WARNING"

/-- The report of an issue. -/
def render (i : Issue) : Text :=
  "%" ++ i.severity ++ ":" ++ Text.decimal i.code ++ ": " ++ i.title ++ "\n%\n% " ++ i.detail

end Issue

/-- Why a query is refused: one error at least, in the order in which errors are found. -/
structure Rejection where
  first : Issue
  others : List Issue
  deriving DecidableEq

namespace Rejection

def errors (r : Rejection) : List Issue := r.first :: r.others

def reason (r : Rejection) : Reason := r.first.reason

/-- The reports of all errors, with an empty line between them. -/
def render (r : Rejection) : Text := Text.join "\n\n" (r.errors.map Issue.render)

def ofFault (f : OptionFault) : Rejection := ⟨.malformed f, []⟩

end Rejection

end Whois

import Whois.Flag.Registry
import Whois.Options.Fault

/-!
What a single token of a query says. The reading of a token does not depend on the tokens around it,
except that a flag may ask for the next token as its value.
-/
namespace Whois

/-- A flag that was given, with the value given for it. -/
structure Occurrence where
  spec : FlagSpec
  value : Option Text
  deriving DecidableEq

/-- What a token says where a flag may stand. -/
inductive Reading where
  /-- From here on every token belongs to the search term. -/
  | terminator
  /-- The token belongs to the search term. -/
  | word
  | flags (given : List Occurrence)
  /-- Switches, then a flag that takes the next token as its value. -/
  | needsValue (given : List Occurrence) (spec : FlagSpec)
  | fault (f : OptionFault)
  deriving DecidableEq

namespace Reading

/-- The reading of a cluster that has one more flag in front. -/
def afterFlag (o : Occurrence) : Reading → Reading
  | .flags given => .flags (o :: given)
  | .needsValue given spec => .needsValue (o :: given) spec
  | r => r

end Reading

namespace Registry

/-- An attached value, unless there is nothing in it. -/
def attached? (value : Text) : Option Text := if value.isEmpty then none else some value

/-- Reads what follows `--`: a name, or a name and a value around an equals sign. -/
def readName (r : Registry) (body : Text) : Reading :=
  let (word, value?) :=
    match Text.cut? '=' body with
    | some (word, value) => (word, some value)
    | none => (body, none)
  match r.name? word with
  | none => .fault (.unknownFlag ('-' :: '-' :: body))
  | some spec =>
    match spec.arity, value? with
    | .switch, none => .flags [⟨spec, none⟩]
    | .switch, some _ => .fault (.unexpectedValue spec.flag)
    | .required, none => .needsValue [] spec
    | .required, some [] => .fault (.missingValue spec.flag)
    | .required, some value => .flags [⟨spec, some value⟩]
    | .optional, value? => .flags [⟨spec, value?.bind attached?⟩]

/-- Reads what follows a single dash: letters of switches, then perhaps the letter of a flag with a
value. What follows such a letter is its value. -/
def readLetters (r : Registry) : Text → Reading
  | [] => .flags []
  | c :: rest =>
    match r.letter? c with
    | none => .fault (.unknownFlag ['-', c])
    | some spec =>
      match spec.arity with
      | .switch => (readLetters r rest).afterFlag ⟨spec, none⟩
      | .required => if rest.isEmpty then .needsValue [] spec else .flags [⟨spec, some rest⟩]
      | .optional => .flags [⟨spec, attached? rest⟩]

/-- A lone dash is a word. -/
def readToken (r : Registry) : Text → Reading
  | ['-', '-'] => .terminator
  | '-' :: '-' :: body => r.readName body
  | '-' :: c :: rest => r.readLetters (c :: rest)
  | _ => .word

/-- Whether a token is the terminator or starts with a known flag, and so is not a value. Other
tokens that start with a dash, such as `-1`, are. -/
def namesFlag (r : Registry) : Text → Bool
  | ['-', '-'] => true
  | '-' :: '-' :: body =>
    (r.name? (match Text.cut? '=' body with
      | some (word, _) => word
      | none => body)).isSome
  | '-' :: c :: _ => (r.letter? c).isSome
  | _ => false

end Registry

end Whois

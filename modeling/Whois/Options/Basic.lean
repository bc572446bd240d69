import Whois.Text.Blank
import Whois.Text.Quoted
import Whois.Options.Token
import Whois.Log

/-!
The flags of a query with their values, and the search term that is left over.

The tokens are first read from left to right into a list of items; then the values of each flag are
collected. A fault in a token counts only if nothing is wrong with the items before it.
-/
namespace Whois

inductive Item where
  | word (text : Text)
  | flag (occurrence : Occurrence)
  deriving DecidableEq

/-- What could be read of a list of tokens: the items up to the first fault. -/
structure Scan where
  items : List Item
  fault : Option OptionFault

namespace Scan

def empty : Scan := ⟨[], none⟩

def ofFault (f : OptionFault) : Scan := ⟨[], some f⟩

/-- Puts items in front. -/
def after (items : List Item) (s : Scan) : Scan := ⟨items ++ s.items, s.fault⟩

/-- Reads tokens from left to right. -/
def ofTokens (r : Registry) : List Text → Scan
  | [] => empty
  | token :: rest =>
    match r.readToken token with
    | .terminator => ⟨rest.map .word, none⟩
    | .word => (ofTokens r rest).after [.word token]
    | .fault f => ofFault f
    | .flags given => (ofTokens r rest).after (given.map .flag)
    | .needsValue given spec =>
      match rest with
      | [] => ofFault (.missingValue spec.flag)
      | value :: rest =>
        if r.namesFlag value then ofFault (.missingValue spec.flag)
        else (ofTokens r rest).after (given.map .flag ++ [.flag ⟨spec, some value⟩])

/-- The words of the search term. -/
def words (s : Scan) : List Text :=
  s.items.filterMap fun
    | .word text => some text
    | .flag _ => none

def occurrences (s : Scan) : List Occurrence :=
  s.items.filterMap fun
    | .word _ => none
    | .flag o => some o

end Scan

/-- The values of each flag that was given. -/
abbrev Given := Flag → Option (List Text)

namespace Given

def none : Given := fun _ => Option.none

def set (g : Given) (f : Flag) (values : List Text) : Given :=
  fun f' => if f' = f then some values else g f'

/-- Adds a flag. The values of a repeatable flag accumulate; for any other flag the first value may
only be repeated. -/
def add (g : Given) (o : Occurrence) : Except OptionFault Given :=
  let f := o.spec.flag
  let values := (g f).getD []
  match o.value, values with
  | .none, _ => .ok (g.set f values)
  | some value, [] => .ok (g.set f [value])
  | some value, first :: _ =>
    if o.spec.repeatable then .ok (g.set f (values ++ [value]))
    else if first = value then .ok (g.set f values)
    else .error (.multipleValues f)

theorem set_self (g : Given) (f : Flag) (values : List Text) : g.set f values f = some values := by
  simp [set]

theorem set_of_ne (g : Given) {f f' : Flag} (values : List Text) (h : f' ≠ f) :
    g.set f values f' = g f' := by
  simp [set, h]

def ofOccurrences (os : List Occurrence) : Except OptionFault Given := os.foldlM add none

end Given

/-- The flags of a query and its search term. -/
structure Options where
  given : Given
  searchTerm : Text

namespace Options

def ofScan (s : Scan) : Except OptionFault Options := do
  let given ← Given.ofOccurrences s.occurrences
  match s.fault with
  | some f => .error f
  | none => .ok ⟨given, Text.trim (Text.join " " s.words)⟩

def ofTokens (r : Registry) (tokens : List Text) : Except OptionFault Options :=
  if maxElements < tokens.length then .error (.tooManyElements tokens.length)
  else ofScan (Scan.ofTokens r tokens)

/-- Reads a query. Its tokens are its words. -/
def read (query : Text) : Except OptionFault Options := ofTokens .standard (Text.words query)

def has (o : Options) (f : Flag) : Bool := (o.given f).isSome

/-- The values given for a flag: none for a switch, and none for a flag that was not given. -/
def values (o : Options) (f : Flag) : List Text := (o.given f).getD []

def value? (o : Options) (f : Flag) : Option Text := (o.values f).head?

/-- The flags given, in listing order. -/
def flags (o : Options) : List Flag := Flag.all.filter o.has

def isEmpty (o : Options) : Bool := o.flags.isEmpty

/-- The flags given and their values, as the log shows them. -/
def shown (o : Options) : Text :=
  let entry (f : Flag) : Text :=
    f.label ++ ": [" ++ Text.join ", " ((o.values f).map Text.quote) ++ "]"
  "\x7b" ++ Text.join ", " (o.flags.map entry) ++ "\x7d"

/-- The record of a query whose flags could be read. -/
def parsed (o : Options) : LogRecord :=
  ⟨.trace, "Parsed flags " ++ o.shown ++ " with search term " ++ Text.quote o.searchTerm ++ "."⟩

end Options

end Whois

import Whois.CommandLine.Arguments
import Whois.CommandLine.Catalogue
import Whois.Query.Basic

/-!
The commands of the program: `resolve` describes queries, and `lookup` finds the configured objects
that a query asks for.
-/
namespace Whois

/-- What a run leaves behind. -/
structure Outcome where
  status : Nat
  output : Text
  log : List LogRecord

/-- The lines of an input. Each ends with a line feed, perhaps after a carriage return; the last may
end with the input. -/
def Text.lines (input : Text) : List Text :=
  let parts := Text.split '\n' input
  parts.dropLast.map (fun line => if line.getLast? = some '\r' then line.dropLast else line) ++
    parts.getLast?.toList.filter (!·.isEmpty)

namespace Query

def operationName (q : Query) : Text :=
  match q.effectiveOperation? with
  | some op => op.render
  | none => "none"

/-- A warning below what it belongs to. -/
def warningAfter (w : Issue) : Text := "\n\n" ++ w.render

/-- A warning above what it belongs to. -/
def warningBefore (w : Issue) : Text := w.render ++ "\n\n"

/-- A summary of what a query asks for, with its warnings. -/
def describe (q : Query) : Text :=
  let attributeLine : Text :=
    "\n% Attributes:   " ++ Text.join ", " (q.attributeTypes.map AttributeType.name)
  let sourceLine : Text := "\n% Sources:      " ++ Text.join ", " q.sources
  "% Query:        " ++ q.text ++
    "\n% Search key:   " ++ q.key.term ++ " (" ++ q.key.kind.render ++ ")" ++
    "\n% Flags:        " ++ Text.join ", " (q.options.flags.map Flag.name) ++
    "\n% Operation:    " ++ q.operationName ++
    "\n% Object types: " ++ Text.join ", " (q.objectTypes.map ObjectType.name) ++
    (if q.has .inverse then attributeLine else []) ++
    (if q.sources.isEmpty then [] else sourceLine) ++
    q.warnings.flatMap warningAfter

end Query

namespace CommandLine

/-- The description of a query or the reports of its errors. -/
def description : Except Rejection Query → Text
  | .ok q => q.describe ++ "\n\n"
  | .error rejection => rejection.render ++ "\n\n"

/-- Describes a query, with the records of its resolution. -/
def resolveOne (origin : Origin) (credentials : Option Credentials) (raw : Text) :
    Text × List LogRecord :=
  let (resolved, log) := Query.resolution raw origin credentials
  (description resolved, log)

def resolveAll (origin : Origin) (credentials : Option Credentials) (queries : List Text) :
    Text × List LogRecord :=
  let results := queries.map (resolveOne origin credentials)
  (results.flatMap (·.1), results.flatMap (·.2))

/-- The objects of the wanted types that a query finds in an index, or nothing if its key is not a
block of number space. -/
def find? (index : Index Listing) (q : Query) : Option (List Listing) := do
  let key ← q.target.resource?
  let op ← q.effectiveOperation?
  some ((index.lookup key op).filter fun l => q.objectTypes.contains l.type)

/-- The answer to a query: its warnings, then what it finds. -/
def answer (index : Index Listing) (q : Query) : Text :=
  q.warnings.flatMap Query.warningBefore ++
    match find? index q with
    | none => "% The search key \"" ++ q.key.term ++ "\" is not in address space.\n"
    | some [] => "%ERROR:101: no entries found\n"
    | some found => found.flatMap Listing.line

/-- The answer to a query or the reports of its errors. -/
def finding (index : Index Listing) : Except Rejection Query → Text
  | .ok q => answer index q
  | .error rejection => rejection.render ++ "\n"

/-- Looks up a query, with the records of its resolution. -/
def lookup (origin : Origin) (credentials : Option Credentials) (index : Index Listing)
    (raw : Text) : Text × List LogRecord :=
  let (resolved, log) := Query.resolution raw origin credentials
  (finding index resolved, log)

/-- The causes of a failure, numbered. -/
def failure (causes : List Text) : LogRecord :=
  let numbered : Text × Nat → Text := fun (cause, i) =>
    "\n[" ++ Text.decimal (i + 1) ++ "] " ++ cause
  ⟨.error, "Failed to run:" ++ causes.zipIdx.flatMap numbered ++ "\nExiting with failure."⟩

/-- Runs a command under a configuration. -/
def execute (command : Command) (config : Configuration) (origin : Option Origin) (input : Text) :
    Text × List LogRecord :=
  let origin := origin.getD config.origin
  match command with
  | .resolve [] =>
    let (output, log) := resolveAll origin config.credentials (Text.lines input)
    (output, ⟨.info, "Reading queries from standard input."⟩ :: log)
  | .resolve queries => resolveAll origin config.credentials queries
  | .lookup query =>
    let catalogue := Catalogue.ofObjects config.objects
    let (output, log) := lookup origin config.credentials catalogue.index query
    (output, catalogue.log ++ log)

/-- The configuration of a run, with the records of its loading. `file` is what the configuration
file holds, if one is named. -/
def loadConfig (i : Invocation) (file : Except ConfigFault Fields) :
    Except ConfigFault Configuration × List LogRecord :=
  match i.config with
  | none => (.ok .empty, [])
  | some path =>
    let loading : LogRecord := ⟨.info, "Loading the configuration from " ++ path ++ "."⟩
    match file.bind Configuration.read with
    | .ok config => (.ok config, [loading, ⟨.debug, config.summary⟩])
    | .error fault => (.error fault, [loading])

def run (i : Invocation) (file : Except ConfigFault Fields) (input : Text) : Outcome :=
  match loadConfig i file with
  | (.error fault, log) => ⟨1, [], log ++ [failure fault.causes]⟩
  | (.ok config, log) =>
    let (output, log') := execute i.command config i.origin input
    ⟨0, output, log ++ log'⟩

/-- Runs a command line. One that is refused leaves nothing behind but its status. -/
def main (a : Arguments) (file : Except ConfigFault Fields) (input : Text) : Outcome :=
  match a.invocation? with
  | none => ⟨2, [], []⟩
  | some i => run i file input

end CommandLine

end Whois

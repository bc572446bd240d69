import Whois.CommandLine.Basic
import Whois.Toml.Document

/-!
The program: it takes its arguments from the command line and its input from files, and writes what
a run leaves behind.
-/
namespace Whois

def usage : String :=
  "usage: whois resolve [--config FILE] [--origin direct|authenticated] [--] [QUERY]...\n" ++
  "       whois lookup --config FILE [--origin direct|authenticated] [--] QUERY"

/-- The fields of a configuration file. A file that cannot be read counts as missing. -/
def readConfig (path : String) : IO (Except ConfigFault Fields) := do
  try return Toml.read (← IO.FS.readFile path).toList
  catch _ => return .error .notFound

def report (record : LogRecord) : IO Unit :=
  IO.eprintln (String.ofList (record.level.render ++ ' ' :: record.message))

def perform (i : Invocation) : IO UInt32 := do
  let file ← match i.config with
    | some path => readConfig (String.ofList path)
    | none => pure (.error .notFound)
  let input ← if i.command.readsInput then do (← IO.getStdin).readToEnd else pure ""
  let outcome := CommandLine.run i file input.toList
  for record in outcome.log do
    if record.level.isUrgent then report record
  IO.print (String.ofList outcome.output)
  return outcome.status.toUInt32

end Whois

def main (words : List String) : IO UInt32 := do
  match (Whois.Arguments.ofWords? (words.map String.toList)).bind Whois.Arguments.invocation? with
  | some i => Whois.perform i
  | none =>
    IO.eprintln Whois.usage
    return 2

import Whois.Origin

/-!
What the words of a command line ask for.
-/
namespace Whois

/-- A command line. The configuration is given by the name of its file. -/
structure Arguments where
  command : Text
  config : Option Text
  origin : Option Text
  queries : List Text
  deriving DecidableEq

inductive Command where
  /-- Without queries, they are read from the standard input. -/
  | resolve (queries : List Text)
  | lookup (query : Text)
  deriving DecidableEq

structure Invocation where
  command : Command
  config : Option Text
  /-- Takes precedence over the configured origin. -/
  origin : Option Origin
  deriving DecidableEq

namespace Arguments

def isOption (name : Text) : Bool := name = "--config" || name = "--origin"

/-- Sets an option. Each is given once at most. -/
def withOption? (a : Arguments) (name value : Text) : Option Arguments :=
  if name = "--config" then
    if a.config.isNone then some { a with config := some value } else none
  else
    if a.origin.isNone then some { a with origin := some value } else none

def withQueries (a : Arguments) (queries : List Text) : Arguments :=
  { a with queries := a.queries ++ queries }

/-- Adds the words after the command. What names no option is a query, even if it starts with a
dash, and so is everything after `--`. -/
def add? (a : Arguments) : List Text → Option Arguments
  | [] => some a
  | word :: rest =>
    if word = "--" then some (a.withQueries rest)
    else if isOption word then
      match rest with
      | value :: rest => do add? (← a.withOption? word value) rest
      | [] => none
    else
      match Text.cut? '=' word with
      | some (name, value) =>
        if isOption name then do add? (← a.withOption? name value) rest
        else add? (a.withQueries [word]) rest
      | none => add? (a.withQueries [word]) rest

/-- The first word names the command. -/
def ofWords? : List Text → Option Arguments
  | [] => none
  | command :: rest => add? ⟨command, none, none, []⟩ rest

def command? (a : Arguments) : Option Command :=
  if a.command = "resolve" then some (.resolve a.queries)
  else if a.command = "lookup" then
    match a.config, a.queries with
    | some _, [query] => some (.lookup query)
    | _, _ => none
  else none

/-- The run that a command line asks for, unless the command line is refused. -/
def invocation? (a : Arguments) : Option Invocation := do
  let command ← a.command?
  match a.origin with
  | none => some ⟨command, a.config, none⟩
  | some origin =>
    let origin ← (Origin.read origin).toOption
    some ⟨command, a.config, some origin⟩

end Arguments

/-- Whether a command takes its queries from the standard input. -/
def Command.readsInput (c : Command) : Bool := c == .resolve []

end Whois

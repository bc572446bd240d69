import Whois.Toml.Value

/-!
Documents in TOML: statements that set values, and headers that tell in which table the statements
below them set theirs.
-/
namespace Whois.Toml

inductive Statement where
  | set (path : Path) (value : Setting)
  /-- The header of a table. -/
  | table (path : Path)
  /-- The header of a new table at the end of an array. -/
  | element (path : Path)

/-- A statement and what follows it on its line. -/
def statement (t : Text) : Option (Statement × Text) := do
  let fuel := t.length + 1
  match t with
  | '[' :: '[' :: rest =>
    match ← path fuel (skipGap rest) with
    | (names, ']' :: ']' :: rest) => some (.element names, rest)
    | _ => none
  | '[' :: rest =>
    match ← path fuel (skipGap rest) with
    | (names, ']' :: rest) => some (.table names, rest)
    | _ => none
  | _ =>
    match ← path fuel t with
    | (names, '=' :: rest) =>
      let (found, rest) ← value fuel (skipGap rest)
      some (.set names found, rest)
    | _ => none

/-- Whether nothing but a comment follows on the line. -/
def endsLine (t : Text) : Bool :=
  match skipGap t with
  | [] => true
  | c :: _ => c == '\n' || c == '#'

/-- The statements of a text, each on a line of its own. -/
def statements : (fuel : Nat) → Text → Option (List Statement)
  | 0, _ => none
  | fuel + 1, t =>
    match skipSpace false t with
    | [] => some []
    | t => do
      let (first, rest) ← statement t
      if endsLine rest then some (first :: (← statements fuel rest)) else none

/-- Sets the values of statements, those before any header in the table at `home`. -/
def build (home : Path) (d : Draft) : List Statement → Option Draft
  | [] => some d
  | .set path value :: rest => do build home (← d.set (home ++ path) value) rest
  | .table path :: rest => do build path (← d.openTable path) rest
  | .element path :: rest => do build path (← d.openElement path) rest

/-- The text with line feeds at all ends of lines. -/
def plainLines : Text → Text
  | '\r' :: '\n' :: rest => '\n' :: plainLines rest
  | c :: rest => c :: plainLines rest
  | [] => []

/-- The values that a document sets. -/
def read (t : Text) : Except ConfigFault Fields :=
  let t := plainLines t
  match (statements (t.length + 1) t).bind (build [] .empty) with
  | some d => .ok d.fields
  | none => .error (.malformed "the file is not in TOML")

end Whois.Toml

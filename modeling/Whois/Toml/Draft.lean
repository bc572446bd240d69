import Whois.Configuration.Setting

/-!
Tables under construction. Values are set at paths of names; tables on the way are made as needed,
and nothing that has a value is given another.
-/
namespace Whois.Toml

/-- The names that lead to a value. -/
abbrev Path := List Text

structure Draft where
  fields : Fields
  /-- The paths of the values. Nothing is added to a value, even if it is a table. -/
  complete : List Path
  /-- The paths of the tables with a header. A table has one header only. -/
  headed : List Path
  /-- The paths of the arrays that grow by headers. -/
  arrays : List Path

namespace Draft

def empty : Draft := ⟨[], [], [], []⟩

/-- The fields with the value of one name replaced or added at the end. -/
def put (name : Text) (value : Setting) : Fields → Fields
  | [] => [(name, value)]
  | (n, v) :: rest => if n = name then (n, value) :: rest else (n, v) :: put name value rest

/-- Changes what stands at the end of a path. A path leads through the last element of an array. -/
def update (change : Option Setting → Option Setting) : Path → Fields → Option Fields
  | [], _ => none
  | [last], fields => do some (put last (← change (fields.lookup last)) fields)
  | first :: path, fields =>
    match fields.lookup first with
    | none => do some (put first (.table (← update change path [])) fields)
    | some (.table inner) => do some (put first (.table (← update change path inner)) fields)
    | some (.list items) =>
      match items.getLast? with
      | some (.table inner) => do
        some (put first (.list (items.dropLast ++ [.table (← update change path inner)])) fields)
      | _ => none
    | some _ => none

/-- Whether a path leads to a value or into one. -/
def isClosed (d : Draft) (path : Path) : Bool := d.complete.any (·.isPrefixOf path)

def set (path : Path) (value : Setting) (d : Draft) : Option Draft := do
  if d.isClosed path then none
  let fields ← update (fun | none => some value | some _ => none) path d.fields
  some { d with fields, complete := path :: d.complete }

/-- Makes way for the values of a table with a header. -/
def openTable (path : Path) (d : Draft) : Option Draft := do
  if d.isClosed path || d.headed.contains path then none
  let change : Option Setting → Option Setting
    | none => some (.table [])
    | some (.table fields) => some (.table fields)
    | some _ => none
  some { d with fields := ← update change path d.fields, headed := path :: d.headed }

/-- Makes way for the values of a new last element. What is known of paths into the element before
it does not hold of paths into the new one. -/
def openElement (path : Path) (d : Draft) : Option Draft := do
  if d.isClosed path then none
  let change : Option Setting → Option Setting
    | none => some (.list [.table []])
    | some (.list items) => some (.list (items ++ [.table []]))
    | some _ => none
  let fresh (paths : List Path) : List Path := paths.filter (!path.isPrefixOf ·)
  some ⟨← update change path d.fields, fresh d.complete, fresh d.headed, path :: fresh d.arrays⟩

end Draft

end Whois.Toml

import Whois.Configuration.Setting
import Whois.ObjectType
import Whois.Origin
import Whois.ResourceKey

/-!
Configurations: where queries are taken to come from, the credentials that go with them, and the
objects that can be looked up.
-/
namespace Whois

structure ConfiguredObject where
  type : ObjectType
  key : ResourceKey
  name : Text
  deriving DecidableEq

structure Configuration where
  origin : Origin
  ssoToken : Option Text
  passwords : List Text
  objects : List ConfiguredObject

namespace Setting

def readText : Setting → Except ConfigFault Text
  | .text t => .ok t
  | s => .error (.invalidType s "a string")

/-- A value with a written form. -/
def readAs {α : Type} (what : Text) (read : Text → Except Misread α) :
    Setting → Except ConfigFault α
  | .text t => (read t).mapError (.invalidValue what)
  | s => .error (.invalidType s what)

def readList {α : Type} (read : Setting → Except ConfigFault α) :
    Setting → Except ConfigFault (List α)
  | .list items => items.mapM read
  | s => .error (.invalidType s "a sequence")

end Setting

namespace ConfiguredObject

/-- How reports name what should have been an object. -/
def expected : Text := "struct ObjectConfig"

def readType : Setting → Except ConfigFault ObjectType := Setting.readAs "object type" ObjectType.read

def readKey : Setting → Except ConfigFault ResourceKey :=
  Setting.readAs "resource key" ResourceKey.read

/-- An object as far as the fields of its table are read. -/
structure Draft where
  type : Option ObjectType
  key : Option ResourceKey
  name : Option Text

namespace Draft

def set (d : Draft) (field : Text × Setting) : Except ConfigFault Draft := do
  let (name, value) := field
  if name = "type" then .ok { d with type := some (← readType value) }
  else if name = "key" then .ok { d with key := some (← readKey value) }
  else if name = "name" then .ok { d with name := some (← value.readText) }
  else .error (.unknownField name ["type", "key", "name"])

/-- A part that every object has. -/
def required {α : Type} (name : Text) : Option α → Except ConfigFault α
  | some part => .ok part
  | none => .error (.missingField name)

def finish (d : Draft) : Except ConfigFault ConfiguredObject := do
  let type ← required "type" d.type
  let key ← required "key" d.key
  let name ← required "name" d.name
  .ok ⟨type, key, name⟩

end Draft

def ofFields (fields : Fields) : Except ConfigFault ConfiguredObject := do
  let draft ← fields.foldlM Draft.set ⟨none, none, none⟩
  draft.finish

/-- The value at a place in the list of an object's parts. -/
def part (items : List Setting) (i : Nat) : Except ConfigFault Setting :=
  match items[i]? with
  | some item => .ok item
  | none => .error (.invalidLength items.length (expected ++ " with 3 elements"))

def ofParts (items : List Setting) : Except ConfigFault ConfiguredObject := do
  let type ← readType (← part items 0)
  let key ← readKey (← part items 1)
  let name ← (← part items 2).readText
  if items.length = 3 then .ok ⟨type, key, name⟩
  else .error (.invalidLength items.length "3 elements in sequence")

/-- An object is a table, or the list of its type, its key and its name. -/
def read : Setting → Except ConfigFault ConfiguredObject
  | .table fields => ofFields fields
  | .list items => ofParts items
  | s => .error (.invalidType s expected)

end ConfiguredObject

namespace Configuration

/-- The configuration that says nothing. -/
def empty : Configuration := ⟨.direct, none, [], []⟩

def set (c : Configuration) (field : Text × Setting) : Except ConfigFault Configuration := do
  let (name, value) := field
  if name = "origin" then .ok { c with origin := ← value.readAs "query origin" Origin.read }
  else if name = "sso_token" then .ok { c with ssoToken := some (← value.readText) }
  else if name = "passwords" then .ok { c with passwords := ← value.readList Setting.readText }
  else if name = "objects" then .ok { c with objects := ← value.readList ConfiguredObject.read }
  else .error (.unknownField name ["origin", "sso_token", "passwords", "objects"])

/-- The configuration with the given fields, or the first fault in them. -/
def read (fields : Fields) : Except ConfigFault Configuration := fields.foldlM set empty

/-- The credentials that go with queries, if any are configured. -/
def credentials (c : Configuration) : Option Credentials :=
  if c.ssoToken.isNone && c.passwords.isEmpty then none else some ⟨c.ssoToken, c.passwords⟩

/-- A configured object as the summary shows it. -/
def objectLine (o : ConfiguredObject) : Text :=
  "\n  " ++ o.type.name ++ " " ++ o.name ++ " (" ++ o.key.render ++ ")"

/-- What the configuration holds. Secrets are not shown. -/
def summary (c : Configuration) : Text :=
  let token : Text := if c.ssoToken.isSome then "present" else "absent"
  let count : Text := if c.objects.isEmpty then "none" else Text.decimal c.objects.length
  "Configuration loaded:\nOrigin:    " ++ c.origin.render ++ "\nSSO token: " ++ token ++
    "\nPasswords: " ++ Text.decimal c.passwords.length ++ "\nObjects:   " ++ count ++
    c.objects.flatMap objectLine

end Configuration

end Whois

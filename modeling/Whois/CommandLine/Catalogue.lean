import Whois.Configuration.Basic
import Whois.Index.Basic
import Whois.Log

/-!
The index of the configured objects. Objects whose key does not suit their type are reported and
left out.
-/
namespace Whois

/-- An object as an index holds it. -/
structure Listing where
  type : ObjectType
  name : Text
  deriving DecidableEq

def Listing.line (l : Listing) : Text := l.type.name ++ ": " ++ l.name ++ "\n"

namespace ConfiguredObject

def listing (o : ConfiguredObject) : Listing := ⟨o.type, o.name⟩

/-- Whether objects of a type have a block of number space as their key. -/
def isKeyed : ObjectType → Bool
  | .inetnum | .route | .inet6num | .route6 | .domain | .autNum | .asBlock => true
  | _ => false

/-- Whether a key suits a type. -/
def keyFits : ObjectType → ResourceKey → Bool
  | .inetnum, .ip (.v4 _) | .route, .ip (.v4 _) => true
  | .inet6num, .ip (.v6 _) | .route6, .ip (.v6 _) => true
  | .domain, .ip _ => true
  | .autNum, .asn r => decide (r.lo = r.hi)
  | .asBlock, .asn _ => true
  | _, _ => false

def fits (o : ConfiguredObject) : Bool := keyFits o.type o.key

/-- Why an object is left out. -/
def misfit (o : ConfiguredObject) : Text :=
  if isKeyed o.type then
    o.type.name ++ " objects cannot be keyed by " ++ o.key.render
  else o.type.name ++ " objects are not keyed by address space"

end ConfiguredObject

/-- The index of the objects read so far, the log of their reading, and the number left out. -/
structure Catalogue where
  index : Index Listing
  log : List LogRecord
  misfits : Nat

namespace Catalogue

def empty : Catalogue := ⟨.empty, [], 0⟩

def add (c : Catalogue) (o : ConfiguredObject) : Catalogue :=
  let object := o.type.name ++ " " ++ o.name
  if o.fits then
    let placed : LogRecord :=
      ⟨.debug, "Indexing " ++ object ++ " at " ++ o.key.render ++ "."⟩
    let repeated : LogRecord :=
      ⟨.warn, "Ignoring a duplicate " ++ o.type.name ++ " object at " ++ o.key.render ++ "."⟩
    { c with
      index := c.index.insert o.key o.listing
      log := c.log ++ placed :: (if c.index.holds o.key o.listing then [repeated] else []) }
  else
    { c with
      log := c.log ++ [⟨.error, "Failed to index " ++ object ++ ": " ++ o.misfit⟩]
      misfits := c.misfits + 1 }

/-- The number of objects left out, if there are any. -/
def closing (c : Catalogue) : List LogRecord :=
  if c.misfits = 0 then []
  else [⟨.warn, Text.decimal c.misfits ++ " object(s) could not be indexed."⟩]

def ofObjects (objects : List ConfiguredObject) : Catalogue :=
  let c := objects.foldl add empty
  { c with log := c.log ++ c.closing }

end Catalogue

end Whois

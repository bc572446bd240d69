import Whois.Options.Basic
import Whois.MatchOperation
import Whois.Target
import Whois.Version

/-!
What a query asks for: everything that follows from its text alone.
-/
namespace Whois

/-- Information about the server, which a query can ask for instead of objects. -/
inductive Information where
  | version
  | types
  | sources
  deriving DecidableEq, Repr

def Information.read? (t : Text) : Option Information :=
  let t := Text.trim t
  if Text.alike t "version" then some .version
  else if Text.alike t "types" then some .types
  else if Text.alike t "sources" then some .sources
  else none

structure Request where
  /-- The text of the query, without blanks at its ends. -/
  text : Text
  options : Options

namespace Request

def read (raw : Text) : Except OptionFault Request := do
  let text := Text.trim raw
  let options ← Options.read text
  .ok ⟨text, options⟩

def has (r : Request) (f : Flag) : Bool := r.options.has f

/-- The values of a flag that takes comma-separated lists, each once. -/
def list (r : Request) (f : Flag) : List Text :=
  ((r.options.values f).flatMap Text.pieces).eraseDups

def key (r : Request) : SearchKey := .ofTerm r.options.searchTerm

def bothDirections (r : Request) : Bool := r.has .reverseDomain

def target (r : Request) : Target := ⟨r.key, r.bothDirections⟩

/-- The operation that the flags select. Two operations exclude each other. -/
def operation? (r : Request) : Option MatchOperation :=
  match MatchOperation.explicit.filter fun op => op.flag?.any r.has with
  | [op] => some op
  | _ => none

/-- The operation to walk the hierarchy with, if the key is a block of number space. -/
def effectiveOperation? (r : Request) : Option MatchOperation :=
  r.target.resource?.map fun _ => r.operation?.getD .exactOrOneLess

/-- The sources named, in capital letters. -/
def sources (r : Request) : List Text := ((r.list .sources).map Text.upper).eraseDups

/-- Whether a text names an object type. -/
def namesType (name : Text) (t : ObjectType) : Bool :=
  match ObjectType.read name with
  | .ok t' => t' == t
  | .error _ => false

/-- The object types named, in listing order. -/
def suppliedTypes (r : Request) : List ObjectType :=
  ObjectType.all.filter fun t => (r.list .selectTypes).any (namesType · t)

/-- The attributes that a name stands for in an inverse query. A person stands for every reference to
persons and roles. -/
def attributesNamed (name : Text) : List AttributeType :=
  match AttributeType.read name with
  | .ok .person => AttributeType.personReferences
  | .ok a => [a]
  | .error _ => []

/-- The attributes that an inverse query searches. -/
def attributeTypes (r : Request) : List AttributeType :=
  ((r.list .inverse).flatMap attributesNamed).eraseDups

/-- Whether a type is among those named. If none is named, all types are, or in a lookup in both
directions those of address space. -/
def isSelected (r : Request) (t : ObjectType) : Bool :=
  if !r.suppliedTypes.isEmpty then r.suppliedTypes.contains t
  else !r.bothDirections || ObjectType.bothDirections.contains t

/-- Whether no flag rules a type out. -/
def isAllowed (r : Request) (t : ObjectType) : Bool :=
  !(r.has .noPersonal && ObjectType.contacts.contains t) &&
    (!r.has .resource || ObjectType.resources.contains t) &&
    (!r.has .abuseContact || ObjectType.withAbuseContact.contains t)

/-- The types of the objects to search, in listing order. Types that the key cannot find are left
out, unless the query is inverse. -/
def objectTypes (r : Request) : List ObjectType :=
  ObjectType.all.filter fun t =>
    r.isSelected t && r.isAllowed t && (r.has .inverse || r.target.canFind t)

def tagsIncluded (r : Request) : List Text := r.list .filterTagInclude

def tagsExcluded (r : Request) : List Text := r.list .filterTagExclude

/-- Whether the query asks for information about the server. -/
def isSystemInfo (r : Request) : Bool :=
  [Flag.listSourcesOrVersion, .listSources, .version, .types].any r.has

def information? (r : Request) : Option Information :=
  match r.options.value? .listSourcesOrVersion with
  | some value => Information.read? value
  | none =>
    if r.has .listSources then some .sources
    else if r.has .version then some .version
    else if r.has .types then some .types
    else none

/-- The type of which a template flag asks for the template. -/
def templateOf? (r : Request) (f : Flag) : Option ObjectType := do
  let name ← r.options.value? f
  (ObjectType.read name).toOption

/-- The version to show. -/
def version? (r : Request) : Option Nat := do
  let value ← r.options.value? .showVersion
  (Version.read value).toOption

/-- The versions to compare. -/
def versionPair? (r : Request) : Option (Nat × Nat) := do
  let value ← r.options.value? .diffVersions
  (Version.readPair value).toOption

/-- Whether the query asks for help. -/
def isHelp (r : Request) : Bool := Text.alike r.key.term "help"

def returnsIrt (r : Request) : Bool :=
  r.has .abuseContact || (!r.has .primaryKeys && r.has .irt)

/-- Whether each result is listed with what relates to it. -/
def isGrouping (r : Request) : Bool :=
  !r.has .primaryKeys && !r.has .noGrouping && !r.has .abuseContact

def returnsReferenced (r : Request) : Bool :=
  !(r.has .noReferenced || r.has .brief || r.has .primaryKeys || r.has .resource ||
    r.has .abuseContact)

/-- Whether only objects that match the key are returned. -/
def isPrimaryOnly (r : Request) : Bool :=
  !(r.returnsReferenced || r.returnsIrt || r.isGrouping)

/-- Whether sensitive attributes are left out of the results. -/
def isFiltered (r : Request) : Bool :=
  !(r.has .noFiltering || r.has .primaryKeys || r.isHelp || r.has .template || r.has .verbose)

/-- Whether a flag is used that says how the hierarchy is walked. -/
def hasIpFlags (r : Request) : Bool := r.options.flags.any (·.group == .matchOperation)

/-- The client that asks on behalf of another, with the address of the other if it is given. -/
def proxy? (r : Request) : Option Text := r.options.value? .client

def isAddress (t : Text) : Bool := (Ipv4.read? t).isSome || (Ipv6.read? t).isSome

/-- A proxy is written `client` or `client,address`. -/
def isProxy (t : Text) : Bool :=
  match Text.pieces t with
  | [_, address] => isAddress address
  | parts => decide (parts.length < 2)

def hasValidProxy (r : Request) : Bool :=
  match r.proxy? with
  | some proxy => isProxy proxy
  | none => true

/-- The address for which a proxy asks. -/
def proxyAddress? (r : Request) : Option Text :=
  match r.proxy?.map Text.pieces with
  | some [_, address] => some address
  | _ => none

/-- Whether the query does nothing but keep the connection open. -/
def isOnlyKeepAlive (r : Request) : Bool :=
  r.has .persistentConnection && r.options.flags.length == 1 && r.key.isEmpty

end Request

end Whois

import Whois.AttributeType

/-!
The types of registry objects. A set of types is the list of its members in listing order.
-/
namespace Whois

/-- In listing order: address space, routing policy, reverse DNS, and all else with contacts last. -/
inductive ObjectType where
  | inetnum | inet6num | asBlock | autNum | asSet | route | route6 | routeSet | inetRtr | filterSet
  | peeringSet | rtrSet | domain | poeticForm | poem | mntner | irt | keyCert | organisation | role
  | person
  deriving DecidableEq, Repr

namespace ObjectType

def all : List ObjectType :=
  [.inetnum, .inet6num, .asBlock, .autNum, .asSet, .route, .route6, .routeSet, .inetRtr,
    .filterSet, .peeringSet, .rtrSet, .domain, .poeticForm, .poem, .mntner, .irt, .keyCert,
    .organisation, .role, .person]

theorem mem_all (t : ObjectType) : t ∈ all := by cases t <;> decide

/-- The full name and the two-letter name. -/
def names : ObjectType → Text × Text
  | .inetnum => ("inetnum", "in")
  | .inet6num => ("inet6num", "i6")
  | .asBlock => ("as-block", "ak")
  | .autNum => ("aut-num", "an")
  | .asSet => ("as-set", "as")
  | .route => ("route", "rt")
  | .route6 => ("route6", "r6")
  | .routeSet => ("route-set", "rs")
  | .inetRtr => ("inet-rtr", "ir")
  | .filterSet => ("filter-set", "fs")
  | .peeringSet => ("peering-set", "ps")
  | .rtrSet => ("rtr-set", "is")
  | .domain => ("domain", "dn")
  | .poeticForm => ("poetic-form", "pf")
  | .poem => ("poem", "po")
  | .mntner => ("mntner", "mt")
  | .irt => ("irt", "it")
  | .keyCert => ("key-cert", "kc")
  | .organisation => ("organisation", "oa")
  | .role => ("role", "ro")
  | .person => ("person", "pn")

def name (t : ObjectType) : Text := t.names.1

def shortName (t : ObjectType) : Text := t.names.2

/-- The attributes through which a query that is not inverse finds objects of a type. -/
def lookupAttributes : ObjectType → List AttributeType
  | .inetnum => [.inetnum]
  | .inet6num => [.inet6num]
  | .asBlock => [.asBlock]
  | .autNum => [.autNum]
  | .asSet => [.asSet]
  | .route => [.route]
  | .route6 => [.route6]
  | .routeSet => [.routeSet]
  | .inetRtr => [.inetRtr]
  | .filterSet => [.filterSet]
  | .peeringSet => [.peeringSet]
  | .rtrSet => [.rtrSet]
  | .domain => [.domain]
  | .poeticForm => [.poeticForm]
  | .poem => [.poem]
  | .mntner => [.mntner]
  | .irt => [.irt]
  | .keyCert => [.keyCert]
  | .organisation => [.organisation]
  | .role => [.role, .nicHdl]
  | .person => [.person, .nicHdl]

/-- Reads either name, whatever its case. -/
def read (t : Text) : Except Misread ObjectType :=
  match all.find? fun o => Text.alike t o.name || Text.alike t o.shortName with
  | some o => .ok o
  | none => .error .noObjectType

/-- The types of address space and AS numbers, which have abuse contacts. -/
def withAbuseContact : List ObjectType := [.inetnum, .inet6num, .autNum]

/-- The types that describe number resources. -/
def resources : List ObjectType := [.autNum, .inetnum, .inet6num, .route, .route6, .domain]

/-- The types that a lookup in both directions searches. -/
def bothDirections : List ObjectType := [.inetnum, .inet6num, .route, .route6, .domain]

/-- The types of contacts. -/
def contacts : List ObjectType := [.role, .person]

end ObjectType

end Whois

import Whois.NameSyntax
import Whois.SearchKey
import Whois.ObjectType

/-!
What a query looks for, and the attributes through which it could find something: a key finds an
object only through an attribute whose syntax the key has.
-/
namespace Whois

structure Target where
  key : SearchKey
  /-- Whether a block of addresses also stands for its reverse-DNS names, and the other way round. -/
  bothDirections : Bool

namespace Target

/-- The IP block to search. -/
def ipBlock? (t : Target) : Option IpBlock :=
  t.key.ipBlock?.or (if t.bothDirections then t.key.reverseBlock? else none)

/-- The IP block whose reverse-DNS domains are searched. -/
def reverseBlock? (t : Target) : Option IpBlock :=
  t.key.reverseBlock?.or (if t.bothDirections then t.key.ipBlock? else none)

/-- The block of number space to search. -/
def resource? (t : Target) : Option ResourceKey :=
  t.key.resource?.or (t.ipBlock?.map .ip)

open NameSyntax in
/-- Whether objects can be found through an attribute. -/
def canUse (t : Target) (a : AttributeType) : Bool :=
  let term := t.key.term
  let plain := t.key.kind == .plain
  match a with
  | .inetnum | .route => t.ipBlock?.any IpBlock.isV4
  | .inet6num | .route6 => t.ipBlock?.any IpBlock.isV6
  | .autNum | .origin | .localAs => t.key.kind == .asNumber
  | .asBlock => t.key.asRange?.isSome
  | .domain => t.reverseBlock?.isSome || (plain && isDomainName term)
  | .inetRtr => plain && isDomainName term
  | .asSet => isSetName "AS-" term
  | .routeSet => isSetName "RS-" term
  | .filterSet => isSetName "FLTR-" term
  | .peeringSet => isSetName "PRNG-" term
  | .rtrSet => isSetName "RTRS-" term
  | .irt => isMarkedName "IRT-" term
  | .poem => isMarkedName "POEM-" term
  | .poeticForm => isMarkedName "FORM-" term
  | .organisation => isMarkedName "ORG-" term
  | .keyCert => isKeyCert term
  | .mntner => isObjectName term
  | .nicHdl => isNicHandle term
  | .person | .role => isPersonName term
  | _ => !term.isEmpty

/-- Whether objects of a type can be found at all. -/
def canFind (t : Target) (o : ObjectType) : Bool := o.lookupAttributes.any t.canUse

/-- Whether objects of a type can be found through an attribute. -/
def canFindBy (t : Target) (o : ObjectType) (a : AttributeType) : Bool :=
  o.lookupAttributes.contains a && t.canUse a

end Target

end Whois

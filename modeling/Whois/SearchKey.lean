import Whois.Block.Reverse
import Whois.ResourceKey

/-!
The search term of a query, and the forms that it can have. A term that has no other form is plain.
-/
namespace Whois

inductive SearchForm where
  | plain
  | reverseName (block : IpBlock)
  | ip (block : IpBlock)
  | route (block : IpBlock) (origin : AsNumber)
  | asNumber (number : AsNumber)
  | asRange (range : AsRange)
  deriving DecidableEq

/-- What a term is looked up as. A reverse-DNS name is looked up by name, as a plain term is. -/
inductive SearchKind where
  | plain | ipv4 | ipv6 | asNumber | asRange
  deriving DecidableEq, Repr

def SearchKind.render : SearchKind → Text
  | .plain => "Plain"
  | .ipv4 => "Ipv4"
  | .ipv6 => "Ipv6"
  | .asNumber => "AsNumber"
  | .asRange => "AsRange"

structure SearchKey where
  term : Text
  form : SearchForm
  deriving DecidableEq

namespace SearchForm

/-- Cuts a text before the last `AS` in it, of either case. -/
def cutLastAs? : Text → Option (Text × Text)
  | [] => none
  | c :: rest =>
    match cutLastAs? rest with
    | some (before, after) => some (c :: before, after)
    | none =>
      if (Text.afterLead? "AS" (c :: rest)).isSome then some ([], c :: rest) else none

/-- An IP prefix directly followed by the AS number that announces it, such as
`10.0.0.0/8AS3333`. -/
def route? (t : Text) : Option (IpBlock × AsNumber) := do
  let (announced, origin) ← cutLastAs? t
  if announced.contains '/' then
    let block ← IpBlock.read? announced
    let origin ← (AsNumber.read origin).toOption
    some (block, origin)
  else none

/-- The form of a text without blanks at its ends. -/
def ofText (t : Text) : SearchForm :=
  match IpBlock.readV4? t with
  | some block => .ip block
  | none =>
  match IpBlock.readV6? t with
  | some block => .ip block
  | none =>
  match route? t with
  | some (block, origin) => .route block origin
  | none =>
  match AsNumber.read t with
  | .ok number => .asNumber number
  | .error _ =>
  match AsRange.read t with
  | .ok range => .asRange range
  | .error _ =>
  match ReverseName.block? t with
  | some block => .reverseName block
  | none => .plain

end SearchForm

namespace SearchKey

def ofTerm (t : Text) : SearchKey :=
  let term := Text.trim t
  ⟨term, SearchForm.ofText term⟩

def isEmpty (key : SearchKey) : Bool := key.term.isEmpty

/-- The IP block that the term denotes. -/
def ipBlock? (key : SearchKey) : Option IpBlock :=
  match key.form with
  | .ip block | .route block _ => some block
  | _ => none

/-- The IP block that the term delegates, if it is a reverse-DNS name. -/
def reverseBlock? (key : SearchKey) : Option IpBlock :=
  match key.form with
  | .reverseName block => some block
  | _ => none

/-- The AS numbers that the term denotes. -/
def asRange? (key : SearchKey) : Option AsRange :=
  match key.form with
  | .asNumber number => some (AsRange.ofNumber number)
  | .asRange range => some range
  | _ => none

/-- The AS number that announces a route. -/
def origin? (key : SearchKey) : Option AsNumber :=
  match key.form with
  | .route _ origin => some origin
  | _ => none

/-- The block of number space that the term denotes. -/
def resource? (key : SearchKey) : Option ResourceKey :=
  (key.ipBlock?.map ResourceKey.ip).or (key.asRange?.map ResourceKey.asn)

def kind (key : SearchKey) : SearchKind :=
  match key.form with
  | .plain | .reverseName _ => .plain
  | .ip block | .route block _ => if block.isV4 then .ipv4 else .ipv6
  | .asNumber _ => .asNumber
  | .asRange _ => .asRange

/-- The canonical text of the term. Plain terms and names stay as they are. -/
def normalized (key : SearchKey) : Text :=
  match key.resource?, key.origin? with
  | some resource, some origin => resource.render ++ origin.render
  | some resource, none => resource.render
  | none, _ => key.term

end SearchKey

end Whois

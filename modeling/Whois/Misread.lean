import Whois.Text.Basic

/-!
Why a text is not the written form of a value.
-/
namespace Whois

inductive Misread where
  | noIpBlock
  | noAsMark
  | noAsNumber
  | noHyphen
  | reversedRange
  | noResourceKey
  | noObjectType
  | noAttribute
  | noOrigin
  deriving DecidableEq, Repr

def Misread.message : Misread → Text
  | .noIpBlock => "not an IP address, prefix, or range"
  | .noAsMark => "AS numbers must start with AS"
  | .noAsNumber => "AS number is not a valid unsigned 32-bit integer"
  | .noHyphen => "AS ranges need a hyphen"
  | .reversedRange => "AS range ends before it begins"
  | .noResourceKey => "not an IP block, AS number, or AS range"
  | .noObjectType => "unknown object type"
  | .noAttribute => "unknown attribute"
  | .noOrigin => "expected \"direct\" or \"authenticated\""

end Whois

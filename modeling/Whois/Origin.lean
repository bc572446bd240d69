import Whois.Text.Case
import Whois.Misread

/-!
The channel through which a query arrives, and the credentials that may come with it.
-/
namespace Whois

inductive Origin where
  /-- The line protocol, which does not authenticate. -/
  | direct
  | authenticated
  deriving DecidableEq, Repr

structure Credentials where
  ssoToken : Option Text
  passwords : List Text
  deriving DecidableEq

namespace Origin

def render : Origin → Text
  | .direct => "direct"
  | .authenticated => "authenticated"

def read (t : Text) : Except Misread Origin :=
  if Text.alike t "direct" then .ok .direct
  else if Text.alike t "authenticated" then .ok .authenticated
  else .error .noOrigin

/-- The credentials that are kept. Those that come over the direct channel are dropped. -/
def keep : Origin → Option Credentials → Option Credentials
  | .direct, _ => none
  | .authenticated, credentials => credentials

end Origin

end Whois

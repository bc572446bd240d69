import Whois.Text.Basic

/-!
Log records, as the resolution of queries and the program around it write them.
-/
namespace Whois

inductive LogLevel where
  | error
  | warn
  | info
  | debug
  | trace
  deriving DecidableEq, Repr

def LogLevel.render : LogLevel → Text
  | .error => "ERROR"
  | .warn => "WARN"
  | .info => "INFO"
  | .debug => "DEBUG"
  | .trace => "TRACE"

/-- Whether records of a level are written even if nobody asks for detail. -/
def LogLevel.isUrgent : LogLevel → Bool
  | .error | .warn => true
  | .info | .debug | .trace => false

structure LogRecord where
  level : LogLevel
  message : Text
  deriving DecidableEq

end Whois

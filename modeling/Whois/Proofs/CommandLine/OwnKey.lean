import Whois.Proofs.CommandLine.Run
import Whois.Proofs.Configuration
import Whois.Proofs.Index.LessSpecific
import Whois.Proofs.Query.ExactKey
import Whois.Proofs.Query.ObjectTypes

/-!
Objects that are looked up by their own key.
-/
namespace Whois

namespace ConfiguredObject

variable {o : ConfiguredObject}

section Target
variable {t : ObjectType} {target : Target}

end Target

end ConfiguredObject

namespace CommandLine

end CommandLine

end Whois

import Whois.Configuration.Basic
import Whois.Proofs.ResourceKey

/-!
What a configuration that loads holds: the key of every object is one that has a written form.
-/
namespace Whois

section Reading
variable {ε α β : Type}

end Reading

namespace ConfiguredObject

/-- Whether the key of a draft is writable, if it has been read. -/
def Draft.IsWritable (d : Draft) : Prop := ∀ key, d.key = some key → key.IsWritable

end ConfiguredObject

namespace Configuration

end Configuration

end Whois

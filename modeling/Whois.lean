import Whois.Main
import Whois.Proofs.CommandLine.Independence
import Whois.Proofs.Index.FirstLevel
import Whois.Proofs.Index.LessSpecific
import Whois.Proofs.Options.Composition
import Whois.Proofs.Query.Coherence
import Whois.Proofs.Index.Reach
import Whois.Proofs.Index.Restriction
import Whois.Proofs.CommandLine.Selection
import Whois.Proofs.Text.Numeral
import Whois.Proofs.Address.Ipv4
import Whois.Proofs.Address.Ipv6
import Whois.Proofs.Block.Ip
import Whois.Proofs.Block.Autonomous
import Whois.Proofs.ResourceKey
import Whois.Proofs.SearchKey
import Whois.Proofs.Options.SearchWords
import Whois.Proofs.Configuration
import Whois.Proofs.Query.ExactKey
import Whois.Proofs.CommandLine.OwnKey
import Whois.Proofs.Options.Writing
import Whois.Proofs.Block.Reverse
import Whois.Proofs.CanonicalForm
import Whois.Proofs.Index.ListingOrder
import Whois.Proofs.Index.Pointwise
import Whois.Proofs.CommandLine.Answer
import Whois.Proofs.Index.Levels
import Whois.Proofs.NameSyntax
import Whois.Proofs.Query.ObjectTypes
import Whois.Proofs.SearchForm
import Whois.Proofs.Options.Following
import Whois.Proofs.Query.Outcome
import Whois.Proofs.Query.Interchange
import Whois.Proofs.Query.Case
import Whois.Proofs.RangeName
import Whois.Proofs.Text.Lines
import Whois.Proofs.Options.Quoted
import Whois.Proofs.Query.RangeSpelling
import Whois.Proofs.Query.CommaList
import Whois.Proofs.Query.ReportLines
import Whois.Proofs.Query.IgnoredFlag
import Whois.Proofs.Index.Insertion
import Whois.Proofs.Block.ExactPrefix
import Whois.Proofs.Block.ReverseGrammar
import Whois.Proofs.CanonicalTerm
import Whois.Proofs.Options.Accounting
import Whois.Proofs.Query.TypeFilter
import Whois.Proofs.Query.Combination
import Whois.Proofs.Query.AbuseContact
import Whois.Proofs.CommandLine.Catalogue
import Whois.Proofs.Options.Spread
import Whois.Proofs.Query.Distribution
import Whois.Proofs.Flag.Tables
import Whois.Proofs.Options.WellFormed
import Whois.Proofs.Version
import Whois.Proofs.Query.Findable
import Whois.Proofs.WordKey
import Whois.Proofs.Index.KeyOrder
import Whois.Proofs.Options.Lookahead

import Whois.Text.Case

/-!
The flags of the query language: how they are spelled, what part of a query they control, and
whether they take a value.
-/
namespace Whois

inductive Flag where
  | brief
  | abuseContact
  | primaryKeys
  | noGrouping
  | noReferenced
  | irt
  | noFiltering
  | exact
  | oneLess
  | allLess
  | oneMore
  | allMore
  | reverseDomain
  | inverse
  | selectTypes
  | noPersonal
  | showPersonal
  | sources
  | allSources
  | resource
  | listSourcesOrVersion
  | listSources
  | version
  | types
  | template
  | verbose
  | listVersions
  | diffVersions
  | showVersion
  | persistentConnection
  | client
  | noTagInfo
  | showTagInfo
  | filterTagInclude
  | filterTagExclude
  | validSyntax
  | noValidSyntax
  deriving DecidableEq, Repr

/-- The part of a query that a flag controls. -/
inductive FlagGroup where
  | matchOperation
  | output
  | filter
  | inverse
  | systemInfo
  | version
  | tag
  | connection
  deriving DecidableEq, Repr

/-- A letter after one dash, or a longer name after two. -/
inductive Spelling where
  | letter (c : Char)
  | name (word : Text)
  deriving DecidableEq

/-- Whether a flag takes a value. An optional value has to be attached to the flag, so that it never
takes a word of the search term. -/
inductive Arity where
  | switch
  | required
  | optional
  deriving DecidableEq, Repr

structure FlagSpec where
  flag : Flag
  arity : Arity
  group : FlagGroup
  /-- Whether the flag may be given several times with different values. -/
  repeatable : Bool
  deriving DecidableEq

namespace Spelling

def text : Spelling → Text
  | .letter c => [c]
  | .name word => word

def render : Spelling → Text
  | .letter c => ['-', c]
  | .name word => '-' :: '-' :: word

/-- Whether two spellings cannot be told apart. Case counts in letters and not in names. -/
def clashes : Spelling → Spelling → Bool
  | .letter c, .letter d => c == d
  | .name v, .name w => Text.alike v w
  | _, _ => false

end Spelling

namespace Flag

/-- All flags, in the order in which flags are listed. -/
def all : List Flag :=
  [.brief, .abuseContact, .primaryKeys, .noGrouping, .noReferenced, .irt, .noFiltering, .exact,
    .oneLess, .allLess, .oneMore, .allMore, .reverseDomain, .inverse, .selectTypes, .noPersonal,
    .showPersonal, .sources, .allSources, .resource, .listSourcesOrVersion, .listSources, .version,
    .types, .template, .verbose, .listVersions, .diffVersions, .showVersion, .persistentConnection,
    .client, .noTagInfo, .showTagInfo, .filterTagInclude, .filterTagExclude, .validSyntax,
    .noValidSyntax]

theorem mem_all (f : Flag) : f ∈ all := by cases f <;> decide

def spellings : Flag → List Spelling
  | .brief => [.letter 'F', .name "brief"]
  | .abuseContact => [.letter 'b', .name "abuse-contact"]
  | .primaryKeys => [.letter 'K', .name "primary-keys"]
  | .noGrouping => [.letter 'G', .name "no-grouping"]
  | .noReferenced => [.letter 'r', .name "no-referenced"]
  | .irt => [.letter 'c', .name "irt"]
  | .noFiltering => [.letter 'B', .name "no-filtering"]
  | .exact => [.letter 'x', .name "exact"]
  | .oneLess => [.letter 'l', .name "one-less"]
  | .allLess => [.letter 'L', .name "all-less"]
  | .oneMore => [.letter 'm', .name "one-more"]
  | .allMore => [.letter 'M', .name "all-more"]
  | .reverseDomain => [.letter 'd', .name "reverse-domain"]
  | .inverse => [.letter 'i', .name "inverse"]
  | .selectTypes => [.letter 'T', .name "select-types"]
  | .noPersonal => [.name "no-personal"]
  | .showPersonal => [.name "show-personal"]
  | .sources => [.letter 's', .name "sources"]
  | .allSources => [.letter 'a', .name "all-sources"]
  | .resource => [.name "resource"]
  | .listSourcesOrVersion => [.letter 'q']
  | .listSources => [.name "list-sources"]
  | .version => [.name "version"]
  | .types => [.name "types"]
  | .template => [.letter 't', .name "template"]
  | .verbose => [.letter 'v', .name "verbose"]
  | .listVersions => [.name "list-versions"]
  | .diffVersions => [.name "diff-versions"]
  | .showVersion => [.name "show-version"]
  | .persistentConnection => [.letter 'k', .name "persistent-connection"]
  | .client => [.letter 'V', .name "client"]
  | .noTagInfo => [.name "no-tag-info"]
  | .showTagInfo => [.name "show-tag-info"]
  | .filterTagInclude => [.name "filter-tag-include"]
  | .filterTagExclude => [.name "filter-tag-exclude"]
  | .validSyntax => [.name "valid-syntax"]
  | .noValidSyntax => [.name "no-valid-syntax"]

/-- The longest spelling of a flag, which comes last. -/
def name (f : Flag) : Text :=
  match f.spellings.getLast? with
  | some s => s.text
  | none => []

/-- A flag as it is shown to users: all its spellings, with their dashes. -/
def render (f : Flag) : Text := Text.join ", " (f.spellings.map Spelling.render)

/-- A flag as the log shows it. -/
def label : Flag → Text
  | .brief => "Brief"
  | .abuseContact => "AbuseContact"
  | .primaryKeys => "PrimaryKeys"
  | .noGrouping => "NoGrouping"
  | .noReferenced => "NoReferenced"
  | .irt => "Irt"
  | .noFiltering => "NoFiltering"
  | .exact => "Exact"
  | .oneLess => "OneLess"
  | .allLess => "AllLess"
  | .oneMore => "OneMore"
  | .allMore => "AllMore"
  | .reverseDomain => "ReverseDomain"
  | .inverse => "Inverse"
  | .selectTypes => "SelectTypes"
  | .noPersonal => "NoPersonal"
  | .showPersonal => "ShowPersonal"
  | .sources => "Sources"
  | .allSources => "AllSources"
  | .resource => "Resource"
  | .listSourcesOrVersion => "ListSourcesOrVersion"
  | .listSources => "ListSources"
  | .version => "Version"
  | .types => "Types"
  | .template => "Template"
  | .verbose => "Verbose"
  | .listVersions => "ListVersions"
  | .diffVersions => "DiffVersions"
  | .showVersion => "ShowVersion"
  | .persistentConnection => "PersistentConnection"
  | .client => "Client"
  | .noTagInfo => "NoTagInfo"
  | .showTagInfo => "ShowTagInfo"
  | .filterTagInclude => "FilterTagInclude"
  | .filterTagExclude => "FilterTagExclude"
  | .validSyntax => "ValidSyntax"
  | .noValidSyntax => "NoValidSyntax"

def group : Flag → FlagGroup
  | .exact | .oneLess | .allLess | .oneMore | .allMore | .reverseDomain => .matchOperation
  | .brief | .abuseContact | .primaryKeys | .noGrouping | .noReferenced | .irt | .noFiltering =>
    .output
  | .selectTypes | .noPersonal | .showPersonal | .sources | .allSources | .resource
  | .validSyntax | .noValidSyntax => .filter
  | .inverse => .inverse
  | .listSourcesOrVersion | .listSources | .version | .types | .template | .verbose => .systemInfo
  | .listVersions | .diffVersions | .showVersion => .version
  | .noTagInfo | .showTagInfo | .filterTagInclude | .filterTagExclude => .tag
  | .persistentConnection | .client => .connection

end Flag

/-- A flag that is used in its own group. -/
def FlagSpec.new (f : Flag) (arity : Arity) (repeatable : Bool) : FlagSpec :=
  ⟨f, arity, f.group, repeatable⟩

/-- How a flag is used in queries. -/
def Flag.standardSpec (f : Flag) : FlagSpec :=
  match f with
  | .inverse | .selectTypes | .sources | .filterTagInclude | .filterTagExclude =>
    .new f .required true
  | .listSourcesOrVersion | .template | .verbose | .diffVersions | .showVersion | .client =>
    .new f .required false
  | _ => .new f .switch false

end Whois

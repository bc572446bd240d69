import Whois.Query.Request
import Whois.Issue
import Whois.Origin

/-!
The checks that a query has to pass. Every check looks at the whole query and none hides another, so
that all problems are reported at once.
-/
namespace Whois

/-- What a query asks for, with the channel through which it came and the credentials it keeps. -/
structure Query extends Request where
  origin : Origin
  credentials : Option Credentials

namespace Request

def typeIssue? (name : Text) : Option Issue :=
  match ObjectType.read name with
  | .ok _ => none
  | .error _ => some (.unknownObjectType name)

def attributeIssue? (name : Text) : Option Issue :=
  match AttributeType.read name with
  | .ok _ => none
  | .error _ => some (.unknownAttribute name)

def informationIssue? (value : Text) : Option Issue :=
  match Information.read? value with
  | some _ => none
  | none => some (.unknownInformation (Text.trim value))

/-- The flags given that select an operation. -/
def operationFlags (r : Request) : List Flag :=
  (MatchOperation.explicit.filterMap MatchOperation.flag?).filter r.has

/-- Whether the query asks for everything inside a whole number space. -/
def isWholeSpaceLookup (r : Request) : Bool :=
  r.operation?.any MatchOperation.isMoreSpecific && r.target.resource?.any ResourceKey.isWhole

/-- Flags that cannot be used together, each pair once. -/
def incompatible : List (Flag × List Flag) :=
  [(.abuseContact, [.brief, .primaryKeys, .inverse, .template, .verbose]),
    (.primaryKeys, [.brief]),
    (.noPersonal, [.showPersonal]),
    (.noTagInfo, [.showTagInfo, .filterTagInclude, .filterTagExclude]),
    (.validSyntax, [.noValidSyntax]),
    (.allSources, [.sources]),
    (.listVersions, [.diffVersions, .showVersion]),
    (.diffVersions, [.showVersion])]

/-- Whether a flag cannot be used in a query for versions. -/
def isNotWithVersions (f : Flag) : Bool :=
  [FlagGroup.matchOperation, .inverse].contains f.group ||
    [Flag.brief, .abuseContact, .primaryKeys, .template, .verbose, .resource, .sources,
      .allSources].contains f

/-- Flags that have no effect when another is given. -/
def overridden : List (Flag × List Flag) :=
  [(.primaryKeys, [.noReferenced, .noGrouping]),
    (.brief, [.noReferenced])]

/-- The pairs of a table both of whose flags are given. -/
def pairsGiven (r : Request) (table : List (Flag × List Flag)) : List (Flag × Flag) :=
  (table.filter fun row => r.has row.1).flatMap fun row =>
    (row.2.filter r.has).map fun other => (row.1, other)

/-- The flags of a query for versions, each with the flags that cannot be used beside it. -/
def versionTable : List (Flag × List Flag) :=
  (Registry.standard.flagsIn .version).map fun f => (f, Flag.all.filter isNotWithVersions)

/-- Whether the query means nothing without a search term. -/
def needsKey (r : Request) : Bool :=
  !(r.isSystemInfo || r.has .template || r.has .verbose || r.isOnlyKeepAlive)

def conflictingTags (r : Request) : List Text :=
  r.tagsIncluded.filter fun tag => r.tagsExcluded.any (Text.alike tag)

/-- The issue of a value that cannot be read. -/
def versionIssue? {α : Type} : Except VersionFault α → Option Issue
  | .ok _ => none
  | .error fault => some (.invalidVersion fault)

end Request

namespace Query
open Request

/-- Values that do not name what they should. -/
def valueIssues (q : Query) : List Issue :=
  (q.list .selectTypes).filterMap typeIssue? ++
    (q.list .inverse).filterMap attributeIssue? ++
    ([Flag.template, .verbose].filterMap q.options.value?).filterMap typeIssue? ++
    (q.options.value? .listSourcesOrVersion).toList.filterMap informationIssue?

/-- One operation at most, for a key that is a block, and not everything inside a whole space. -/
def operationIssues (q : Query) : List Issue :=
  match q.operationFlags, q.target.resource? with
  | _ :: _ :: _, _ => [.duplicateIpFlags]
  | [flag], none => [.uselessIpFlag flag]
  | _, _ =>
    if q.bothDirections && q.target.ipBlock?.isNone then [.uselessIpFlag .reverseDomain]
    else if q.isWholeSpaceLookup then [.illegalRange]
    else []

def proxyIssues (q : Query) : List Issue :=
  (q.proxy?.toList.filter fun proxy => !isProxy proxy).map .invalidProxy

/-- Abuse contacts belong to types that the key has to be able to find. -/
def abuseContactIssues (q : Query) : List Issue :=
  if q.has .abuseContact && q.objectTypes.isEmpty then [.abuseContactNotApplicable] else []

def combinationIssues (q : Query) : List Issue :=
  (q.pairsGiven (incompatible ++ versionTable)).map (fun (a, b) => .invalidCombination a b) ++
    (q.pairsGiven overridden).map fun (because, ignored) => .ignoredFlag ignored because

def keyIssues (q : Query) : List Issue :=
  (if q.needsKey && q.key.isEmpty then [.noSearchKey] else []) ++
    (q.attributeTypes.filter (!·.isInverseKey)).map .attributeNotSearchable

def tagIssues (q : Query) : List Issue :=
  if q.conflictingTags.isEmpty then [] else [.conflictingTags q.conflictingTags]

def versionIssues (q : Query) : List Issue :=
  (q.options.value? .showVersion).toList.filterMap (versionIssue? <| Version.read ·) ++
    (q.options.value? .diffVersions).toList.filterMap (versionIssue? <| Version.readPair ·)

/-- The checks of a query as a whole, in the order of their reports. -/
def checks : List (Query → List Issue) :=
  [operationIssues, proxyIssues, abuseContactIssues, combinationIssues, keyIssues, tagIssues,
    versionIssues]

/-- All issues of a query. Those with the values of its flags come first. -/
def issues (q : Query) : List Issue := q.valueIssues ++ checks.flatMap fun check => check q

end Query

end Whois

import Whois.Text.Case
import Whois.Misread

/-!
The attributes of registry objects that a query can refer to: the keys of objects, the references
from one object to another, which inverse queries search, and some common descriptive attributes.
-/
namespace Whois

inductive AttributeType where
  -- keys
  | asBlock | asSet | autNum | domain | filterSet | inet6num | inetnum | inetRtr | irt | keyCert
  | mntner | nicHdl | organisation | peeringSet | person | poem | poeticForm | role | route
  | route6 | routeSet | rtrSet
  -- references
  | abuseC | abuseMailbox | adminC | auth | author | dsRdata | fingerpr | form | interface | irtNfy
  | localAs | mbrsByRef | memberOf | members | mntBy | mntDomains | mntIrt | mntLower | mntNfy
  | mntRef | mntRoutes | mpMembers | notify | nserver | org | origin | pingHdl | refNfy
  | sponsoringOrg | techC | updTo | zoneC
  -- descriptions
  | asName | country | descr | netname | remarks | source | status
  deriving DecidableEq, Repr

namespace AttributeType

/-- All attributes, in the order in which attributes are listed. -/
def all : List AttributeType :=
  [.asBlock, .asSet, .autNum, .domain, .filterSet, .inet6num, .inetnum, .inetRtr, .irt, .keyCert,
    .mntner, .nicHdl, .organisation, .peeringSet, .person, .poem, .poeticForm, .role, .route,
    .route6, .routeSet, .rtrSet, .abuseC, .abuseMailbox, .adminC, .auth, .author, .dsRdata,
    .fingerpr, .form, .interface, .irtNfy, .localAs, .mbrsByRef, .memberOf, .members, .mntBy,
    .mntDomains, .mntIrt, .mntLower, .mntNfy, .mntRef, .mntRoutes, .mpMembers, .notify, .nserver,
    .org, .origin, .pingHdl, .refNfy, .sponsoringOrg, .techC, .updTo, .zoneC, .asName, .country,
    .descr, .netname, .remarks, .source, .status]

theorem mem_all (a : AttributeType) : a ∈ all := by cases a <;> decide

/-- The full name and the two-letter name. -/
def names : AttributeType → Text × Text
  | .asBlock => ("as-block", "ak")
  | .asSet => ("as-set", "as")
  | .autNum => ("aut-num", "an")
  | .domain => ("domain", "dn")
  | .filterSet => ("filter-set", "fs")
  | .inet6num => ("inet6num", "i6")
  | .inetnum => ("inetnum", "in")
  | .inetRtr => ("inet-rtr", "ir")
  | .irt => ("irt", "it")
  | .keyCert => ("key-cert", "kc")
  | .mntner => ("mntner", "mt")
  | .nicHdl => ("nic-hdl", "nh")
  | .organisation => ("organisation", "oa")
  | .peeringSet => ("peering-set", "ps")
  | .person => ("person", "pn")
  | .poem => ("poem", "po")
  | .poeticForm => ("poetic-form", "pf")
  | .role => ("role", "ro")
  | .route => ("route", "rt")
  | .route6 => ("route6", "r6")
  | .routeSet => ("route-set", "rs")
  | .rtrSet => ("rtr-set", "is")
  | .abuseC => ("abuse-c", "au")
  | .abuseMailbox => ("abuse-mailbox", "am")
  | .adminC => ("admin-c", "ac")
  | .auth => ("auth", "at")
  | .author => ("author", "ah")
  | .dsRdata => ("ds-rdata", "ds")
  | .fingerpr => ("fingerpr", "fp")
  | .form => ("form", "fr")
  | .interface => ("interface", "ze")
  | .irtNfy => ("irt-nfy", "iy")
  | .localAs => ("local-as", "la")
  | .mbrsByRef => ("mbrs-by-ref", "mr")
  | .memberOf => ("member-of", "mo")
  | .members => ("members", "ms")
  | .mntBy => ("mnt-by", "mb")
  | .mntDomains => ("mnt-domains", "md")
  | .mntIrt => ("mnt-irt", "mi")
  | .mntLower => ("mnt-lower", "ml")
  | .mntNfy => ("mnt-nfy", "mn")
  | .mntRef => ("mnt-ref", "mz")
  | .mntRoutes => ("mnt-routes", "mu")
  | .mpMembers => ("mp-members", "mm")
  | .notify => ("notify", "ny")
  | .nserver => ("nserver", "ns")
  | .org => ("org", "og")
  | .origin => ("origin", "or")
  | .pingHdl => ("ping-hdl", "pc")
  | .refNfy => ("ref-nfy", "rn")
  | .sponsoringOrg => ("sponsoring-org", "sp")
  | .techC => ("tech-c", "tc")
  | .updTo => ("upd-to", "dt")
  | .zoneC => ("zone-c", "zc")
  | .asName => ("as-name", "aa")
  | .country => ("country", "cy")
  | .descr => ("descr", "de")
  | .netname => ("netname", "na")
  | .remarks => ("remarks", "rm")
  | .source => ("source", "so")
  | .status => ("status", "st")

def name (a : AttributeType) : Text := a.names.1

def shortName (a : AttributeType) : Text := a.names.2

/-- Whether inverse queries can search the attribute: whether it refers to other objects. -/
def isInverseKey : AttributeType → Bool
  | .abuseC | .abuseMailbox | .adminC | .auth | .author | .dsRdata | .fingerpr | .form | .interface
  | .irtNfy | .localAs | .mbrsByRef | .memberOf | .members | .mntBy | .mntDomains | .mntIrt
  | .mntLower | .mntNfy | .mntRef | .mntRoutes | .mpMembers | .notify | .nserver | .org | .origin
  | .pingHdl | .refNfy | .sponsoringOrg | .techC | .updTo | .zoneC => true
  | _ => false

/-- The attributes that refer to a person or role. -/
def personReferences : List AttributeType := [.adminC, .techC, .zoneC, .author, .pingHdl]

/-- Reads either name, whatever its case. -/
def read (t : Text) : Except Misread AttributeType :=
  match all.find? fun a => Text.alike t a.name || Text.alike t a.shortName with
  | some a => .ok a
  | none => .error .noAttribute

end AttributeType

end Whois

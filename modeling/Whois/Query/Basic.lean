import Whois.Query.Checks
import Whois.Log

/-!
The resolution of queries. A query is built, checked and then handed out with its credentials, and
every outcome is logged.
-/
namespace Whois.Query

/-- A query as it is checked: its origin is known, and it has no credentials yet. -/
def build (r : Request) (origin : Origin) : Query := ⟨r, origin, none⟩

/-- What is unusual about a query that is handed out, as the checks found it. -/
def warnings (q : Query) : List Issue :=
  (build q.toRequest q.origin).issues.filter (!·.isError)

/-- The record of a query whose flags cannot be read. -/
def malformed (text : Text) (fault : OptionFault) : LogRecord :=
  ⟨.debug, "Query " ++ Text.quote text ++ " is malformed: " ++ fault.message ++ "."⟩

/-- The record of a query that is refused. -/
def invalid (text : Text) (rejection : Rejection) : LogRecord :=
  ⟨.debug, "Query " ++ Text.quote text ++ " is invalid (" ++ rejection.reason.render ++ ")."⟩

/-- The record of credentials that a query brought over the direct channel. -/
def dropped (origin : Origin) (credentials : Option Credentials) : List LogRecord :=
  if origin = .direct ∧ credentials.isSome then
    [⟨.warn, "Dropping credentials supplied with a direct query."⟩]
  else []

/-- The record of a query that is handed out. -/
def resolved (q : Query) : LogRecord :=
  let operation : Text :=
    match q.operation? with
    | some op => "Some(" ++ op.label ++ ")"
    | none => "None"
  ⟨.debug, "Resolved query " ++ Text.quote q.text ++ ": key " ++ q.key.kind.render ++
    ", operation " ++ operation ++ ", " ++ Text.decimal q.objectTypes.length ++
    " object type(s)."⟩

/-- Reads and checks a query, with the records of it. -/
def resolution (raw : Text) (origin : Origin) (credentials : Option Credentials) :
    Except Rejection Query × List LogRecord :=
  match Request.read raw with
  | .error fault => (.error (.ofFault fault), [malformed (Text.trim raw) fault])
  | .ok request =>
    match (build request origin).issues.filter Issue.isError with
    | [] =>
      let q : Query := { request with origin, credentials := origin.keep credentials }
      (.ok q, request.options.parsed :: (dropped origin credentials ++ [q.resolved]))
    | first :: others =>
      (.error ⟨first, others⟩, [request.options.parsed, invalid request.text ⟨first, others⟩])

def resolve (raw : Text) (origin : Origin) (credentials : Option Credentials) :
    Except Rejection Query :=
  (resolution raw origin credentials).1

def ssoToken? (q : Query) : Option Text := q.credentials.bind (·.ssoToken)

def passwords (q : Query) : List Text :=
  match q.credentials with
  | some credentials => credentials.passwords
  | none => []

end Whois.Query

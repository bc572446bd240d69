import Whois.Query.Basic

/-!
A query is checked with the channel through which it came, but no check looks at it. So what is found
in a query follows from what it asks for.
-/
namespace Whois

namespace Query

variable {q q' : Query} (h : q.toRequest = q'.toRequest)
include h

theorem valueIssues_congr : q.valueIssues = q'.valueIssues := by
  unfold valueIssues
  rw [h]

/-- No check tells queries apart that ask for the same. -/
theorem checks_congr : ∀ check ∈ checks, check q = check q' := by
  unfold checks
  simp only [List.forall_mem_cons]
  refine ⟨?operation, ?proxy, ?abuseContact, ?combination, ?key, ?tags, ?versions, nofun⟩
  case operation => unfold operationIssues; rw [h]
  case proxy => unfold proxyIssues; rw [h]
  case abuseContact => unfold abuseContactIssues; rw [h]
  case combination => unfold combinationIssues; rw [h]
  case key => unfold keyIssues; rw [h]
  case tags => unfold tagIssues; rw [h]
  case versions => unfold versionIssues; rw [h]

theorem issues_congr : q.issues = q'.issues := by
  have hchecks : checks.map (fun check => check q) = checks.map fun check => check q' :=
    List.map_congr_left (checks_congr h)
  unfold issues
  rw [valueIssues_congr h, List.flatMap_def, hchecks, ← List.flatMap_def]

end Query

namespace Request

/-- The combinations of flags that are reported for a request, whatever its channel. -/
def combinationIssues (r : Request) : List Issue := (Query.build r .direct).combinationIssues

/-- What is found in a request, whatever its channel. -/
def issues (r : Request) : List Issue := (Query.build r .direct).issues

def errors (r : Request) : List Issue := r.issues.filter Issue.isError

end Request

namespace Query

@[simp]
theorem toRequest_build (r : Request) (origin : Origin) : (build r origin).toRequest = r := rfl

theorem issues_eq (q : Query) : q.issues = q.toRequest.issues := issues_congr rfl

theorem warnings_eq (q : Query) : q.warnings = q.toRequest.issues.filter (!·.isError) := by
  unfold warnings
  rw [issues_eq]
  rfl

end Query

end Whois

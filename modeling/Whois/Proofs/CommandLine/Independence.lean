import Whois.Proofs.CommandLine.Run
import Whois.Proofs.Query.Rejection

/-!
Runs that differ only in the channel of their queries and in the credentials that come with them.
They print the same, and the secrets themselves do not even show in the log.
-/
namespace Whois

theorem Origin.keep_eq_ite (origin : Origin) (credentials : Option Credentials) :
    origin.keep credentials = if origin = .authenticated then credentials else none := by
  cases origin <;> rfl

namespace Query

theorem resolved_congr {q q' : Query} (h : q.toRequest = q'.toRequest) :
    q.resolved = q'.resolved := by
  unfold resolved
  rw [h]

theorem warnings_congr {q q' : Query} (h : q.toRequest = q'.toRequest) :
    q.warnings = q'.warnings := by
  rw [q.warnings_eq, q'.warnings_eq, h]

/-- The text of a query alone decides whether it is refused, and what it asks for. Its channel and its
credentials show only in a warning that credentials are dropped. -/
theorem resolution_cases (raw : Text) :
    (∃ e log, ∀ origin credentials, resolution raw origin credentials = (.error e, log)) ∨
      ∃ (r : Request) (before after : LogRecord), ∀ origin credentials,
        resolution raw origin credentials =
          (.ok ⟨r, origin, origin.keep credentials⟩,
            before :: (dropped origin credentials ++ [after])) := by
  cases hread : Options.read raw with
  | error fault => exact .inl ⟨_, _, fun _ _ => resolution_of_fault hread⟩
  | ok o =>
    have hresolution := resolution_of_read hread
    cases herrors : Request.errors ⟨Text.trim raw, o⟩ with
    | cons first others =>
      rw [herrors] at hresolution
      exact .inl ⟨_, _, hresolution⟩
    | nil =>
      rw [herrors] at hresolution
      let r : Request := ⟨Text.trim raw, o⟩
      refine .inr ⟨r, o.parsed, resolved (build r .direct), fun origin credentials => ?_⟩
      have hresolved : resolved ⟨r, origin, origin.keep credentials⟩ = resolved (build r .direct) :=
        resolved_congr rfl
      rw [hresolution, ← hresolved]

theorem describe_congr {q q' : Query} (h : q.toRequest = q'.toRequest) :
    q.describe = q'.describe := by
  unfold describe operationName
  rw [warnings_congr h, h]

end Query

namespace Configuration

theorem isSome_credentials (c : Configuration) :
    c.credentials.isSome = (c.ssoToken.isSome || decide (0 < c.passwords.length)) := by
  unfold credentials
  cases c.ssoToken <;> cases c.passwords <;> rfl

/-- Of the secrets a configuration shows whether there is a token, and how many passwords. -/
structure AgreeInShape (c c' : Configuration) : Prop where
  origin : c.origin = c'.origin
  token : c.ssoToken.isSome = c'.ssoToken.isSome
  passwords : c.passwords.length = c'.passwords.length

variable {c c' : Configuration}

theorem AgreeInShape.isSome_credentials (h : AgreeInShape c c') :
    c.credentials.isSome = c'.credentials.isSome := by
  rw [Configuration.isSome_credentials, Configuration.isSome_credentials, h.token, h.passwords]

theorem AgreeInShape.summary (h : AgreeInShape c c') (hobjects : c.objects = c'.objects) :
    c.summary = c'.summary := by
  unfold Configuration.summary
  rw [h.origin, h.token, h.passwords, hobjects]

end Configuration

namespace CommandLine

variable {origin origin' : Origin} {credentials credentials' : Option Credentials}

theorem answer_congr (index : Index Listing) {q q' : Query} (h : q.toRequest = q'.toRequest) :
    answer index q = answer index q' := by
  unfold answer find?
  rw [Query.warnings_congr h, h]

theorem resolveOne_fst (raw : Text) :
    (resolveOne origin credentials raw).1 = (resolveOne origin' credentials' raw).1 := by
  unfold resolveOne
  rcases Query.resolution_cases raw with ⟨e, log, h⟩ | ⟨r, before, after, h⟩
  · rw [h, h]
  · rw [h, h]
    exact congrArg (· ++ _) (Query.describe_congr rfl)

theorem lookup_fst (index : Index Listing) (raw : Text) :
    (lookup origin credentials index raw).1 = (lookup origin' credentials' index raw).1 := by
  unfold lookup
  rcases Query.resolution_cases raw with ⟨e, log, h⟩ | ⟨r, before, after, h⟩
  · rw [h, h]
  · rw [h, h]
    exact answer_congr index rfl

section Log
variable (h : credentials.isSome = credentials'.isSome)
include h

/-- What is logged of a query shows whether there were credentials, and not what they are. -/
theorem resolution_snd (raw : Text) : (Query.resolution raw origin credentials).2 =
    (Query.resolution raw origin credentials').2 := by
  rcases Query.resolution_cases raw with ⟨e, log, hraw⟩ | ⟨r, before, after, hraw⟩
  · rw [hraw, hraw]
  · rw [hraw, hraw]
    unfold Query.dropped
    rw [h]

theorem resolveOne_snd (raw : Text) :
    (resolveOne origin credentials raw).2 = (resolveOne origin credentials' raw).2 :=
  resolution_snd h raw

theorem lookup_snd (index : Index Listing) (raw : Text) :
    (lookup origin credentials index raw).2 = (lookup origin credentials' index raw).2 :=
  resolution_snd h raw

end Log

theorem resolveAll_fst (queries : List Text) :
    (resolveAll origin credentials queries).1 = (resolveAll origin' credentials' queries).1 := by
  induction queries with
  | nil => rfl
  | cons raw queries ih =>
    unfold resolveAll at ih ⊢
    simp only [List.map_cons, List.flatMap_cons] at ih ⊢
    rw [ih, resolveOne_fst raw]

theorem resolveAll_snd (h : credentials.isSome = credentials'.isSome) (queries : List Text) :
    (resolveAll origin credentials queries).2 = (resolveAll origin credentials' queries).2 := by
  induction queries with
  | nil => rfl
  | cons raw queries ih =>
    unfold resolveAll at ih ⊢
    simp only [List.map_cons, List.flatMap_cons] at ih ⊢
    rw [ih, resolveOne_snd h raw]

section Runs
variable {config config' : Configuration} (hobjects : config.objects = config'.objects)
include hobjects

theorem execute_fst (command : Command) (o o' : Option Origin) (input : Text) :
    (execute command config o input).1 = (execute command config' o' input).1 := by
  unfold execute
  match command with
  | .resolve [] => exact resolveAll_fst _
  | .resolve (_ :: _) => exact resolveAll_fst _
  | .lookup raw =>
    dsimp only
    rw [hobjects]
    exact lookup_fst _ raw

theorem execute_snd (hshape : Configuration.AgreeInShape config config') (command : Command)
    (o : Option Origin) (input : Text) :
    (execute command config o input).2 = (execute command config' o input).2 := by
  have hcredentials := hshape.isSome_credentials
  unfold execute
  rw [hshape.origin]
  match command with
  | .resolve [] =>
    dsimp only
    rw [resolveAll_snd hcredentials]
  | .resolve (_ :: _) => exact resolveAll_snd hcredentials _
  | .lookup raw =>
    dsimp only
    rw [hobjects, lookup_snd hcredentials]

end Runs

theorem loadConfig_snd {i i' : Invocation} {file file' : Except ConfigFault Fields}
    {config config' : Configuration} (h : (loadConfig i file).1 = .ok config)
    (h' : (loadConfig i' file').1 = .ok config') (hpath : i.config = i'.config)
    (hshape : Configuration.AgreeInShape config config')
    (hobjects : config.objects = config'.objects) :
    (loadConfig i file).2 = (loadConfig i' file').2 := by
  unfold loadConfig at h h' ⊢
  rw [← hpath] at h' ⊢
  cases hconfig : i.config with
  | none => rfl
  | some path =>
    rw [hconfig] at h h'
    dsimp only at h h' ⊢
    cases hfile : file.bind Configuration.read with
    | error fault =>
      rw [hfile] at h
      cases h
    | ok loaded =>
      cases hfile' : file'.bind Configuration.read with
      | error fault =>
        rw [hfile'] at h'
        cases h'
      | ok loaded' =>
        rw [hfile] at h
        rw [hfile'] at h'
        cases h
        cases h'
        dsimp only
        rw [hshape.summary hobjects]

/-- The channel and the credentials of a query have no part in whether it is refused, in its errors
or warnings, or in what it asks for. So runs under configurations with the same objects print the
same and end alike, and if the channels and the number of secrets are the same too, so are the log
records of all levels, whatever the secrets are. -/
theorem run_independent {i i' : Invocation} {file file' : Except ConfigFault Fields}
    {config config' : Configuration} (hload : (loadConfig i file).1 = .ok config)
    (hload' : (loadConfig i' file').1 = .ok config') (hobjects : config.objects = config'.objects)
    (hcommand : i.command = i'.command) :
    (∀ (raw : Text) (origin origin' : Origin) (credentials credentials' : Option Credentials),
      (∃ e, Query.resolve raw origin credentials = .error e ∧
        Query.resolve raw origin' credentials' = .error e) ∨
      ∃ q q', Query.resolve raw origin credentials = .ok q ∧
        Query.resolve raw origin' credentials' = .ok q' ∧ q.toRequest = q'.toRequest ∧
        q.warnings = q'.warnings ∧ q.origin = origin ∧ q'.origin = origin' ∧
        q.credentials = (if origin = .authenticated then credentials else none) ∧
        q'.credentials = if origin' = .authenticated then credentials' else none) ∧
    ∀ input : Text,
      (run i file input).output = (run i' file' input).output ∧
      (run i file input).status = (run i' file' input).status ∧
      (Configuration.AgreeInShape config config' → i.origin = i'.origin → i.config = i'.config →
        (run i file input).log = (run i' file' input).log) := by
  constructor
  · intro raw origin origin' credentials credentials'
    unfold Query.resolve
    rcases Query.resolution_cases raw with ⟨e, log, h⟩ | ⟨r, before, after, h⟩
    · rw [h, h]
      exact .inl ⟨e, rfl, rfl⟩
    · rw [h, h]
      exact .inr ⟨_, _, rfl, rfl, rfl, Query.warnings_congr rfl, rfl, rfl, origin.keep_eq_ite _,
        origin'.keep_eq_ite _⟩
  · intro input
    rw [run_of_loadConfig hload, run_of_loadConfig hload', hcommand]
    refine ⟨execute_fst hobjects _ _ _ _, rfl, ?_⟩
    intro hshape horigin hpath
    rw [loadConfig_snd hload hload' hpath hshape hobjects, horigin,
      execute_snd hobjects hshape]

/-- Two runs whose configurations hold other secrets. Of their queries one is refused, and the other
one loses its credentials. -/
theorem run_independent_otherSecrets :
    let i : Invocation := ⟨.resolve ["-d AS1", "AS1"], some "whois.toml", none⟩
    let fields : Fields := [("sso_token", .text "one"), ("passwords", .list [.text "two"])]
    let fields' : Fields := [("passwords", .list [.text "three"]), ("sso_token", .text "four")]
    ((loadConfig i (.ok fields)).1 = .ok ⟨.direct, some "one", ["two"], []⟩ ∧
      (loadConfig i (.ok fields')).1 = .ok ⟨.direct, some "four", ["three"], []⟩) ∧
    (run i (.ok fields) []).output = (run i (.ok fields') []).output ∧
    (run i (.ok fields) []).log = (run i (.ok fields') []).log := by
  intro i fields fields'
  have hload : (loadConfig i (.ok fields)).1 = .ok ⟨.direct, some "one", ["two"], []⟩ := rfl
  have hload' : (loadConfig i (.ok fields')).1 = .ok ⟨.direct, some "four", ["three"], []⟩ := rfl
  obtain ⟨houtput, _, hlog⟩ := (run_independent hload hload' rfl rfl).2 []
  exact ⟨⟨hload, hload'⟩, houtput, hlog ⟨rfl, rfl, rfl⟩ rfl rfl⟩

end CommandLine

end Whois

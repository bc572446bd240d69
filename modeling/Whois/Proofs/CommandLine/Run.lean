import Whois.CommandLine.Basic
import Whois.Proofs.Index.Content

/-!
Runs whose configuration loads, and what a lookup in them answers from.
-/
namespace Whois

/-- The insertions that objects lead to. -/
def ConfiguredObject.entries (objects : List ConfiguredObject) : List (ResourceKey × Listing) :=
  (objects.filter (·.fits)).map fun o => (o.key, o.listing)

theorem ConfiguredObject.mem_entries {objects : List ConfiguredObject}
    {e : ResourceKey × Listing} :
    e ∈ entries objects ↔ ∃ o ∈ objects, o.fits = true ∧ (o.key, o.listing) = e := by
  unfold entries
  simp only [List.mem_map, List.mem_filter, and_assoc]

namespace Catalogue

theorem index_add (c : Catalogue) (o : ConfiguredObject) :
    (c.add o).index = if o.fits then c.index.insert o.key o.listing else c.index := by
  unfold add
  dsimp only
  split <;> rfl

theorem index_foldl_add (objects : List ConfiguredObject) (c : Catalogue) :
    (objects.foldl add c).index =
      (ConfiguredObject.entries objects).foldl (fun i (key, v) => i.insert key v) c.index := by
  induction objects generalizing c with
  | nil => rfl
  | cons o rest ih =>
    rw [List.foldl_cons, ih, index_add]
    unfold ConfiguredObject.entries
    cases hfits : o.fits with
    | true => simp [hfits]
    | false => simp [hfits]

/-- The index holds the objects whose key suits their type. -/
theorem index_ofObjects (objects : List ConfiguredObject) :
    (ofObjects objects).index = Index.ofList (ConfiguredObject.entries objects) :=
  index_foldl_add objects empty

end Catalogue

namespace CommandLine

theorem run_of_loadConfig {i : Invocation} {file : Except ConfigFault Fields}
    {config : Configuration} (h : (loadConfig i file).1 = .ok config) (input : Text) :
    run i file input = ⟨0, (execute i.command config i.origin input).1,
      (loadConfig i file).2 ++ (execute i.command config i.origin input).2⟩ := by
  unfold run
  cases hconfig : loadConfig i file with
  | mk loaded log =>
    rw [hconfig] at h
    cases h
    rfl

theorem loadConfig_of_read {i : Invocation} {path : Text} {fields : Fields}
    {config : Configuration} (hpath : i.config = some path)
    (h : Configuration.read fields = .ok config) : (loadConfig i (.ok fields)).1 = .ok config := by
  unfold loadConfig
  rw [hpath, Except.bind, h]

variable {q : Query} {key : ResourceKey}

theorem execute_lookup_of_resolve {config : Configuration} {raw : Text} {given : Option Origin}
    (h : Query.resolve raw (given.getD config.origin) config.credentials = .ok q)
    (input : Text) :
    (execute (.lookup raw) config given input).1 =
      answer (Catalogue.ofObjects config.objects).index q := by
  exact congrArg (finding _) h

/-- A lookup whose query is resolved succeeds and prints the answer to it. -/
theorem run_lookup_of_resolve {fields : Fields} {config : Configuration} {raw : Text}
    {given : Option Origin} (hconfig : Configuration.read fields = .ok config)
    (hq : Query.resolve raw (given.getD config.origin) config.credentials = .ok q)
    (path input : Text) :
    (run ⟨.lookup raw, some path, given⟩ (.ok fields) input).status = 0 ∧
      (run ⟨.lookup raw, some path, given⟩ (.ok fields) input).output =
        answer (Catalogue.ofObjects config.objects).index q := by
  rw [run_of_loadConfig (loadConfig_of_read rfl hconfig)]
  exact ⟨rfl, execute_lookup_of_resolve hq input⟩

theorem find?_of_resource? (h : q.target.resource? = some key) (index : Index Listing) :
    find? index q = some ((index.lookup key (q.operation?.getD .exactOrOneLess)).filter
      fun l => q.objectTypes.contains l.type) := by
  have hop : q.effectiveOperation? = some (q.operation?.getD .exactOrOneLess) := by
    unfold Request.effectiveOperation?
    rw [h, Option.map_some]
  unfold find?
  rw [h, hop]
  rfl

end CommandLine

end Whois

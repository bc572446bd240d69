import Whois.Proofs.CommandLine.Selection
import Whois.Proofs.Index.Pointwise

/-!
The answers to lookups that look at every block for itself: the configured objects that the query
asks for, the outermost first, or the notice that there are none.
-/
namespace Whois

namespace Query

variable {q : Query} {key : ResourceKey} {op : MatchOperation}

/-- Whether a query for a key and an operation asks for an object. -/
def asksFor (q : Query) (key : ResourceKey) (op : MatchOperation) (o : ConfiguredObject) : Bool :=
  o.fits && q.wants o && Index.selects key op o.key

/-- The objects that a query asks for: outermost block first, in the order of the configuration
within a block, and each once. -/
def answers (q : Query) (key : ResourceKey) (op : MatchOperation)
    (objects : List ConfiguredObject) : List Listing :=
  ((inListingOrder ConfiguredObject.key (objects.filter (q.asksFor key op))).map
    ConfiguredObject.listing).eraseDups

theorem mem_answers {objects : List ConfiguredObject} {l : Listing} :
    l ∈ q.answers key op objects ↔
      ∃ o ∈ objects, q.asksFor key op o = true ∧ o.listing = l := by
  unfold answers
  rw [List.mem_eraseDups, List.mem_map]
  simp only [mem_inListingOrder, List.mem_filter, and_assoc]

theorem answers_eq_nil_iff {objects : List ConfiguredObject} :
    q.answers key op objects = [] ↔ ∀ o ∈ objects, q.asksFor key op o = false := by
  rw [List.eq_nil_iff_forall_not_mem]
  constructor
  · intro h o ho
    rw [Bool.eq_false_iff]
    exact fun hasks => h o.listing (mem_answers.mpr ⟨o, ho, hasks, rfl⟩)
  · intro h l hl
    obtain ⟨o, ho, hasks, _⟩ := mem_answers.mp hl
    rw [h o ho] at hasks
    cases hasks

/-- The insertions that the objects asked for lead to. -/
theorem filter_entries_eq (objects : List ConfiguredObject) :
    ((ConfiguredObject.entries (objects.filter q.wants)).filter fun e =>
      Index.selects key op e.1) =
      (objects.filter (q.asksFor key op)).map fun o => (o.key, o.listing) := by
  unfold ConfiguredObject.entries
  rw [List.filter_map, List.filter_filter, List.filter_filter]
  congr 2
  funext o
  simp [asksFor, Bool.and_comm, Bool.and_left_comm, Bool.and_assoc]

end Query

namespace CommandLine

variable {q : Query} {key : ResourceKey} {op : MatchOperation}

/-- A lookup finds the objects that its query asks for. -/
theorem find?_eq_answers (hkey : q.target.resource? = some key)
    (hop : q.effectiveOperation? = some op) (h : Index.IsPointwise op)
    (objects : List ConfiguredObject) :
    find? (Catalogue.ofObjects objects).index q = some (q.answers key op objects) := by
  have hfound : ((Index.ofList (ConfiguredObject.entries objects)).lookup key op).filter
      (fun l => q.objectTypes.contains l.type) = q.answers key op objects := by
    rw [Index.filter_lookup_of_isPointwise h, ← Query.entries_filter_wants,
      Index.lookup_ofList_of_isPointwise h, Query.filter_entries_eq, ← map_inListingOrder,
      List.map_map]
    rfl
  unfold find?
  rw [hkey, hop, Catalogue.index_ofObjects]
  exact congrArg some hfound

/-- The notice that there is nothing to print. -/
def noEntries : Text := "%ERROR:101: no entries found\n"

/-- No object is printed as a notice. -/
theorem flatMap_line_ne {found : List Listing} (h : found ≠ []) :
    found.flatMap Listing.line ≠ noEntries := by
  obtain ⟨first, rest, rfl⟩ := List.exists_cons_of_ne_nil h
  have hname : ∃ c name, first.type.name = c :: name ∧ c ≠ '%' := by
    cases first.type <;> exact ⟨_, _, rfl, by decide⟩
  obtain ⟨c, name, hname, hc⟩ := hname
  unfold List.flatMap Listing.line
  rw [List.map_cons, hname]
  intro heq
  exact hc (List.cons.inj heq).1

theorem answer_eq {index : Index Listing} {found : List Listing}
    (h : find? index q = some found) :
    answer index q = q.warnings.flatMap Query.warningBefore ++
      (if found = [] then noEntries else found.flatMap Listing.line) := by
  unfold answer
  rw [h]
  cases found with
  | nil => rfl
  | cons first rest => rfl

/-- A lookup of a key with an operation that looks at every block for itself prints the warnings of
the query, and after them exactly the objects that it asks for, in listing order and each once. If
there are none it prints a notice. -/
theorem run_lookup_answers {i : Invocation} {file : Except ConfigFault Fields}
    {config : Configuration} {raw : Text} (hcommand : i.command = .lookup raw)
    (hconfig : (loadConfig i file).1 = .ok config)
    (hq : Query.resolve raw (i.origin.getD config.origin) config.credentials = .ok q)
    (hkey : q.target.resource? = some key) (hop : q.effectiveOperation? = some op)
    (h : Index.IsPointwise op) (input : Text) :
    (run i file input).status = 0 ∧
    (run i file input).output = q.warnings.flatMap Query.warningBefore ++
      (if q.answers key op config.objects = [] then noEntries
        else (q.answers key op config.objects).flatMap Listing.line) ∧
    (q.answers key op config.objects).Nodup ∧
    (∀ l, l ∈ q.answers key op config.objects ↔ ∃ o ∈ config.objects, o.fits = true ∧
      q.wants o = true ∧ Index.selects key op o.key = true ∧ o.listing = l) ∧
    ((run i file input).output =
        q.warnings.flatMap Query.warningBefore ++ noEntries ↔
      ¬ ∃ o ∈ config.objects, o.fits = true ∧ q.wants o = true ∧
        Index.selects key op o.key = true) := by
  have houtput : (run i file input).output = q.warnings.flatMap Query.warningBefore ++
      (if q.answers key op config.objects = [] then noEntries
        else (q.answers key op config.objects).flatMap Listing.line) := by
    rw [run_of_loadConfig hconfig, hcommand]
    exact (execute_lookup_of_resolve hq input).trans (answer_eq (find?_eq_answers hkey hop h _))
  have hasks : ∀ o, q.asksFor key op o = true ↔
      o.fits = true ∧ q.wants o = true ∧ Index.selects key op o.key = true := by
    intro o
    simp [Query.asksFor, and_assoc]
  refine ⟨by rw [run_of_loadConfig hconfig], houtput, nodup_eraseDups _, ?_, ?_⟩
  · intro l
    simp only [Query.mem_answers, hasks, and_assoc]
  · rw [houtput, List.append_cancel_left_eq]
    simp only [← hasks, not_exists, not_and, Bool.not_eq_true]
    rw [← Query.answers_eq_nil_iff]
    constructor
    · intro heq
      by_contra hne
      rw [if_neg hne] at heq
      exact flatMap_line_ne hne heq
    · exact fun hnil => if_pos hnil

/-- A route, configured before the network that it is a part of. -/
def routeFirst : Fields :=
  [("objects", .list
    [.list [.text "route", .text "10.0.0.0/16", .text "ROUTE"],
      .list [.text "inetnum", .text "10.0.0.0/8", .text "NET"]])]

/-- The network is printed first. -/
theorem run_lookup_answers_allLess :
    ∃ (config : Configuration) (q : Query) (key : ResourceKey),
      Configuration.read routeFirst = .ok config ∧
      Query.resolve "-L 10.0.0.0/24" config.origin config.credentials = .ok q ∧
      q.target.resource? = some key ∧ q.effectiveOperation? = some .allLess ∧
      (run ⟨.lookup "-L 10.0.0.0/24", some [], none⟩ (.ok routeFirst) []).output =
        "inetnum: NET\nroute: ROUTE\n" ∧
      (q.answers key .allLess config.objects).flatMap Listing.line =
        "inetnum: NET\nroute: ROUTE\n" := by
  obtain ⟨config, q, key, hconfig, hq, hkey, hop, hwarnings, hrun⟩ :
      ∃ (config : Configuration) (q : Query) (key : ResourceKey),
        Configuration.read routeFirst = .ok config ∧
        Query.resolve "-L 10.0.0.0/24" config.origin config.credentials = .ok q ∧
        q.target.resource? = some key ∧ q.effectiveOperation? = some .allLess ∧
        q.warnings = [] ∧
        (run ⟨.lookup "-L 10.0.0.0/24", some [], none⟩ (.ok routeFirst) []).output =
          "inetnum: NET\nroute: ROUTE\n" := by
    refine ⟨_, _, _, rfl, rfl, rfl, ?_⟩
    decide +kernel
  have hpointwise : Index.IsPointwise .allLess := .inr (.inl rfl)
  obtain ⟨_, houtput, _⟩ :=
    run_lookup_answers (i := ⟨.lookup "-L 10.0.0.0/24", some [], none⟩) rfl
      (loadConfig_of_read rfl hconfig) hq hkey hop hpointwise []
  refine ⟨config, q, key, hconfig, hq, hkey, hop, hrun, ?_⟩
  by_cases hnil : q.answers key .allLess config.objects = []
  · rw [if_pos hnil, hwarnings, hrun] at houtput
    exact absurd houtput (by decide)
  · rw [if_neg hnil, hwarnings, hrun] at houtput
    exact houtput.symm

end CommandLine

end Whois

import Whois.Proofs.CommandLine.Run
import Whois.Proofs.Index.Restriction

/-!
The objects that a lookup prints. Their types are selected after the walk, so the walk itself also
meets the objects that nobody asked for.
-/
namespace Whois

namespace Query

/-- Whether objects of the type of an object are searched. -/
def wants (q : Query) (o : ConfiguredObject) : Bool := q.objectTypes.contains o.type

/-- Only the objects of wanted types are indexed if no others are configured. -/
theorem entries_filter_wants (q : Query) (objects : List ConfiguredObject) :
    ConfiguredObject.entries (objects.filter q.wants) =
      Index.restrict (ConfiguredObject.entries objects)
        fun l => q.objectTypes.contains l.type := by
  unfold ConfiguredObject.entries Index.restrict
  rw [List.filter_map, List.filter_comm]
  rfl

end Query

namespace CommandLine

variable {q : Query} {key : ResourceKey}

/-- A lookup prints what the walk finds among all objects, if it is of a wanted type. Every object
printed is found among the objects of wanted types alone. All that is found there is printed if the
walk looks at every block for itself, or if every block it reaches has an object of a wanted type;
a walk to the nearest block prints all of it or nothing. -/
theorem run_lookup_selects {fields : Fields} {config : Configuration} {raw : Text} (path : Text)
    (given : Option Origin) (input : Text) (hconfig : Configuration.read fields = .ok config)
    (hq : Query.resolve raw (given.getD config.origin) config.credentials = .ok q)
    (hkey : q.target.resource? = some key) :
    ∃ printed found : List Listing,
      (run ⟨.lookup raw, some path, given⟩ (.ok fields) input).output =
        answer (Catalogue.ofObjects config.objects).index q ∧
      find? (Catalogue.ofObjects config.objects).index q = some printed ∧
      (Catalogue.ofObjects (config.objects.filter q.wants)).index.lookup key
        (q.operation?.getD .exactOrOneLess) = found ∧
      (∀ l ∈ printed, l ∈ found) ∧
      (Index.IsPointwise (q.operation?.getD .exactOrOneLess) → printed = found) ∧
      (Index.IsNearest (q.operation?.getD .exactOrOneLess) → printed = [] ∨ printed = found) ∧
      ((∀ b ∈ Index.reach (Catalogue.ofObjects config.objects).index.keys key
          (q.operation?.getD .exactOrOneLess),
        ∃ w ∈ config.objects, w.fits = true ∧ w.key = b ∧ q.wants w = true) →
          printed = found) := by
  have hindex := Catalogue.index_ofObjects config.objects
  have hwanted := Catalogue.index_ofObjects (config.objects.filter q.wants)
  rw [Query.entries_filter_wants] at hwanted
  refine ⟨_, _, (run_lookup_of_resolve hconfig hq path input).2,
    find?_of_resource? hkey _, rfl, ?_⟩
  rw [hindex, hwanted]
  refine ⟨fun l => Index.mem_lookup_restrict, Index.filter_lookup_of_isPointwise,
    Index.filter_lookup_of_isNearest, ?_⟩
  intro hall
  apply Index.filter_lookup_of_forall_hasWanted
  intro b hb
  obtain ⟨w, hw, hwfits, hwkey, hwants⟩ := hall b hb
  rw [Index.hasWanted_iff]
  exact ⟨(w.key, w.listing), ConfiguredObject.mem_entries.mpr ⟨w, hw, hwfits, rfl⟩, hwkey, hwants⟩

/-- A network, and a route for a part of it. -/
def routedNetwork : Fields :=
  [("objects", .list
    [.list [.text "inetnum", .text "10.0.0.0/8", .text "NET"],
      .list [.text "route", .text "10.0.0.0/16", .text "ROUTE"]])]

/-- All levels up, the route does not come in the way of the network. -/
theorem run_lookup_selects_allLess :
    ∃ (config : Configuration) (q : Query) (key : ResourceKey),
      Configuration.read routedNetwork = .ok config ∧
      Query.resolve "-L -T inetnum 10.0.0.0/24" config.origin config.credentials = .ok q ∧
      q.target.resource? = some key ∧
      find? (Catalogue.ofObjects config.objects).index q =
        some ((Catalogue.ofObjects (config.objects.filter q.wants)).index.lookup key .allLess) ∧
      (run ⟨.lookup "-L -T inetnum 10.0.0.0/24", some [], none⟩ (.ok routedNetwork) []).output =
        answer (Catalogue.ofObjects config.objects).index q := by
  obtain ⟨config, q, key, hconfig, hq, hkey, hop⟩ :
      ∃ (config : Configuration) (q : Query) (key : ResourceKey),
        Configuration.read routedNetwork = .ok config ∧
        Query.resolve "-L -T inetnum 10.0.0.0/24" config.origin config.credentials = .ok q ∧
        q.target.resource? = some key ∧ q.operation?.getD .exactOrOneLess = .allLess := by
    refine ⟨_, _, _, rfl, rfl, rfl, ?_⟩
    decide +kernel
  obtain ⟨printed, found, houtput, hfind, hfound, _, hsame, _⟩ :=
    run_lookup_selects [] none [] hconfig hq hkey
  rw [hop] at hfound hsame
  refine ⟨config, q, key, hconfig, hq, hkey, ?_, houtput⟩
  rw [hfind, hfound, hsame (.inr (.inl rfl))]

/-- The walk stops at the route, and so the network around it is not found. -/
theorem run_lookup_hides_wanted :
    ∃ (config : Configuration) (q : Query) (key : ResourceKey),
      Configuration.read routedNetwork = .ok config ∧
      Query.resolve "-l -T inetnum 10.0.0.0/24" config.origin config.credentials = .ok q ∧
      q.target.resource? = some key ∧
      (run ⟨.lookup "-l -T inetnum 10.0.0.0/24", some [], none⟩ (.ok routedNetwork) []).output =
        "%ERROR:101: no entries found\n" ∧
      find? (Catalogue.ofObjects config.objects).index q = some [] ∧
      (Catalogue.ofObjects (config.objects.filter q.wants)).index.lookup key
        (q.operation?.getD .exactOrOneLess) = [⟨.inetnum, "NET"⟩] := by
  refine ⟨_, _, _, rfl, rfl, rfl, ?_⟩
  decide +kernel

end CommandLine

end Whois

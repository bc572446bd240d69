import Mathlib.Data.List.Count
import Whois.Proofs.CommandLine.Run
import Whois.Proofs.Index.Insertion
import Whois.Proofs.Text.Numeral

/-!
Objects that cannot be indexed. Those whose key does not suit their type are counted, repetitions
are ignored, and the index is as if neither had been configured.
-/
namespace Whois

namespace ConfiguredObject

variable {objects : List ConfiguredObject} {o o' : ConfiguredObject}

/-- The objects whose key suits their type, later repetitions left out. -/
def usable (objects : List ConfiguredObject) : List ConfiguredObject :=
  (objects.filter (·.fits)).eraseDups

theorem mem_usable : o ∈ usable objects ↔ o ∈ objects ∧ o.fits = true := by
  unfold usable
  rw [List.mem_eraseDups, List.mem_filter]

theorem usable_concat (objects : List ConfiguredObject) (o : ConfiguredObject) :
    usable (objects ++ [o]) =
      if o.fits = true ∧ o ∉ objects then usable objects ++ [o] else usable objects := by
  unfold usable
  rw [List.filter_append]
  cases hfits : o.fits with
  | false => simp [hfits]
  | true =>
    rw [List.filter_cons_of_pos hfits, List.filter_nil, Index.eraseDups_concat]
    simp [Layer.added, hfits]

/-- An object is known from what it inserts. -/
theorem eq_of_entry_eq (h : (o.key, o.listing) = (o'.key, o'.listing)) : o = o' := by
  obtain ⟨type, key, name⟩ := o
  obtain ⟨type', key', name'⟩ := o'
  cases h
  rfl

theorem entries_concat (objects : List ConfiguredObject) (o : ConfiguredObject) :
    entries (objects ++ [o]) =
      if o.fits then entries objects ++ [(o.key, o.listing)] else entries objects := by
  unfold entries
  cases hfits : o.fits <;> simp [hfits]

theorem entries_usable (objects : List ConfiguredObject) :
    entries (usable objects) = (usable objects).map fun o => (o.key, o.listing) := by
  unfold entries
  rw [List.filter_eq_self.mpr fun o ho => (mem_usable.mp ho).2]

/-- An object that is not usable inserts nothing, or what is there. -/
theorem ofList_entries_usable (objects : List ConfiguredObject) :
    Index.ofList (entries (usable objects)) = Index.ofList (entries objects) := by
  induction objects using List.reverseRecOn with
  | nil => rfl
  | append_singleton objects o ih =>
    rw [usable_concat, entries_concat]
    cases hfits : o.fits with
    | false =>
      rw [if_neg (by simp), if_neg (by simp)]
      exact ih
    | true =>
      rw [if_pos rfl, Index.ofList_concat]
      by_cases hmem : o ∈ objects
      · rw [if_neg (by simp [hmem]), ih]
        have hentry : (o.key, o.listing) ∈ entries objects := mem_entries.mpr ⟨o, hmem, hfits, rfl⟩
        refine (Index.insert_eq_self (Index.listed_ofList _) ?_).symm
        rwa [Index.valuesAt_ofList, Index.mem_valuesUnder]
      · rw [if_pos ⟨rfl, hmem⟩, entries_concat, if_pos hfits, Index.ofList_concat, ih]

/-- Under each key the usable objects are listed, in order. -/
theorem valuesUnder_entries_usable (objects : List ConfiguredObject) (key : ResourceKey) :
    Index.valuesUnder (entries (usable objects)) key =
      ((usable objects).filter (·.key = key)).map (·.listing) := by
  have hnodup : (((usable objects).filter (·.key = key)).map (·.listing)).Nodup := by
    refine List.Nodup.map_on ?_ ((nodup_eraseDups _).filter _)
    intro o ho o' ho' hlisting
    have hkey : o.key = key := of_decide_eq_true (List.mem_filter.mp ho).2
    have hkey' : o'.key = key := of_decide_eq_true (List.mem_filter.mp ho').2
    exact eq_of_entry_eq (by rw [hkey, hkey', hlisting])
  unfold Index.valuesUnder
  rw [entries_usable, List.filter_map, List.map_map, ← eraseDups_of_nodup hnodup]
  rfl

end ConfiguredObject

namespace Catalogue

open ConfiguredObject

variable {c : Catalogue} {objects : List ConfiguredObject}

/-- The record of a number of objects that were left out. -/
def leftOut (n : Nat) : LogRecord :=
  ⟨.warn, Text.decimal n ++ " object(s) could not be indexed."⟩

theorem leftOut_injective : Function.Injective leftOut := by
  intro n n' h
  unfold leftOut at h
  rw [LogRecord.mk.injEq, List.append_left_inj] at h
  have hread := congrArg Text.natural? h.2
  rw [Text.natural?_decimal, Text.natural?_decimal] at hread
  exact Option.some.inj hread

/-- A number does not start like any other warning. -/
theorem leftOut_ne_ignoring (n : Nat) (rest : Text) :
    leftOut n ≠ ⟨.warn, "Ignoring" ++ rest⟩ := by
  intro h
  unfold leftOut at h
  obtain ⟨d, digits, hdigits⟩ := List.exists_cons_of_ne_nil (Text.decimal_ne_nil n)
  have hd : d.isDigit = true := Text.isDigit_of_mem_decimal (hdigits ▸ List.mem_cons_self)
  rw [hdigits, LogRecord.mk.injEq] at h
  have hhead : d = 'I' := (List.cons.inj h.2).1
  rw [hhead] at hd
  cases hd

theorem leftOut_not_mem_add (n : Nat) (o : ConfiguredObject) (h : leftOut n ∉ c.log) :
    leftOut n ∉ (c.add o).log := by
  unfold add
  dsimp only
  split
  next =>
    rw [List.mem_append, List.mem_cons]
    rintro (hlog | hplaced | hrepeated)
    · exact h hlog
    · cases (LogRecord.mk.inj hplaced).1
    · split at hrepeated
      · exact leftOut_ne_ignoring n _ (List.mem_singleton.mp hrepeated)
      · cases hrepeated
  next =>
    rw [List.mem_append, List.mem_singleton]
    rintro (hlog | hmisfit)
    · exact h hlog
    · cases (LogRecord.mk.inj hmisfit).1

theorem leftOut_not_mem_foldl_add (n : Nat) (objects : List ConfiguredObject)
    (h : leftOut n ∉ c.log) : leftOut n ∉ (objects.foldl add c).log := by
  induction objects generalizing c with
  | nil => exact h
  | cons o rest ih => exact ih (leftOut_not_mem_add n o h)

theorem misfits_add (c : Catalogue) (o : ConfiguredObject) :
    (c.add o).misfits = c.misfits + if o.fits then 0 else 1 := by
  unfold add
  dsimp only
  split <;> rfl

theorem misfits_foldl_add (c : Catalogue) (objects : List ConfiguredObject) :
    (objects.foldl add c).misfits = c.misfits + objects.countP fun o => !o.fits := by
  induction objects generalizing c with
  | nil => rfl
  | cons o rest ih =>
    rw [List.foldl_cons, ih, misfits_add, List.countP_cons]
    cases o.fits with
    | true => rfl
    | false =>
      simp only [Bool.false_eq_true, if_false, Bool.not_false, if_true]
      omega

/-- The number of objects left out is reported once, and nothing is reported if there are none. -/
theorem count_leftOut (objects : List ConfiguredObject) (n : Nat) :
    (ofObjects objects).log.count (leftOut n) =
      if 0 < n ∧ n = objects.countP (fun o => !o.fits) then 1 else 0 := by
  have hmisfits : (objects.foldl add empty).misfits = objects.countP fun o => !o.fits :=
    (misfits_foldl_add empty objects).trans (Nat.zero_add _)
  have hearlier : (objects.foldl add empty).log.count (leftOut n) = 0 :=
    List.count_eq_zero.mpr (leftOut_not_mem_foldl_add n objects List.not_mem_nil)
  have hclosing : ∀ c : Catalogue, c.closing = if c.misfits = 0 then [] else [leftOut c.misfits] :=
    fun _ => rfl
  unfold ofObjects
  dsimp only
  rw [List.count_append, hearlier, Nat.zero_add, hclosing, hmisfits]
  split
  next hzero =>
    rw [if_neg (by omega)]
    rfl
  next hpos =>
    rw [List.count_singleton]
    simp only [beq_iff_eq, leftOut_injective.eq_iff]
    split <;> split <;> omega

theorem index_usable (objects : List ConfiguredObject) :
    (ofObjects objects).index = (ofObjects (usable objects)).index := by
  rw [index_ofObjects, index_ofObjects, ofList_entries_usable]

/-- Objects whose key does not suit their type and repetitions leave no trace in the index, so lookups
print the same without them. The number of the former is reported. All other objects are in the
index, each under its own key, and nothing else is. -/
theorem ofObjects_usable (objects : List ConfiguredObject) :
    (ofObjects objects).index = (ofObjects (usable objects)).index ∧
    (∀ (config : Configuration) (raw input : Text) (given : Option Origin),
      (CommandLine.execute (.lookup raw) { config with objects } given input).1 =
        (CommandLine.execute (.lookup raw) { config with objects := usable objects } given
          input).1) ∧
    (∀ n, (ofObjects objects).log.count (leftOut n) =
      if 0 < n ∧ n = objects.countP (fun o => !o.fits) then 1 else 0) ∧
    (∀ key, (ofObjects objects).index.valuesAt key =
      ((usable objects).filter (·.key = key)).map (·.listing)) ∧
    ∀ key, key ∈ (ofObjects objects).index.keys ↔ ∃ o ∈ usable objects, o.key = key := by
  have hindex := index_usable objects
  refine ⟨hindex, ?_, count_leftOut objects, ?_, ?_⟩
  · intro config raw input given
    unfold CommandLine.execute
    dsimp only
    rw [hindex]
    rfl
  · intro key
    rw [index_ofObjects, ← ofList_entries_usable, Index.valuesAt_ofList, valuesUnder_entries_usable]
  · intro key
    rw [index_ofObjects, ← ofList_entries_usable, Index.mem_keys_ofList, entries_usable]
    simp only [List.mem_map, exists_exists_and_eq_and]

end Catalogue

end Whois

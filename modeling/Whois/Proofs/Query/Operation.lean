import Mathlib.Data.List.Nodup
import Whois.Query.Checks

/-!
The flags that select how the hierarchy of blocks is walked, and the key that the walk starts from.
-/
namespace Whois

theorem MatchOperation.flag?_injective {op op' : MatchOperation} {f : Flag}
    (h : op.flag? = some f) (h' : op'.flag? = some f) : op = op' := by
  cases op <;> cases h <;> cases op' <;> first | rfl | cases h'

theorem MatchOperation.exists_flag? {op : MatchOperation} (h : op ∈ explicit) :
    ∃ f, op.flag? = some f := by
  cases op with
  | exactOrOneLess => simp [explicit] at h
  | exact => exact ⟨_, rfl⟩
  | oneLess => exact ⟨_, rfl⟩
  | allLess => exact ⟨_, rfl⟩
  | oneMore => exact ⟨_, rfl⟩
  | allMore => exact ⟨_, rfl⟩

namespace Target

variable {t : Target}

theorem ipBlock?_or_reverseBlock?_eq_none (key : SearchKey) :
    key.ipBlock? = none ∨ key.reverseBlock? = none := by
  unfold SearchKey.ipBlock? SearchKey.reverseBlock?
  cases key.form <;> simp

theorem reverseBlock?_of_bothDirections (h : t.bothDirections = true) :
    t.reverseBlock? = t.ipBlock? := by
  unfold reverseBlock? ipBlock?
  rw [h, if_pos rfl, if_pos rfl]
  rcases ipBlock?_or_reverseBlock?_eq_none t.key with hkey | hkey
  · rw [hkey, Option.or_none, Option.none_or]
  · rw [hkey, Option.or_none, Option.none_or]

theorem ipBlock?_eq_none_iff (h : t.bothDirections = true) :
    t.ipBlock? = none ↔ t.key.ipBlock? = none ∧ t.key.reverseBlock? = none := by
  unfold ipBlock?
  rw [h, if_pos rfl]
  exact Option.or_eq_none_iff

end Target

namespace Request

variable {r : Request} {op : MatchOperation} {f : Flag}

def operationChoices : List Flag := [.exact, .oneLess, .allLess, .oneMore, .allMore]

theorem exists_operation_of_mem (h : f ∈ operationChoices) :
    ∃ op : MatchOperation, op.flag? = some f := by
  simp only [operationChoices, List.mem_cons, List.not_mem_nil, or_false] at h
  rcases h with rfl | rfl | rfl | rfl | rfl
  · exact ⟨.exact, rfl⟩
  · exact ⟨.oneLess, rfl⟩
  · exact ⟨.allLess, rfl⟩
  · exact ⟨.oneMore, rfl⟩
  · exact ⟨.allMore, rfl⟩

theorem mem_operationFlags : f ∈ r.operationFlags ↔ f ∈ operationChoices ∧ r.has f = true :=
  List.mem_filter

theorem nodup_operationFlags : r.operationFlags.Nodup := by
  have hchoices : operationChoices.Nodup := by decide
  exact hchoices.filter _

/-- The operations selected are those of the flags given. -/
theorem operationFlags_eq : r.operationFlags =
    (MatchOperation.explicit.filter fun op => op.flag?.any r.has).filterMap
      MatchOperation.flag? := by
  unfold operationFlags
  rw [List.filter_filterMap, List.filterMap_filter]
  apply List.filterMap_congr
  intro op _
  cases op.flag? with
  | none => simp
  | some f => cases hf : r.has f <;> simp [hf]

theorem operation?_eq_some_iff :
    r.operation? = some op ↔ ∃ f, op.flag? = some f ∧ r.operationFlags = [f] := by
  have hflag : ∀ op ∈ MatchOperation.explicit.filter fun op => op.flag?.any r.has,
      ∃ f, op.flag? = some f :=
    fun op hop => MatchOperation.exists_flag? (List.mem_filter.mp hop).1
  rw [operationFlags_eq]
  unfold operation?
  generalize MatchOperation.explicit.filter (fun op => op.flag?.any r.has) = ops at hflag ⊢
  match ops, hflag with
  | [], _ => simp
  | [op'], hflag =>
    obtain ⟨f', hf'⟩ := hflag op' (by simp)
    constructor
    · rintro ⟨⟩
      exact ⟨f', hf', by simp [hf']⟩
    · rintro ⟨f, hf, heq⟩
      have hff : f' = f := by simpa [hf'] using heq
      rw [MatchOperation.flag?_injective hf (hff ▸ hf')]
  | op₁ :: op₂ :: ops, hflag =>
    obtain ⟨f₁, h₁⟩ := hflag op₁ (by simp)
    obtain ⟨f₂, h₂⟩ := hflag op₂ (by simp)
    simp [h₁, h₂]

theorem exists_flag_of_operation? (hop : r.operation? = some op) :
    ∃ f ∈ operationChoices, op.flag? = some f ∧
      ∀ f' ∈ operationChoices, r.has f' = true ↔ f' = f := by
  obtain ⟨f, hflag, hflags⟩ := operation?_eq_some_iff.mp hop
  have hmem : f ∈ r.operationFlags := by simp [hflags]
  refine ⟨f, (mem_operationFlags.mp hmem).1, hflag, ?_⟩
  intro f' hf'
  have hiff := mem_operationFlags (r := r) (f := f')
  rw [hflags, List.mem_singleton] at hiff
  exact ⟨fun hhas => hiff.mpr ⟨hf', hhas⟩, fun heq => (hiff.mp heq).2⟩

end Request

end Whois

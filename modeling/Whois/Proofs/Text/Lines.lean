import Whois.Proofs.List
import Whois.Proofs.Text.Numeral

/-!
Texts of several lines. A text is taken apart at every character that may end a line, so that no
reader of it, whatever it takes for the end of a line, sees other lines than these.
-/
namespace Whois.Text

variable {c : Char} {s t sep : Text} {ts : List Text}

/-- The characters that end a line: line feed, vertical tab, form feed, carriage return, next line,
and the separators of lines and paragraphs. -/
def isLineBreak (c : Char) : Bool :=
  let n := c.toNat
  decide (0xA ≤ n ∧ n ≤ 0xD) || n == 0x85 || n == 0x2028 || n == 0x2029

/-- The stretches between the ends of lines of any kind, the empty ones included. -/
def allLines (t : Text) : List Text := splitWhere isLineBreak t

/-- A text that holds no end of a line. -/
def IsLine (t : Text) : Prop := ∀ c ∈ t, isLineBreak c = false

instance (t : Text) : Decidable (IsLine t) :=
  decidable_of_iff (t.all (!isLineBreak ·) = true) (by simp [IsLine])

/-- Whether a text consists of the given lines, with nothing but line feeds between them. -/
structure HasLines (t : Text) (ls : List Text) : Prop where
  allLines_eq : allLines t = ls
  feeds : ∀ c ∈ t, isLineBreak c = true → c = '\n'

theorem isBlank_of_isLineBreak (h : isLineBreak c = true) : isBlank c = true := by
  simp only [isLineBreak, Bool.or_eq_true, decide_eq_true_eq, beq_iff_eq] at h
  simp only [isBlank, Bool.or_eq_true, decide_eq_true_eq, beq_iff_eq]
  omega

theorem isLine_of_not_isBlank (h : ∀ c ∈ t, isBlank c = false) : IsLine t := by
  intro c hc
  rw [Bool.eq_false_iff]
  intro hbreak
  have hblank := h c hc
  rw [isBlank_of_isLineBreak hbreak] at hblank
  cases hblank

/-- To see that a literal is a line, its characters are found by unification, which is much faster
than evaluating it. -/
theorem isLine_literal {cs : List Char} (h : IsLine cs) : IsLine (String.ofList cs) := by
  rwa [String.toList_ofList]

theorem IsLine.append (hs : IsLine s) (ht : IsLine t) : IsLine (s ++ t) :=
  List.forall_mem_append.mpr ⟨hs, ht⟩

/-- Literals around a line. -/
theorem IsLine.enclosed {before after : List Char} (h : IsLine t) (hbefore : IsLine before)
    (hafter : IsLine after) : IsLine (String.ofList before ++ t ++ String.ofList after) :=
  ((isLine_literal hbefore).append h).append (isLine_literal hafter)

theorem isLine_join (hsep : IsLine sep) (hts : ∀ t ∈ ts, IsLine t) : IsLine (join sep ts) := by
  intro c hc
  rcases mem_of_mem_intercalate hc with hc | ⟨t, ht, hct⟩
  · exact hsep c hc
  · exact hts t ht c hct

theorem isLine_decimal (n : Nat) : IsLine (decimal n) := by
  intro c hc
  obtain ⟨hlo, hhi⟩ := toNat_of_isDigit (isDigit_of_mem_decimal hc)
  rw [Bool.eq_false_iff]
  intro hbreak
  simp only [isLineBreak, Bool.or_eq_true, decide_eq_true_eq, beq_iff_eq] at hbreak
  omega

theorem hasLines_join {ls : List Text} (hls : ls ≠ []) (h : ∀ l ∈ ls, IsLine l) :
    HasLines (join "\n" ls) ls := by
  constructor
  case allLines_eq => exact splitWhere_join (by decide) hls h
  case feeds =>
    intro c hc hbreak
    rcases mem_of_mem_intercalate hc with hfeed | ⟨l, hl, hcl⟩
    · exact List.mem_singleton.mp hfeed
    · rw [h l hl c hcl] at hbreak
      cases hbreak

theorem intercalate_groups_ne_nil {groups : List (List Text)} (hgroups : groups ≠ [])
    (h : ∀ g ∈ groups, g ≠ []) : [[]].intercalate groups ≠ ([] : List Text) := by
  obtain ⟨g, rest, rfl⟩ := List.exists_cons_of_ne_nil hgroups
  have hg : g ≠ [] := h g List.mem_cons_self
  by_cases hrest : rest = []
  · rwa [hrest, List.intercalate_singleton]
  · rw [List.intercalate_cons_of_ne_nil hrest]
    simp [hg]

/-- Groups of lines with an empty line between them are lines themselves. -/
theorem join_groups {groups : List (List Text)} (h : ∀ g ∈ groups, g ≠ []) :
    join "\n\n" (groups.map (join "\n")) = join "\n" ([[]].intercalate groups) := by
  induction groups with
  | nil => rfl
  | cons g rest ih =>
    by_cases hrest : rest = []
    · rw [hrest, List.map_singleton, join_singleton, List.intercalate_singleton]
    · have hg : g ≠ [] := h g List.mem_cons_self
      have hbelow : ∀ g' ∈ rest, g' ≠ [] := fun g' hg' => h g' (List.mem_cons_of_mem _ hg')
      have hfirst : join "\n" (g ++ [[]]) = join "\n" g ++ "\n" := by
        rw [join_append hg (by simp), join_singleton, List.append_nil]
      rw [List.map_cons, join_cons (by simp [hrest]), ih hbelow,
        List.intercalate_cons_of_ne_nil hrest,
        join_append (by simp) (intercalate_groups_ne_nil hrest hbelow), hfirst]
      simp only [List.append_assoc]
      rfl

theorem hasLines_join_groups {groups : List (List Text)} (hgroups : groups ≠ [])
    (h : ∀ g ∈ groups, g ≠ [] ∧ ∀ l ∈ g, IsLine l) :
    HasLines (join "\n\n" (groups.map (join "\n"))) ([[]].intercalate groups) := by
  have hne : ∀ g ∈ groups, g ≠ [] := fun g hg => (h g hg).1
  rw [join_groups hne]
  apply hasLines_join (intercalate_groups_ne_nil hgroups hne)
  intro l hl
  rcases mem_of_mem_intercalate hl with hl | ⟨g, hg, hl⟩
  · rw [List.mem_singleton.mp hl]
    exact List.forall_mem_nil _
  · exact (h g hg).2 l hl

end Whois.Text

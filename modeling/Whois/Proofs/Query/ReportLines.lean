import Whois.Proofs.Options.Quoted
import Whois.Proofs.Query.Rejection

/-!
Reports cannot be forged. Whatever the text of a query is, each of its errors and warnings is
reported in three lines that start as they should, and there are no other lines in a report.
-/
namespace Whois

namespace Issue

/-- The texts of a query that the report of an issue quotes. -/
def quoted : Issue → List Text
  | .unusable detail => detail.toList
  | .malformed fault => fault.quoted
  | .unknownInformation value | .invalidProxy value | .unknownObjectType value
  | .unknownAttribute value => [value]
  | .conflictingTags tags => tags
  | _ => []

/-- The lines of a report, the first of them after a mark. -/
def reportLines (mark : Text) (i : Issue) : List Text :=
  [mark ++ Text.decimal i.code ++ ": " ++ i.title, "%", "% " ++ i.detail]

theorem quoted_of_warning {i : Issue} (h : i.isError = false) : i.quoted = [] := by
  cases i with
  | ignoredFlag _ _ => rfl
  | _ => cases h

theorem isLine_title (i : Issue) : Text.IsLine i.title := by
  cases i <;> exact Text.isLine_literal (by decide)

theorem isLine_detail {i : Issue} (h : ∀ t ∈ i.quoted, Text.IsLine t) : Text.IsLine i.detail := by
  have hname : ∀ a ∈ AttributeType.all, Text.IsLine a.name := by decide +kernel
  cases i with
  | unusable detail =>
    cases detail with
    | none => exact Text.isLine_literal (by decide)
    | some detail => exact h detail List.mem_cons_self
  | malformed fault => exact OptionFault.isLine_message h
  | unknownInformation value =>
    exact (Text.isLine_literal (by decide)).append (h value List.mem_cons_self)
  | invalidProxy value => exact (h value List.mem_cons_self).enclosed (by decide) (by decide)
  | duplicateIpFlags => exact Text.isLine_literal (by decide)
  | uselessIpFlag flag => cases flag <;> exact Text.isLine_literal (by decide)
  | illegalRange => exact Text.isLine_literal (by decide)
  | unknownObjectType name => exact (h name List.mem_cons_self).enclosed (by decide) (by decide)
  | unknownAttribute name => exact (h name List.mem_cons_self).enclosed (by decide) (by decide)
  | attributeNotSearchable a => exact (hname a a.mem_all).enclosed (by decide) (by decide)
  | invalidCombination a b =>
    have ha : Text.IsLine ("The flags \"" ++ a.render ++ "\" and \"") :=
      a.isLine_render.enclosed (by decide) (by decide)
    exact (ha.append b.isLine_render).append (Text.isLine_literal (by decide))
  | conflictingTags tags =>
    have htags := Text.isLine_join (Text.isLine_literal (by decide) : Text.IsLine ", ") h
    exact htags.enclosed (by decide) (by decide)
  | noSearchKey => exact Text.isLine_literal (by decide)
  | abuseContactNotApplicable => exact Text.isLine_literal (by decide)
  | invalidVersion fault => cases fault <;> exact Text.isLine_literal (by decide)
  | ignoredFlag ignored because =>
    have hignored : Text.IsLine ("The flag \"" ++ ignored.render ++ "\" is ignored when \"") :=
      ignored.isLine_render.enclosed (by decide) (by decide)
    exact (hignored.append because.isLine_render).append (Text.isLine_literal (by decide))

theorem render_eq (i : Issue) :
    i.render = Text.join "\n" (i.reportLines ("%" ++ i.severity ++ ":")) := by
  unfold render reportLines
  rw [Text.join_cons (by simp), Text.join_cons (by simp), Text.join_singleton]
  simp only [List.append_assoc]
  rfl

theorem render_of_error {i : Issue} (h : i.isError = true) :
    i.render = Text.join "\n" (i.reportLines "%ERROR:") := by
  have hseverity : i.severity = "ERROR".toList := by simp [severity, h]
  rw [render_eq, hseverity]
  rfl

theorem render_of_warning {i : Issue} (h : i.isError = false) :
    i.render = Text.join "\n" (i.reportLines "%WARNING:") := by
  have hseverity : i.severity = "WARNING".toList := by simp [severity, h]
  rw [render_eq, hseverity]
  rfl

theorem isLine_of_mem_reportLines {mark l : Text} {i : Issue} (hmark : Text.IsLine mark)
    (h : ∀ t ∈ i.quoted, Text.IsLine t) (hl : l ∈ i.reportLines mark) : Text.IsLine l := by
  simp only [reportLines, List.mem_cons, List.not_mem_nil, or_false] at hl
  rcases hl with rfl | rfl | rfl
  · have hcode := hmark.append (Text.isLine_decimal i.code)
    have hcolon : Text.IsLine ": " := Text.isLine_literal (by decide)
    exact (hcode.append hcolon).append i.isLine_title
  · exact Text.isLine_literal (by decide)
  · exact (Text.isLine_literal (by decide)).append (isLine_detail h)

theorem hasLines_render_of_warning {i : Issue} (h : i.isError = false) :
    i.render.HasLines (i.reportLines "%WARNING:") := by
  have hquoted : ∀ t ∈ i.quoted, Text.IsLine t := by simp [quoted_of_warning h]
  rw [render_of_warning h]
  exact Text.hasLines_join (List.cons_ne_nil _ _) fun l =>
    isLine_of_mem_reportLines (Text.isLine_literal (by decide)) hquoted

end Issue

/-- The reports of errors that quote single lines stand below each other, with an empty line between
them. -/
theorem Rejection.hasLines_render {e : Rejection} (herror : ∀ i ∈ e.errors, i.isError = true)
    (h : ∀ i ∈ e.errors, ∀ t ∈ i.quoted, Text.IsLine t) :
    e.render.HasLines ([[]].intercalate (e.errors.map (Issue.reportLines "%ERROR:"))) := by
  have hrender : e.errors.map Issue.render =
      (e.errors.map (Issue.reportLines "%ERROR:")).map (Text.join "\n") := by
    rw [List.map_map]
    exact List.map_congr_left fun i hi => Issue.render_of_error (herror i hi)
  unfold Rejection.render
  rw [hrender]
  refine Text.hasLines_join_groups (by simp [errors]) ?_
  intro g hg
  obtain ⟨i, hi, rfl⟩ := List.mem_map.mp hg
  refine ⟨List.cons_ne_nil _ _, fun l => ?_⟩
  exact Issue.isLine_of_mem_reportLines (Text.isLine_literal (by decide)) (h i hi)

section Quoted
variable {raw text : Text} {o : Options} (hread : Options.read raw = .ok o)
include hread

theorem Request.not_isBlank_of_mem_list {f : Flag} {t : Text}
    (ht : t ∈ list ⟨text, o⟩ f) : ∀ c ∈ t, Text.isBlank c = false := by
  obtain ⟨v, hv, hpiece⟩ := mem_list.mp ht
  have hsplit := (List.mem_filter.mp hpiece).1
  exact fun c hc => Options.not_isBlank_of_mem_values hread hv c (Text.mem_of_mem_split hsplit hc)

/-- A fault quotes nothing of a query but values of flags and pieces of them. -/
theorem Fault.not_isBlank_of_quoted {f : Fault} (hf : f.Applies ⟨text, o⟩) {t : Text}
    (ht : t ∈ (f.issue ⟨text, o⟩).quoted) : ∀ c ∈ t, Text.isBlank c = false := by
  have hvalue : ∀ {flag : Flag} {v : Text}, o.value? flag = some v →
      ∀ c ∈ v, Text.isBlank c = false := fun hv =>
    Options.not_isBlank_of_mem_values hread (Options.mem_values_of_value? hv)
  cases f with
  | typeName name =>
    rw [List.mem_singleton.mp ht]
    exact Request.not_isBlank_of_mem_list hread (Request.mem_list.mpr hf.1)
  | attributeName name =>
    rw [List.mem_singleton.mp ht]
    exact Request.not_isBlank_of_mem_list hread (Request.mem_list.mpr hf.1)
  | templateName flag name =>
    rw [List.mem_singleton.mp ht]
    exact hvalue hf.2.1
  | information v =>
    rw [List.mem_singleton.mp ht]
    exact hvalue hf.1
  | proxy v =>
    rw [List.mem_singleton.mp ht]
    exact hvalue hf.1
  | conflictingTags =>
    exact Request.not_isBlank_of_mem_list hread (List.mem_filter.mp ht).1
  | _ => cases ht

end Quoted

namespace Query

variable {raw : Text} {origin : Origin} {credentials : Option Credentials}

/-- Only errors refuse a query, and they quote words of the query or parts of words. -/
theorem resolve_errors_quoted {e : Rejection} (h : resolve raw origin credentials = .error e) :
    ∀ i ∈ e.errors, i.isError = true ∧ ∀ t ∈ i.quoted, ∀ c ∈ t, Text.isBlank c = false := by
  intro i hi
  cases hread : Options.read raw with
  | error fault =>
    rw [resolve_of_fault hread] at h
    cases h
    rw [List.mem_singleton.mp hi]
    exact ⟨rfl, fun t => Options.not_isBlank_of_quoted hread⟩
  | ok o =>
    obtain ⟨faults, hmem, _, _, hissues⟩ := reports_of_read hread
    rw [← (resolve_eq_error_iff hread).mp h] at hi
    unfold Request.errors at hi
    rw [← hissues] at hi
    obtain ⟨f, hf, rfl⟩ := List.mem_map.mp hi
    have happlies := ((hmem f).mp hf).1
    exact ⟨f.isError_issue _, fun t => Fault.not_isBlank_of_quoted hread happlies⟩

/-- The report of a refused query has three lines for each error and an empty line between them, and
no other lines. The report of a warning has three lines. -/
theorem resolve_reportLines (raw : Text) (origin : Origin) (credentials : Option Credentials) :
    (∀ e, resolve raw origin credentials = .error e → 1 ≤ e.errors.length ∧
      e.render.HasLines ([[]].intercalate (e.errors.map (Issue.reportLines "%ERROR:")))) ∧
    ∀ q, resolve raw origin credentials = .ok q →
      ∀ w ∈ q.warnings, w.render.HasLines (w.reportLines "%WARNING:") := by
  constructor
  · intro e he
    have hquoted := resolve_errors_quoted he
    refine ⟨Nat.le_add_left 1 _, Rejection.hasLines_render (fun i hi => (hquoted i hi).1) ?_⟩
    intro i hi t ht
    exact Text.isLine_of_not_isBlank ((hquoted i hi).2 t ht)
  · intro q _ w hw
    have hwarning : w.isError = false := by simpa using (List.mem_filter.mp hw).2
    exact Issue.hasLines_render_of_warning hwarning

theorem resolve_reportLines_marks :
    (∃ e, resolve "-T ,%ERROR:1:\u2028% -t\r\n%WARNING:1:" .direct none = .error e ∧
      e.render.HasLines
        ["%ERROR:103: unknown object type", "%", "% Unknown object type \"%ERROR:1:\".", "",
          "%ERROR:103: unknown object type", "%", "% Unknown object type \"%WARNING:1:\"."]) ∧
    ∃ q, resolve "-K -r\n%ERROR:1:" .direct none = .ok q ∧
      .ignoredFlag .noReferenced .primaryKeys ∈ q.warnings ∧
      ∀ w ∈ q.warnings, w.render.HasLines (w.reportLines "%WARNING:") := by
  have he : resolve "-T ,%ERROR:1:\u2028% -t\r\n%WARNING:1:" .direct none =
      .error ⟨.unknownObjectType "%ERROR:1:", [.unknownObjectType "%WARNING:1:"]⟩ := by rfl
  have hq : resolve "-K -r\n%ERROR:1:" .direct none = .ok _ := rfl
  refine ⟨⟨_, he, ?_⟩, _, hq, by decide +kernel, (resolve_reportLines _ _ _).2 _ hq⟩
  exact ((resolve_reportLines _ _ _).1 _ he).2

end Query

end Whois

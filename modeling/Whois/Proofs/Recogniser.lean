import Whois.Proofs.Block.Autonomous
import Whois.Proofs.Block.Ip
import Whois.Proofs.Block.Reverse
import Whois.SearchKey

/-!
The forms that a term is tried for. No term has two of them, so the order of the tests does not
matter: which form a term can have is seen from the letters and marks in it.
-/
namespace Whois

namespace SearchForm

variable {t before after : Text}

theorem cutLastAs?_eq_some (h : cutLastAs? t = some (before, after)) : t = before ++ after := by
  induction t generalizing before with
  | nil => cases h
  | cons c rest ih =>
    unfold cutLastAs? at h
    split at h
    next before' after' hrest =>
      cases h
      rw [ih hrest, List.cons_append]
    next =>
      split at h
      next =>
        cases h
        rfl
      next => cases h

/-- A route is a block with a slash in it, followed by an AS number. -/
theorem route?_eq_some {b : IpBlock} {n : AsNumber} (h : route? t = some (b, n)) :
    ∃ announced origin : Text, t = announced ++ origin ∧ '/' ∈ announced ∧
      IpBlock.read? announced = some b ∧ AsNumber.read origin = .ok n := by
  obtain ⟨⟨announced, origin⟩, hcut, h⟩ := Option.bind_eq_some_iff.mp h
  obtain ⟨hslash, h⟩ := Option.ite_none_right_eq_some.mp h
  obtain ⟨block, hblock, h⟩ := Option.bind_eq_some_iff.mp h
  obtain ⟨number, hnumber, h⟩ := Option.bind_eq_some_iff.mp h
  cases h
  refine ⟨announced, origin, cutLastAs?_eq_some hcut, List.contains_iff_mem.mp hslash, hblock, ?_⟩
  exact eq_ok_of_toOption hnumber

end SearchForm

inductive Recogniser where
  | ipv4 | ipv6 | route | asNumber | asRange | reverseName
  deriving DecidableEq, Repr

namespace Recogniser

variable {t : Text} {r : Recogniser} {f : SearchForm}

def form? : Recogniser → Text → Option SearchForm
  | .ipv4, t => (IpBlock.readV4? t).map .ip
  | .ipv6, t => (IpBlock.readV6? t).map .ip
  | .route, t => (SearchForm.route? t).map fun (block, origin) => .route block origin
  | .asNumber, t => (AsNumber.read t).toOption.map .asNumber
  | .asRange, t => (AsRange.read t).toOption.map .asRange
  | .reverseName, t => (ReverseName.block? t).map .reverseName

/-- The form found first when a text is tried for the forms in the given order. -/
def firstForm (order : List Recogniser) (t : Text) : SearchForm :=
  (order.findSome? fun r => r.form? t).getD .plain

/-- The order in which terms are tried. -/
def order : List Recogniser := [.ipv4, .ipv6, .route, .asNumber, .asRange, .reverseName]

theorem mem_order (r : Recogniser) : r ∈ order := by
  cases r <;> decide

def HasR (t : Text) : Prop := 'r' ∈ t ∨ 'R' ∈ t

def HasS (t : Text) : Prop := 's' ∈ t ∨ 'S' ∈ t

instance (t : Text) : Decidable (HasR t) := inferInstanceAs (Decidable (_ ∨ _))

instance (t : Text) : Decidable (HasS t) := inferInstanceAs (Decidable (_ ∨ _))

/-- The one recogniser that may accept a text. -/
def ofMarks (t : Text) : Recogniser :=
  if HasR t then .reverseName
  else if HasS t then
    if '/' ∈ t then .route
    else if '-' ∈ t then .asRange
    else .asNumber
  else if ':' ∈ t then .ipv6
  else .ipv4

theorem ofMarks_of_hasR (hr : HasR t) : ofMarks t = .reverseName := if_pos hr

theorem ofMarks_of_hasS (hr : ¬ HasR t) (hs : HasS t) :
    ofMarks t = if '/' ∈ t then .route else if '-' ∈ t then .asRange else .asNumber := by
  unfold ofMarks
  rw [if_neg hr, if_pos hs]

/-- Texts of other characters have neither case of a letter. -/
theorem not_mem_or_mem {P : Char → Prop} {c d : Char} (h : ∀ x ∈ t, P x) (hc : ¬ P c)
    (hd : ¬ P d) : ¬ (c ∈ t ∨ d ∈ t) :=
  fun hmem => hmem.elim (fun hx => hc (h c hx)) (fun hx => hd (h d hx))

theorem ofMarks_of_block (h : ∀ c ∈ t, IpBlock.IsBlockChar c) :
    ofMarks t = if ':' ∈ t then .ipv6 else .ipv4 := by
  have hr : ¬ HasR t := not_mem_or_mem h (by decide) (by decide)
  have hs : ¬ HasS t := not_mem_or_mem h (by decide) (by decide)
  unfold ofMarks
  rw [if_neg hr, if_neg hs]

theorem ofMarks_of_readV4? {b : IpBlock} (h : IpBlock.readV4? t = some b) : ofMarks t = .ipv4 := by
  have hcolon : ':' ∉ t := fun hc => absurd (IpBlock.mem_of_readV4? h hc) (by decide)
  rw [ofMarks_of_block fun _ => IpBlock.isBlockChar_of_readV4? h, if_neg hcolon]

theorem ofMarks_of_readV6? {b : IpBlock} (h : IpBlock.readV6? t = some b) : ofMarks t = .ipv6 := by
  rw [ofMarks_of_block fun _ => IpBlock.isBlockChar_of_readV6? h,
    if_pos (IpBlock.colon_mem_of_readV6? h)]

theorem ofMarks_of_route? {b : IpBlock} {n : AsNumber} (h : SearchForm.route? t = some (b, n)) :
    ofMarks t = .route := by
  obtain ⟨announced, origin, rfl, hslash, hblock, hnumber⟩ := SearchForm.route?_eq_some h
  have hchars : ∀ c ∈ announced ++ origin,
      IpBlock.IsBlockChar c ∨ c ∈ ("asAS" : Text) ∨ c.isDigit = true := by
    intro c hc
    rcases List.mem_append.mp hc with hc | hc
    · exact .inl (IpBlock.isBlockChar_of_read? hblock hc)
    · exact .inr (AsNumber.mem_of_read hnumber hc)
  have hr : ¬ HasR (announced ++ origin) := not_mem_or_mem hchars (by decide) (by decide)
  have hs : HasS (announced ++ origin) := (AsNumber.s_mem_of_read hnumber).imp
    (List.mem_append_right _) (List.mem_append_right _)
  rw [ofMarks_of_hasS hr hs, if_pos (List.mem_append_left _ hslash)]

theorem ofMarks_of_asNumber {n : AsNumber} (h : AsNumber.read t = .ok n) :
    ofMarks t = .asNumber := by
  have hchars : ∀ c ∈ t, c ∈ ("asAS" : Text) ∨ c.isDigit = true := fun _ => AsNumber.mem_of_read h
  have hr : ¬ HasR t := not_mem_or_mem hchars (by decide) (by decide)
  have hslash : '/' ∉ t := fun hc => absurd (hchars _ hc) (by decide)
  rw [ofMarks_of_hasS hr (AsNumber.s_mem_of_read h), if_neg hslash,
    if_neg (AsNumber.hyphen_not_mem_of_read h)]

theorem ofMarks_of_asRange {r : AsRange} (h : AsRange.read t = .ok r) : ofMarks t = .asRange := by
  have hchars : ∀ c ∈ t, c ∈ ("asAS" : Text) ∨ c.isDigit = true ∨ c = '-' ∨
      Text.isBlank c = true := fun _ => AsRange.mem_of_read h
  have hr : ¬ HasR t := not_mem_or_mem hchars (by decide) (by decide)
  have hslash : '/' ∉ t := fun hc => absurd (hchars _ hc) (by decide)
  rw [ofMarks_of_hasS hr (AsRange.s_mem_of_read h), if_neg hslash,
    if_pos (AsRange.hyphen_mem_of_read h)]

/-- Whatever a recogniser accepts has the letters and marks that go with it. -/
theorem ofMarks_of_form? (h : r.form? t = some f) : ofMarks t = r := by
  cases r with
  | ipv4 =>
    obtain ⟨_, hread, _⟩ := Option.map_eq_some_iff.mp h
    exact ofMarks_of_readV4? hread
  | ipv6 =>
    obtain ⟨_, hread, _⟩ := Option.map_eq_some_iff.mp h
    exact ofMarks_of_readV6? hread
  | route =>
    obtain ⟨_, hread, _⟩ := Option.map_eq_some_iff.mp h
    exact ofMarks_of_route? hread
  | asNumber =>
    obtain ⟨_, hread, _⟩ := Option.map_eq_some_iff.mp h
    exact ofMarks_of_asNumber (eq_ok_of_toOption hread)
  | asRange =>
    obtain ⟨_, hread, _⟩ := Option.map_eq_some_iff.mp h
    exact ofMarks_of_asRange (eq_ok_of_toOption hread)
  | reverseName =>
    obtain ⟨_, hread, _⟩ := Option.map_eq_some_iff.mp h
    exact ofMarks_of_hasR (ReverseName.r_mem_of_block? hread)

example : ofMarks "10.0.0.0/8as3333" = .route := by decide

/-- If every recogniser is tried, the order does not matter. -/
theorem firstForm_eq_of_forall_mem {rs : List Recogniser} (h : ∀ r, r ∈ rs) (t : Text) :
    firstForm rs t = ((ofMarks t).form? t).getD .plain := by
  unfold firstForm
  congr 1
  cases hfirst : rs.findSome? fun r => r.form? t with
  | none => exact (List.findSome?_eq_none_iff.mp hfirst _ (h (ofMarks t))).symm
  | some f =>
    obtain ⟨r, _, hr⟩ := List.exists_of_findSome?_eq_some hfirst
    rw [ofMarks_of_form? hr, hr]

end Recogniser

namespace SearchForm

open Recogniser (firstForm form? ofMarks)

variable {t : Text} {f : SearchForm}

theorem ofText_eq_firstForm (t : Text) : ofText t = firstForm Recogniser.order t := by
  unfold ofText
  repeat' split
  all_goals simp_all [firstForm, Recogniser.order, form?, Except.toOption]

theorem ofText_eq (t : Text) : ofText t = ((ofMarks t).form? t).getD .plain := by
  rw [ofText_eq_firstForm, Recogniser.firstForm_eq_of_forall_mem Recogniser.mem_order]

/-- The form that any recogniser finds is the form of the text. -/
theorem ofText_of_form? {r : Recogniser} (h : r.form? t = some f) : ofText t = f := by
  rw [ofText_eq, Recogniser.ofMarks_of_form? h, h, Option.getD_some]

/-- Every form but the plain one is found by a recogniser. -/
theorem exists_form?_of_ofText (h : ofText t = f) (hplain : f ≠ .plain) :
    ∃ r : Recogniser, r.form? t = some f := by
  rw [ofText_eq] at h
  cases hform : (ofMarks t).form? t with
  | none =>
    rw [hform] at h
    exact absurd h.symm hplain
  | some f' =>
    rw [hform, Option.getD_some] at h
    exact ⟨_, hform.trans (congrArg some h)⟩

/-- A text has the form of a block if it is read as one. -/
theorem readV4?_or_readV6?_of_ofText {b : IpBlock} (h : ofText t = .ip b) :
    IpBlock.readV4? t = some b ∨ IpBlock.readV6? t = some b := by
  obtain ⟨r, hr⟩ := exists_form?_of_ofText h (by simp)
  cases r <;> simp_all [form?]

/-- Only a route has the form of one. -/
theorem route?_of_ofText {b : IpBlock} {n : AsNumber} (h : ofText t = .route b n) :
    route? t = some (b, n) := by
  obtain ⟨r, hr⟩ := exists_form?_of_ofText h (by simp)
  cases r <;> simp_all [form?]

end SearchForm

end Whois

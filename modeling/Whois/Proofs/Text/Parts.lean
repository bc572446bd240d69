import Mathlib.Data.List.Forall2
import Whois.Proofs.Text.Words

/-!
Texts that are put together from parts, and taken apart again at the separators.
-/
namespace Whois

section Reading
variable {α β : Type} {read : β → Option α}

theorem eq_ok_of_toOption {ε : Type} {x : Except ε α} {a : α} (h : x.toOption = some a) :
    x = .ok a := by
  cases x with
  | error e => cases h
  | ok b =>
    cases h
    rfl

/-- What is written item by item is read item by item. -/
theorem mapM_map_eq_some {write : α → β} {items : List α}
    (h : ∀ a ∈ items, read (write a) = some a) : (items.map write).mapM read = some items := by
  induction items with
  | nil => rfl
  | cons a rest ih =>
    have hrest := ih fun b hb => h b (List.mem_cons_of_mem _ hb)
    rw [List.map_cons, List.mapM_cons, h a List.mem_cons_self, hrest]
    rfl

theorem exists_of_mapM_eq_some {texts : List β} {items : List α}
    (h : texts.mapM read = some items) {t : β} (ht : t ∈ texts) : ∃ a, read t = some a := by
  induction texts generalizing items with
  | nil => cases ht
  | cons first rest ih =>
    rw [List.mapM_cons] at h
    obtain ⟨a, ha, h⟩ := Option.bind_eq_some_iff.mp h
    obtain ⟨items', hitems', _⟩ := Option.bind_eq_some_iff.mp h
    rcases List.mem_cons.mp ht with rfl | ht
    · exact ⟨a, ha⟩
    · exact ih hitems' ht

theorem length_of_mapM_eq_some {texts : List β} {items : List α}
    (h : texts.mapM read = some items) : items.length = texts.length := by
  induction texts generalizing items with
  | nil =>
    cases h
    rfl
  | cons first rest ih =>
    rw [List.mapM_cons] at h
    obtain ⟨a, _, h⟩ := Option.bind_eq_some_iff.mp h
    obtain ⟨items', hitems', hcons⟩ := Option.bind_eq_some_iff.mp h
    cases hcons
    rw [List.length_cons, List.length_cons, ih hitems']

theorem mapM_eq_some_iff_forall₂ {texts : List β} {items : List α} :
    texts.mapM read = some items ↔ List.Forall₂ (fun t a => read t = some a) texts items := by
  induction texts generalizing items with
  | nil => simp
  | cons first rest ih =>
    rw [List.mapM_cons, List.forall₂_cons_left_iff]
    simp only [Option.bind_eq_bind, Option.bind_eq_some_iff, ih, Option.pure_def,
      Option.some.injEq]
    constructor
    · rintro ⟨a, ha, items', hitems', rfl⟩
      exact ⟨a, items', ha, hitems', rfl⟩
    · rintro ⟨a, items', ha, hitems', rfl⟩
      exact ⟨a, ha, items', hitems', rfl⟩

theorem mapM_reverse (texts : List β) :
    texts.reverse.mapM read = (texts.mapM read).map List.reverse := by
  apply Option.ext
  intro items
  rw [Option.map_eq_some_iff, mapM_eq_some_iff_forall₂, ← List.forall₂_reverse_iff,
    List.reverse_reverse, ← mapM_eq_some_iff_forall₂]
  constructor
  · exact fun h => ⟨_, h, List.reverse_reverse items⟩
  · rintro ⟨_, h, rfl⟩
    rwa [List.reverse_reverse]

/-- What is made of each item can be made of all when they have been read. -/
theorem mapM_map_read {γ : Type} (f : α → γ) (texts : List β) :
    texts.mapM (fun t => (read t).map f) = (texts.mapM read).map (List.map f) := by
  induction texts with
  | nil => rfl
  | cons first rest ih =>
    rw [List.mapM_cons, List.mapM_cons, ih]
    cases read first with
    | none => rfl
    | some a => cases rest.mapM read <;> rfl

end Reading

namespace Text

variable {sep c : Char} {s t u : Text} {ts : List Text}

theorem split_of_not_mem (h : sep ∉ t) : split sep t = [t] := by
  apply splitWhere_of_forall_not
  intro c hc
  have hne : c ≠ sep := fun heq => h (heq ▸ hc)
  simpa using hne

theorem split_append_cons (s t : Text) : split sep (s ++ sep :: t) = split sep s ++ split sep t :=
  splitWhere_append_cons (p := (· == sep)) (beq_self_eq_true sep) s t

/-- If the first part is not empty, the text starts as it does. -/
theorem head?_of_split {part : Text} (h : split sep t = part :: ts) (hpart : part ≠ []) :
    t.head? = part.head? := by
  cases t with
  | nil =>
    cases h
    exact absurd rfl hpart
  | cons c rest =>
    obtain ⟨first, parts, hrest⟩ := List.exists_cons_of_ne_nil (splitWhere_ne_nil (· == sep) rest)
    cases hc : c == sep <;> simp [split, splitWhere, hc, hrest] at h
    · rw [← h.1]
      rfl
    · exact absurd h.1 hpart

/-- Parts that hold no separator are what a text joined from them is split into. -/
theorem splitWhere_join {p : Char → Bool} (hsep : p sep = true) (hts : ts ≠ [])
    (h : ∀ t ∈ ts, ∀ c ∈ t, p c = false) : splitWhere p (join [sep] ts) = ts := by
  induction ts with
  | nil => exact absurd rfl hts
  | cons t rest ih =>
    have ht := h t List.mem_cons_self
    by_cases hrest : rest = []
    · rw [hrest, join_singleton, splitWhere_of_forall_not ht]
    · have ih := ih hrest fun t' ht' => h t' (List.mem_cons_of_mem _ ht')
      rw [join_cons hrest, List.append_assoc, List.singleton_append, splitWhere_append_cons hsep,
        splitWhere_of_forall_not ht, ih]
      rfl

theorem split_join (hts : ts ≠ []) (h : ∀ t ∈ ts, sep ∉ t) : split sep (join [sep] ts) = ts := by
  refine splitWhere_join (p := (· == sep)) (beq_self_eq_true sep) hts ?_
  intro t ht c hc
  have hne : c ≠ sep := fun heq => h t ht (heq ▸ hc)
  simpa using hne

/-- The parts of a text give it back when they are joined. -/
theorem join_split (sep : Char) (t : Text) : join [sep] (split sep t) = t := by
  induction t with
  | nil => exact join_singleton _ _
  | cons c rest ih =>
    obtain ⟨first, parts, hrest⟩ := List.exists_cons_of_ne_nil (splitWhere_ne_nil (· == sep) rest)
    change split sep rest = first :: parts at hrest
    rw [hrest] at ih
    by_cases hc : c = sep
    · have hsplit : split sep (c :: rest) = [] :: first :: parts := by
        rw [← hrest]
        exact splitWhere_cons_of_pos (p := (· == sep)) (beq_iff_eq.mpr hc) rest
      rw [hsplit, join_cons (List.cons_ne_nil _ _), ih, hc]
      rfl
    · have hsplit : split sep (c :: rest) = (c :: first) :: parts := by
        have hbeq : (c == sep) = false := beq_eq_false_iff_ne.mpr hc
        unfold split at hrest ⊢
        rw [splitWhere, hbeq, hrest]
      rw [hsplit]
      by_cases hparts : parts = []
      · rw [hparts, join_singleton] at ih
        rw [hparts, join_singleton, ih]
      · rw [join_cons hparts] at ih
        rw [join_cons hparts, ← ih]
        rfl

/-- Every character that does not separate is in a part. -/
theorem exists_mem_splitWhere {p : Char → Bool} (hc : c ∈ t) (hp : p c = false) :
    ∃ part ∈ splitWhere p t, c ∈ part := by
  induction t with
  | nil => cases hc
  | cons d rest ih =>
    obtain ⟨first, parts, hrest⟩ := List.exists_cons_of_ne_nil (splitWhere_ne_nil p rest)
    cases hd : p d with
    | true =>
      have hne : c ≠ d := by
        rintro rfl
        rw [hd] at hp
        cases hp
      obtain ⟨part, hpart, hcpart⟩ := ih ((List.mem_cons.mp hc).resolve_left hne)
      rw [splitWhere_cons_of_pos hd]
      exact ⟨part, List.mem_cons_of_mem _ hpart, hcpart⟩
    | false =>
      have hsplit : splitWhere p (d :: rest) = (d :: first) :: parts := by
        simp [splitWhere, hd, hrest]
      rw [hsplit]
      rcases List.mem_cons.mp hc with rfl | hc
      · exact ⟨c :: first, List.mem_cons_self, List.mem_cons_self⟩
      · obtain ⟨part, hpart, hcpart⟩ := ih hc
        rw [hrest] at hpart
        rcases List.mem_cons.mp hpart with rfl | hpart
        · exact ⟨d :: part, List.mem_cons_self, List.mem_cons_of_mem _ hcpart⟩
        · exact ⟨part, List.mem_cons_of_mem _ hpart, hcpart⟩

theorem mem_of_mem_splitWhere {p : Char → Bool} {part : Text} (h : part ∈ splitWhere p t)
    (hc : c ∈ part) : c ∈ t := by
  induction t generalizing part with
  | nil =>
    rw [List.mem_singleton.mp h] at hc
    cases hc
  | cons d rest ih =>
    obtain ⟨first, parts, hrest⟩ := List.exists_cons_of_ne_nil (splitWhere_ne_nil p rest)
    cases hd : p d with
    | true =>
      rw [splitWhere_cons_of_pos hd] at h
      rcases List.mem_cons.mp h with rfl | h
      · cases hc
      · exact List.mem_cons_of_mem _ (ih h hc)
    | false =>
      have hsplit : splitWhere p (d :: rest) = (d :: first) :: parts := by
        simp [splitWhere, hd, hrest]
      rw [hsplit] at h
      rcases List.mem_cons.mp h with rfl | h
      · rcases List.mem_cons.mp hc with rfl | hc
        · exact List.mem_cons_self
        · exact List.mem_cons_of_mem _ (ih (hrest ▸ List.mem_cons_self) hc)
      · exact List.mem_cons_of_mem _ (ih (hrest ▸ List.mem_cons_of_mem _ h) hc)

theorem exists_mem_split (hc : c ∈ t) (hne : c ≠ sep) : ∃ part ∈ split sep t, c ∈ part := by
  apply exists_mem_splitWhere hc
  simpa using hne

theorem mem_of_mem_split {part : Text} (h : part ∈ split sep t) (hc : c ∈ part) : c ∈ t :=
  mem_of_mem_splitWhere h hc

/-- The parts of a text that are not empty, so that neighbouring separators count as one. -/
def filled (sep : Char) (t : Text) : List Text := (split sep t).filter (!·.isEmpty)

theorem filled_cons (t : Text) : filled sep (sep :: t) = filled sep t := by
  have hsplit : split sep (sep :: t) = [] :: split sep t := split_append_cons [] t
  unfold filled
  rw [hsplit]
  rfl

theorem filled_replicate_append (n : Nat) (t : Text) :
    filled sep (List.replicate n sep ++ t) = filled sep t := by
  induction n with
  | zero => rfl
  | succ n ih => rw [List.replicate_succ, List.cons_append, filled_cons, ih]

theorem filled_append_cons (hne : s ≠ []) (hfree : sep ∉ s) (t : Text) :
    filled sep (s ++ sep :: t) = s :: filled sep t := by
  unfold filled
  rw [split_append_cons, split_of_not_mem hfree]
  simp [hne]

theorem filled_of_not_mem (hne : s ≠ []) (hfree : sep ∉ s) : filled sep s = [s] := by
  unfold filled
  rw [split_of_not_mem hfree]
  simp [hne]

theorem filled_append_replicate (hne : s ≠ []) (hfree : sep ∉ s) (n : Nat) :
    filled sep (s ++ List.replicate n sep) = [s] := by
  cases n with
  | zero => rw [List.replicate_zero, List.append_nil, filled_of_not_mem hne hfree]
  | succ n =>
    have hnil : filled sep (List.replicate n sep) = filled sep [] := by
      rw [← filled_replicate_append n [], List.append_nil]
    rw [List.replicate_succ, filled_append_cons hne hfree, hnil]
    rfl

theorem join_replicate_append (n : Nat) (h : ts ≠ []) :
    join [sep] (List.replicate n [] ++ ts) = List.replicate n sep ++ join [sep] ts := by
  induction n with
  | zero => rfl
  | succ n ih =>
    rw [List.replicate_succ, List.cons_append, join_cons (by simp [h]), ih, List.replicate_succ]
    rfl

theorem join_cons_replicate (t : Text) (n : Nat) :
    join [sep] (t :: List.replicate n []) = t ++ List.replicate n sep := by
  induction n generalizing t with
  | zero => rw [List.replicate_zero, join_singleton, List.replicate_zero, List.append_nil]
  | succ n ih =>
    rw [List.replicate_succ, join_cons (by simp), ih, List.append_assoc, List.replicate_succ]
    rfl

/-- Two parts stand between separators, with at least one in the middle. -/
theorem filled_eq_pair_iff : filled sep t = [s, u] ↔
    (s ≠ [] ∧ sep ∉ s) ∧ (u ≠ [] ∧ sep ∉ u) ∧ ∃ i j k,
      t = List.replicate i sep ++ s ++ List.replicate (j + 1) sep ++ u ++ List.replicate k sep := by
  constructor
  · intro h
    have hpart : ∀ part ∈ filled sep t, part ≠ [] ∧ sep ∉ part := by
      intro part hmem
      obtain ⟨hsplit, hne⟩ := List.mem_filter.mp hmem
      refine ⟨by simpa using hne, fun hsep => ?_⟩
      simpa using not_of_mem_splitWhere hsplit sep hsep
    rw [h] at hpart
    refine ⟨hpart s (by simp), hpart u (by simp), ?_⟩
    have hempty : ∀ {parts : List Text}, (∀ part ∈ parts, ¬ (!part.isEmpty) = true) →
        parts = List.replicate parts.length [] := by
      intro parts hparts
      rw [List.eq_replicate_iff]
      exact ⟨rfl, fun part hmem => by simpa using hparts part hmem⟩
    obtain ⟨before, rest, hsplit, hbefore, -, hrest⟩ := List.filter_eq_cons_iff.mp h
    obtain ⟨between, after, rfl, hbetween, -, hafter⟩ := List.filter_eq_cons_iff.mp hrest
    have hafter := hempty (List.filter_eq_nil_iff.mp hafter)
    refine ⟨before.length, between.length, after.length, ?_⟩
    rw [← join_split sep t, hsplit, hempty hbefore, hempty hbetween, hafter]
    rw [join_replicate_append _ (by simp), join_cons (by simp), join_replicate_append _ (by simp),
      join_cons_replicate, List.replicate_succ]
    simp
  · rintro ⟨⟨hs, hsfree⟩, ⟨hu, hufree⟩, i, j, k, rfl⟩
    rw [List.append_assoc, List.append_assoc, List.append_assoc, filled_replicate_append,
      List.replicate_succ, List.cons_append, filled_append_cons hs hsfree, filled_replicate_append,
      filled_append_replicate hu hufree]

theorem cut?_append_cons (h : sep ∉ s) (t : Text) : cut? sep (s ++ sep :: t) = some (s, t) := by
  induction s with
  | nil => exact if_pos rfl
  | cons c rest ih =>
    obtain ⟨hc, hrest⟩ := not_or.mp (mt List.mem_cons.mpr h)
    rw [List.cons_append, cut?, if_neg (Ne.symm hc), ih hrest]
    rfl

theorem cut?_eq_none (h : sep ∉ t) : cut? sep t = none := by
  cases hcut : cut? sep t with
  | none => rfl
  | some parts =>
    have ht := cut?_eq_some hcut
    exact absurd (ht ▸ List.mem_append_right _ List.mem_cons_self) h

theorem trim_of_forall_not (h : ∀ c ∈ t, isBlank c = false) : trim t = t := by
  apply trim_of_ends
  · exact fun c hc => h c (List.mem_of_head? hc)
  · exact fun c hc => h c (List.mem_of_getLast? hc)

/-- Trimming takes nothing but blanks away. -/
theorem mem_trim_of_mem (hc : c ∈ t) (hblank : isBlank c = false) : c ∈ trim t := by
  have hdrop : ∀ {s : Text}, c ∈ s → c ∈ s.dropWhile isBlank := by
    intro s hs
    rw [← List.takeWhile_append_dropWhile (p := isBlank) (l := s), List.mem_append] at hs
    apply hs.resolve_left
    intro hs
    have htrue := List.all_eq_true.mp List.all_takeWhile c hs
    rw [hblank] at htrue
    cases htrue
  unfold trim trimEnd trimStart
  rw [List.mem_reverse]
  exact hdrop (List.mem_reverse.mpr (hdrop hc))

theorem mem_of_mem_trim (hc : c ∈ trim t) : c ∈ t := by
  unfold trim trimEnd trimStart at hc
  have hstart := (List.dropWhile_suffix isBlank).subset (List.mem_reverse.mp hc)
  exact (List.dropWhile_suffix isBlank).subset (List.mem_reverse.mp hstart)

theorem trim_append_space (h : ∀ c ∈ t, isBlank c = false) : trim (t ++ " ") = t := by
  unfold trim
  have hstart : trimStart (t ++ " ") = t ++ " " ∨ t = [] := by
    cases t with
    | nil => exact .inr rfl
    | cons c rest =>
      left
      unfold trimStart
      rw [List.cons_append, List.dropWhile_cons_of_neg (by simp [h c List.mem_cons_self])]
  rcases hstart with hstart | rfl
  · rw [hstart]
    unfold trimEnd
    have hreverse : (t ++ " ".toList).reverse = ' ' :: t.reverse := by simp
    rw [hreverse, List.dropWhile_cons_of_pos (by decide), dropWhile_of_head, List.reverse_reverse]
    intro c hc
    exact h c (List.mem_reverse.mp (List.mem_of_head? hc))
  · rfl

theorem trim_space_append (h : ∀ c ∈ t, isBlank c = false) : trim (" " ++ t) = t := by
  have hstart : trimStart (" " ++ t) = trimStart t := by
    unfold trimStart
    exact List.dropWhile_cons_of_pos (by decide)
  unfold trim
  rw [hstart]
  exact trim_of_forall_not h

/-- Whether a text is a word without a hyphen in it. -/
def IsPlainWord (t : Text) : Prop := t ≠ [] ∧ ∀ c ∈ t, isBlank c = false ∧ c ≠ '-'

theorem IsPlainWord.isWord (h : IsPlainWord t) : IsWord t := ⟨h.1, fun c hc => (h.2 c hc).1⟩

theorem IsPlainWord.hyphen_not_mem (h : IsPlainWord t) : '-' ∉ t := fun hc => (h.2 '-' hc).2 rfl

/-- Every character that is not blank is in a word. -/
theorem exists_mem_words (hc : c ∈ t) (hblank : isBlank c = false) : ∃ word ∈ words t, c ∈ word := by
  obtain ⟨part, hpart, hcpart⟩ := exists_mem_splitWhere hc hblank
  refine ⟨part, List.mem_filter.mpr ⟨hpart, ?_⟩, hcpart⟩
  simpa using List.ne_nil_of_mem hcpart

theorem mem_of_mem_words {word : Text} (h : word ∈ words t) (hc : c ∈ word) : c ∈ t :=
  mem_of_mem_splitWhere (List.mem_filter.mp h).1 hc

theorem words_of_isWord (h : IsWord t) : words t = [t] := words_of_forall_not h.1 h.2

/-- Two words around a hyphen. -/
theorem words_hyphenated (hs : IsWord s) (ht : IsWord t) :
    words (s ++ " - " ++ t) = [s, "-", t] := by
  have hspace : isBlank ' ' = true := by decide
  have hhyphen : IsWord "-" := by
    refine ⟨List.cons_ne_nil _ _, ?_⟩
    intro c hc
    rw [List.mem_singleton.mp hc]
    rfl
  have hsplit : s ++ " - " ++ t = s ++ ' ' :: ("-" ++ ' ' :: t) := List.append_assoc ..
  rw [hsplit, words_append_cons hspace s, words_append_cons hspace "-", words_of_isWord hs,
    words_of_isWord ht, words_of_isWord hhyphen]
  rfl

end Text

end Whois

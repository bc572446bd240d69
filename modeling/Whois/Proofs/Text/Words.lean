import Whois.Text.Blank

/-!
Words and the texts they are joined to. Trimming changes nothing about the words of a text, and
nothing at all about words joined by single spaces.
-/
namespace Whois.Text

/-- A text that is not empty and holds no blank. -/
def IsWord (t : Text) : Prop := t ≠ [] ∧ ∀ c ∈ t, isBlank c = false

instance (t : Text) : Decidable (IsWord t) :=
  inferInstanceAs (Decidable (_ ≠ _ ∧ ∀ c ∈ t, _ = _))

theorem isWord_of_mem_words {t word : Text} (h : word ∈ words t) : IsWord word := mem_words h

theorem dropWhile_of_head {t : Text} (h : ∀ c, t.head? = some c → isBlank c = false) :
    t.dropWhile isBlank = t := by
  cases t with
  | nil => rfl
  | cons c rest => simp [h c rfl]

theorem trim_of_ends {t : Text} (hfirst : ∀ c, t.head? = some c → isBlank c = false)
    (hlast : ∀ c, t.getLast? = some c → isBlank c = false) : trim t = t := by
  unfold trim trimStart trimEnd
  rw [dropWhile_of_head hfirst]
  rw [dropWhile_of_head (by simpa using hlast)]
  exact List.reverse_reverse t

theorem isBlank_of_head?_dropWhile {t : Text} {c : Char}
    (h : (t.dropWhile isBlank).head? = some c) : isBlank c = false := by
  have hhead := List.head?_dropWhile_not isBlank t
  rw [h] at hhead
  simpa using hhead

/-- What is left after trimming starts and ends with no blank. -/
theorem trim_trim (t : Text) : trim (trim t) = trim t := by
  have hprefix : trimEnd (trimStart t) <+: trimStart t := by
    have hsuffix := List.dropWhile_suffix (l := (trimStart t).reverse) isBlank
    simpa [trimEnd] using List.reverse_prefix.mpr hsuffix
  apply trim_of_ends
  · intro c hc
    obtain ⟨rest, hrest⟩ := hprefix
    have hstart : (trimStart t).head? = some c := by
      rw [← hrest]
      simp [show (trimEnd (trimStart t)).head? = some c from hc]
    exact isBlank_of_head?_dropWhile hstart
  · intro c hc
    apply isBlank_of_head?_dropWhile (t := (trimStart t).reverse)
    simpa [trim, trimEnd] using hc

theorem words_cons_of_isBlank {c : Char} (h : isBlank c = true) (t : Text) :
    words (c :: t) = words t := by
  simpa [words, splitWhere] using words_append_cons h [] t

theorem words_append_of_isBlank {c : Char} (h : isBlank c = true) (t : Text) :
    words (t ++ [c]) = words t := by
  simpa [words, splitWhere] using words_append_cons h t []

/-- Texts put together with a space between them have the words of both. -/
theorem words_append_space (s t : Text) : words (s ++ " " ++ t) = words s ++ words t := by
  rw [List.append_assoc]
  exact words_append_cons (by decide) s t

theorem words_trimStart (t : Text) : words (trimStart t) = words t := by
  unfold trimStart
  induction t with
  | nil => rfl
  | cons c rest ih =>
    cases h : isBlank c with
    | true => rw [List.dropWhile_cons_of_pos h, ih, words_cons_of_isBlank h]
    | false => rw [List.dropWhile_cons_of_neg (by simp [h])]

/-- The end of a text is the start of its reverse, read back. -/
theorem words_reverse_dropWhile (t : Text) :
    words (t.dropWhile isBlank).reverse = words t.reverse := by
  induction t with
  | nil => rfl
  | cons c rest ih =>
    cases h : isBlank c with
    | true =>
      rw [List.dropWhile_cons_of_pos h, ih, List.reverse_cons, words_append_of_isBlank h]
    | false => rw [List.dropWhile_cons_of_neg (by simp [h])]

theorem words_trimEnd (t : Text) : words (trimEnd t) = words t := by
  unfold trimEnd
  rw [words_reverse_dropWhile, List.reverse_reverse]

theorem words_trim (t : Text) : words (trim t) = words t := by
  unfold trim
  rw [words_trimEnd, words_trimStart]

theorem join_singleton (sep t : Text) : join sep [t] = t := by
  unfold join
  exact List.intercalate_singleton

theorem join_cons {sep t : Text} {ts : List Text} (h : ts ≠ []) :
    join sep (t :: ts) = t ++ sep ++ join sep ts := by
  unfold join
  exact List.intercalate_cons_of_ne_nil h

theorem join_append {sep : Text} {ts ts' : List Text} (h : ts ≠ []) (h' : ts' ≠ []) :
    join sep (ts ++ ts') = join sep ts ++ sep ++ join sep ts' := by
  induction ts with
  | nil => exact absurd rfl h
  | cons t ts ih =>
    by_cases hts : ts = []
    · rw [hts, List.singleton_append, join_cons h', join_singleton]
    · rw [List.cons_append, join_cons (by simp [hts]), ih hts, join_cons hts]
      simp only [List.append_assoc]

theorem join_ne_nil {sep : Text} {ts : List Text} (h : ts ≠ []) (hts : ∀ t ∈ ts, t ≠ []) :
    join sep ts ≠ [] := by
  obtain ⟨t, rest, rfl⟩ := List.exists_cons_of_ne_nil h
  have ht : t ≠ [] := hts t (by simp)
  by_cases hrest : rest = []
  · rwa [hrest, join_singleton]
  · rw [join_cons hrest]
    simp [ht]

theorem head?_join {sep t : Text} (ht : t ≠ []) (ts : List Text) :
    (join sep (t :: ts)).head? = t.head? := by
  by_cases hts : ts = []
  · rw [hts, join_singleton]
  · rw [join_cons hts, List.append_assoc]
    rw [List.head?_append, List.head?_eq_some_head ht, Option.some_or]

theorem getLast?_join {sep t : Text} (ht : t ≠ []) (ts : List Text) :
    (join sep (ts ++ [t])).getLast? = t.getLast? := by
  by_cases hts : ts = []
  · rw [hts, List.nil_append, join_singleton]
  · rw [join_append hts (by simp), join_singleton]
    rw [List.getLast?_append, List.getLast?_eq_some_getLast ht, Option.some_or]

theorem trim_join {ws : List Text} (h : ∀ w ∈ ws, IsWord w) :
    trim (join " " ws) = join " " ws := by
  apply trim_of_ends
  · cases ws with
    | nil => simp [join]
    | cons w ws =>
      have hw := h w (by simp)
      rw [head?_join hw.1]
      exact fun c hc => hw.2 c (List.mem_of_head? hc)
  · rcases List.eq_nil_or_concat ws with rfl | ⟨ws, w, rfl⟩
    · simp [join]
    · have hw := h w (by simp)
      rw [List.concat_eq_append, getLast?_join hw.1]
      exact fun c hc => hw.2 c (List.mem_of_getLast? hc)

/-- Two texts with a separator between them, or the one that is not empty. -/
def joinNonempty (sep s t : Text) : Text := join sep ([s, t].filter (!·.isEmpty))

theorem joinNonempty_nil_left (sep t : Text) : joinNonempty sep [] t = t := by
  by_cases ht : t = [] <;> simp [joinNonempty, join, ht]

theorem joinNonempty_nil_right (sep s : Text) : joinNonempty sep s [] = s := by
  by_cases hs : s = [] <;> simp [joinNonempty, join, hs]

theorem joinNonempty_of_ne_nil {sep s t : Text} (hs : s ≠ []) (ht : t ≠ []) :
    joinNonempty sep s t = s ++ sep ++ t := by
  simp [joinNonempty, join_cons, join_singleton, hs, ht]

theorem join_append_eq_joinNonempty {sep : Text} {ts ts' : List Text} (h : ∀ t ∈ ts, t ≠ [])
    (h' : ∀ t ∈ ts', t ≠ []) :
    join sep (ts ++ ts') = joinNonempty sep (join sep ts) (join sep ts') := by
  by_cases hts : ts = []
  · rw [hts]
    exact (joinNonempty_nil_left sep _).symm
  · by_cases hts' : ts' = []
    · rw [hts', List.append_nil]
      exact (joinNonempty_nil_right sep _).symm
    · rw [join_append hts hts']
      exact (joinNonempty_of_ne_nil (join_ne_nil hts h) (join_ne_nil hts' h')).symm

/-- Words joined to a text and trimmed can be put together from any two parts. -/
theorem trim_join_append {ws ws' : List Text} (h : ∀ w ∈ ws, IsWord w)
    (h' : ∀ w ∈ ws', IsWord w) :
    trim (join " " (ws ++ ws')) =
      joinNonempty " " (trim (join " " ws)) (trim (join " " ws')) := by
  have hboth : ∀ w ∈ ws ++ ws', IsWord w := List.forall_mem_append.mpr ⟨h, h'⟩
  rw [trim_join h, trim_join h', trim_join hboth]
  exact join_append_eq_joinNonempty (fun w hw => (h w hw).1) fun w hw => (h' w hw).1

end Whois.Text

import Whois.Proofs.Options.Composition
import Whois.Proofs.Options.SearchWords

/-!
Words at the end of a query. They join the search term, and whatever is wrong with the tokens before
them is wrong in the same way without them.
-/
namespace Whois

namespace Scan

variable {r : Registry} {tokens ws : List Text}

/-- The scan with words put at its end, unless a fault stops it before. -/
def extend (s : Scan) (ws : List Text) : Scan :=
  match s.fault with
  | none => ⟨s.items ++ ws.map .word, none⟩
  | some f => ⟨s.items, some f⟩

theorem extend_after (s : Scan) (items : List Item) (ws : List Text) :
    (s.after items).extend ws = (s.extend ws).after items := by
  obtain ⟨items', fault⟩ := s
  cases fault with
  | none => simp [after, extend]
  | some f => rfl

theorem extend_ofFault (f : OptionFault) (ws : List Text) : (ofFault f).extend ws = ofFault f := rfl

/-- Whether the next token would be the value of the last flag. -/
def awaitsValue (r : Registry) : (tokens : List Text) → Bool
  | [] => false
  | token :: rest =>
    match r.readToken token with
    | .terminator | .fault _ => false
    | .word | .flags _ => awaitsValue r rest
    | .needsValue _ _ =>
      match rest with
      | [] => true
      | value :: rest => if r.namesFlag value then false else awaitsValue r rest

section Step
variable {token value : Text} {given : List Occurrence} {spec : FlagSpec}

theorem ofTokens_of_terminator (h : r.readToken token = .terminator) (rest : List Text) :
    ofTokens r (token :: rest) = ⟨rest.map .word, none⟩ := by
  unfold ofTokens
  simp only [h]

theorem ofTokens_of_fault {f : OptionFault} (h : r.readToken token = .fault f)
    (rest : List Text) : ofTokens r (token :: rest) = ofFault f := by
  unfold ofTokens
  simp only [h]

theorem ofTokens_of_namesFlag (h : r.readToken token = .needsValue given spec)
    (hvalue : r.namesFlag value = true) (rest : List Text) :
    ofTokens r (token :: value :: rest) = ofFault (.missingValue spec.flag) := by
  unfold ofTokens
  simp only [h, hvalue, if_true]

end Step

/-- Words that extend the scan of some tokens extend it behind any other tokens, unless these take
the first of those tokens for a value. -/
theorem ofTokens_append_extend {last : List Text}
    (hlast : ofTokens r (last ++ ws) = (ofTokens r last).extend ws)
    (hawaits : awaitsValue r tokens = true →
      ∃ value rest, last = value :: rest ∧ r.namesFlag value = true) :
    ofTokens r (tokens ++ (last ++ ws)) = (ofTokens r (tokens ++ last)).extend ws := by
  -- Every token puts the same items in front of both scans, or stops both.
  fun_induction ofTokens r tokens with
  | case1 => exact hlast
  | case2 token tokens hread =>
    rw [List.cons_append, List.cons_append, ofTokens_of_terminator hread,
      ofTokens_of_terminator hread]
    simp [extend]
  | case3 token tokens hread ih =>
    have hrest := ih fun h => hawaits (by unfold awaitsValue; simpa only [hread] using h)
    rw [List.cons_append, List.cons_append, ofTokens_of_word hread, ofTokens_of_word hread, hrest,
      extend_after]
  | case4 token tokens f hread =>
    rw [List.cons_append, List.cons_append, ofTokens_of_fault hread, ofTokens_of_fault hread,
      extend_ofFault]
  | case5 token tokens given hread ih =>
    have hrest := ih fun h => hawaits (by unfold awaitsValue; simpa only [hread] using h)
    rw [List.cons_append, List.cons_append, ofTokens_of_flags hread, ofTokens_of_flags hread, hrest,
      extend_after]
  | case6 token given spec hread =>
    obtain ⟨value, rest, rfl, hnames⟩ := hawaits (by simp [awaitsValue, hread])
    simp only [List.cons_append, List.nil_append]
    rw [ofTokens_of_namesFlag hread hnames, ofTokens_of_namesFlag hread hnames, extend_ofFault]
  | case7 token given spec hread value tokens hnames =>
    simp only [List.cons_append]
    rw [ofTokens_of_namesFlag hread hnames, ofTokens_of_namesFlag hread hnames, extend_ofFault]
  | case8 token given spec hread value tokens hnames ih =>
    have hrest := ih fun h => hawaits (by simpa [awaitsValue, hread, hnames] using h)
    simp only [List.cons_append]
    rw [ofTokens_of_value hread hnames, ofTokens_of_value hread hnames, hrest, extend_after]

/-- Words join the search term, unless the first of them would be the value of a flag. -/
theorem ofTokens_append_words (hawaits : awaitsValue r tokens = false)
    (hws : ∀ w ∈ ws, r.readToken w = .word) :
    ofTokens r (tokens ++ ws) = (ofTokens r tokens).extend ws := by
  have h : ofTokens r (tokens ++ ([] ++ ws)) = (ofTokens r (tokens ++ [])).extend ws :=
    ofTokens_append_extend (ofTokens_of_words hws) (by simp [hawaits])
  rwa [List.append_nil] at h

/-- Behind the terminator everything joins the search term. -/
theorem ofTokens_append_terminator (tokens ws : List Text) :
    ofTokens r (tokens ++ ("--" : Text) :: ws) =
      (ofTokens r (tokens ++ [("--" : Text)])).extend ws := by
  have hlast : ofTokens r ([("--" : Text)] ++ ws) = (ofTokens r [("--" : Text)]).extend ws := rfl
  exact ofTokens_append_extend hlast fun _ => ⟨_, _, rfl, rfl⟩

theorem occurrences_extend (s : Scan) (ws : List Text) :
    (s.extend ws).occurrences = s.occurrences := by
  obtain ⟨items, fault⟩ := s
  cases fault with
  | none => simp [extend, occurrences]
  | some f => rfl

theorem words_extend {s : Scan} (h : s.fault = none) (ws : List Text) :
    (s.extend ws).words = s.words ++ ws := by
  obtain ⟨items, fault⟩ := s
  cases h
  simp [extend, words, List.filterMap_map]

theorem fault_extend (s : Scan) (ws : List Text) : (s.extend ws).fault = s.fault := by
  obtain ⟨items, fault⟩ := s
  cases fault <;> rfl

end Scan

namespace Options

/-- The options of a query with more words in its search term. -/
def withWords (o : Options) (ws : List Text) : Options :=
  ⟨o.given, Text.joinNonempty " " o.searchTerm (Text.join " " ws)⟩

theorem withWords_of_searchTerm {o : Options} (h : o.searchTerm = []) (ws : List Text) :
    o.withWords ws = ⟨o.given, Text.join " " ws⟩ := by
  unfold withWords
  rw [h, Text.joinNonempty_nil_left]

theorem ofScan_extend {s : Scan} {ws : List Text} (hs : ∀ w ∈ s.words, Text.IsWord w)
    (hws : ∀ w ∈ ws, Text.IsWord w) :
    ofScan (s.extend ws) = (ofScan s).map fun o => o.withWords ws := by
  unfold ofScan
  rw [Scan.occurrences_extend, Scan.fault_extend]
  cases Given.ofOccurrences s.occurrences with
  | error f => rfl
  | ok given =>
    cases hfault : s.fault with
    | some f => rfl
    | none =>
      rw [Scan.words_extend hfault, Text.trim_join_append hs hws, Text.trim_join hws]
      rfl

theorem ofScan_ofTokens {r : Registry} {tokens : List Text} (h : tokens.length ≤ maxElements) :
    ofTokens r tokens = ofScan (Scan.ofTokens r tokens) := by
  unfold ofTokens
  rw [if_neg (by omega)]

/-- Behind flags, the words of a text join the search term. -/
theorem read_append_words {flags text : Text}
    (hawaits : Scan.awaitsValue .standard (Text.words flags) = false)
    (hlength : (Text.words flags).length + (Text.words text).length ≤ maxElements)
    (hwords : ∀ w ∈ Text.words text, Registry.standard.readToken w = .word) :
    read (flags ++ " " ++ text) = (read flags).map fun o => o.withWords (Text.words text) := by
  have hlong : (Text.words flags ++ Text.words text).length ≤ maxElements := by
    rwa [List.length_append]
  unfold read
  rw [Text.words_append_space, ofScan_ofTokens hlong, ofScan_ofTokens (by omega),
    Scan.ofTokens_append_words hawaits hwords]
  exact ofScan_extend (isWord_of_mem_words fun _ => Text.isWord_of_mem_words)
    fun _ => Text.isWord_of_mem_words

/-- Behind the terminator, the words of a text join the search term whatever they are. -/
theorem read_append_terminator (flags text : Text) :
    read (flags ++ " -- " ++ text) =
      if maxElements < (Text.words flags).length + 1 + (Text.words text).length then
        .error (.tooManyElements ((Text.words flags).length + 1 + (Text.words text).length))
      else (read (flags ++ " --")).map fun o => o.withWords (Text.words text) := by
  have hspace : Text.isBlank ' ' = true := by decide
  have hflags : Text.words (flags ++ " --") = Text.words flags ++ [("--" : Text)] :=
    Text.words_append_cons hspace flags "--"
  have hquery : Text.words (flags ++ " -- " ++ text) =
      Text.words flags ++ ("--" : Text) :: Text.words text := by
    have hsplit : flags ++ " -- " ++ text = (flags ++ " --") ++ ' ' :: text := by simp
    rw [hsplit, Text.words_append_cons hspace, hflags, List.append_assoc]
    rfl
  have hlength : (Text.words flags ++ ("--" : Text) :: Text.words text).length =
      (Text.words flags).length + 1 + (Text.words text).length := by
    rw [List.length_append, List.length_cons]
    omega
  unfold read
  rw [hquery]
  split
  next hlong =>
    unfold ofTokens
    rw [hlength, if_pos hlong]
  next hshort =>
    have hscan := Scan.ofTokens_append_terminator (r := .standard) (Text.words flags)
      (Text.words text)
    rw [ofScan_ofTokens (by omega), hscan, ← hflags, ofScan_ofTokens (by rw [hflags]; simp; omega)]
    exact ofScan_extend (isWord_of_mem_words fun _ => Text.isWord_of_mem_words)
      fun _ => Text.isWord_of_mem_words

/-- What is read in front of the terminator does not depend on the words behind it, but for their
number. -/
theorem exists_read_terminator (flags : Text) (count : Nat) :
    ∃ x : Except OptionFault Options, ∀ text, (Text.words text).length = count →
      read (flags ++ " -- " ++ text) = x.map fun o => o.withWords (Text.words text) := by
  refine ⟨if maxElements < (Text.words flags).length + 1 + count then
      .error (.tooManyElements ((Text.words flags).length + 1 + count))
    else read (flags ++ " --"), ?_⟩
  rintro text rfl
  rw [read_append_terminator]
  split <;> rfl

end Options

end Whois

import Whois.Proofs.Options.SearchWords
import Whois.Proofs.Options.Writing

/-!
Where the tokens of a query go. Before the terminator they fall into phrases, and in one way only: a
phrase is a word of the search term, or a token that names flags with the next token, if that is the
value of the last of them.
-/
namespace Whois

/-- Tokens that are read together. -/
inductive Phrase where
  | word (text : Text)
  /-- A token that names flags. The value is the next token, if it belongs to the last flag. -/
  | flags (given : List Occurrence) (token : Text) (value : Option Text)

/-- Whether a token names the given flags, by letters behind one dash or by a name behind two, where
`value` is the next token if it is the value of the last flag. -/
inductive FlagToken (r : Registry) :
    (given : List Occurrence) → (token : Text) → (value : Option Text) → Prop
  | letters {given : List Occurrence} {letters : Text} {value : Option Text}
      (h : Cluster r given letters value.toList) : FlagToken r given ('-' :: letters) value
  | name {spec : FlagSpec} {word : Text} (h : r.HasName spec word)
      (harity : spec.arity ≠ .required) : FlagToken r [⟨spec, none⟩] ('-' :: '-' :: word) none
  | nameAttached {spec : FlagSpec} {word v : Text} (h : r.HasName spec word)
      (harity : spec.arity ≠ .switch) (hv : v ≠ []) :
    FlagToken r [⟨spec, some v⟩] ('-' :: '-' :: (word ++ '=' :: v)) none
  | nameEmpty {spec : FlagSpec} {word : Text} (h : r.HasName spec word)
      (harity : spec.arity = .optional) :
    FlagToken r [⟨spec, none⟩] ('-' :: '-' :: (word ++ ['='])) none
  | nameDetached {spec : FlagSpec} {word v : Text} (h : r.HasName spec word)
      (harity : spec.arity = .required) (hv : ¬ r.namesFlag v = true) :
    FlagToken r [⟨spec, some v⟩] ('-' :: '-' :: word) (some v)

namespace Phrase

def tokens : Phrase → List Text
  | .word text => [text]
  | .flags _ token value => token :: value.toList

/-- What a phrase adds to the search term. -/
def words : Phrase → List Text
  | .word text => [text]
  | .flags _ _ _ => []

/-- The flags of a phrase, with their values. -/
def given : Phrase → List Occurrence
  | .word _ => []
  | .flags given _ _ => given

def items : Phrase → List Item
  | .word text => [.word text]
  | .flags given _ _ => given.map .flag

/-- Whether a phrase can stand in a query. A word starts with no dash, unless it is a lone one. -/
def Fits (r : Registry) : Phrase → Prop
  | .word text => text = "-" ∨ text.head? ≠ some '-'
  | .flags given token value => FlagToken r given token value

end Phrase

/-- Whether a reading, with the given value in the next token, gives these flags. -/
def Reading.Gives (given : List Occurrence) (value : Option Text) : Reading → Prop
  | .flags os => value = none ∧ os = given
  | .needsValue os spec => ∃ v, value = some v ∧ os ++ [⟨spec, some v⟩] = given
  | _ => False

variable {r : Registry} {given : List Occurrence} {token letters body : Text} {value : Option Text}

theorem Reading.Gives.of_afterFlag {o : Occurrence} {reading : Reading}
    (h : (reading.afterFlag o).Gives given value) :
    ∃ others, given = o :: others ∧ reading.Gives others value := by
  cases reading with
  | flags os =>
    obtain ⟨rfl, rfl⟩ := h
    exact ⟨os, rfl, rfl, rfl⟩
  | needsValue os spec =>
    obtain ⟨v, rfl, rfl⟩ := h
    exact ⟨_, rfl, v, rfl, rfl⟩
  | _ => cases h

section Value
variable (hvalue : ∀ v, value = some v → ¬ r.namesFlag v = true)
include hvalue

/-- Letters that are read as flags are a cluster of them. -/
theorem Cluster.of_readLetters (hne : letters ≠ [])
    (h : (r.readLetters letters).Gives given value) : Cluster r given letters value.toList := by
  induction letters generalizing given with
  | nil => exact absurd rfl hne
  | cons c rest ih =>
    unfold Registry.readLetters at h
    split at h
    next => cases h
    next spec hspec =>
      have hletter : r.HasLetter spec c := Registry.letter?_eq_some_iff.mp hspec
      cases harity : spec.arity with
      | switch =>
        rw [harity] at h
        obtain ⟨others, rfl, hrest⟩ := h.of_afterFlag
        cases rest with
        | nil =>
          obtain ⟨rfl, rfl⟩ := hrest
          exact .bare hletter (by simp [harity])
        | cons d rest => exact .cons hletter harity (ih (by simp) hrest)
      | required =>
        rw [harity] at h
        cases rest with
        | nil =>
          obtain ⟨v, rfl, rfl⟩ := h
          exact .detached hletter harity (hvalue v rfl)
        | cons d rest =>
          obtain ⟨rfl, rfl⟩ := h
          exact .attached hletter (by simp [harity]) (by simp)
      | optional =>
        rw [harity] at h
        obtain ⟨rfl, rfl⟩ := h
        cases rest with
        | nil => exact .bare hletter (by simp [harity])
        | cons d rest => exact .attached hletter (by simp [harity]) (by simp)

/-- A name that is read as a flag is one, with what follows its equals sign for a value. -/
theorem FlagToken.of_readName (h : (r.readName body).Gives given value) :
    FlagToken r given ('-' :: '-' :: body) value := by
  unfold Registry.readName at h
  cases hcut : Text.cut? '=' body with
  | none =>
    rw [hcut] at h
    dsimp only at h
    split at h
    next => cases h
    next spec hspec =>
      have hname : r.HasName spec body := Registry.name?_eq_some_iff.mp hspec
      cases harity : spec.arity with
      | switch =>
        rw [harity] at h
        obtain ⟨rfl, rfl⟩ := h
        exact .name hname (by simp [harity])
      | required =>
        rw [harity] at h
        obtain ⟨v, rfl, rfl⟩ := h
        exact .nameDetached hname harity (hvalue v rfl)
      | optional =>
        rw [harity] at h
        obtain ⟨rfl, rfl⟩ := h
        exact .name hname (by simp [harity])
  | some parts =>
    obtain ⟨word, v⟩ := parts
    obtain rfl := Text.cut?_eq_some hcut
    rw [hcut] at h
    dsimp only at h
    split at h
    next => cases h
    next spec hspec =>
      have hname : r.HasName spec word := Registry.name?_eq_some_iff.mp hspec
      cases harity : spec.arity with
      | switch =>
        rw [harity] at h
        cases h
      | required =>
        rw [harity] at h
        cases v with
        | nil => cases h
        | cons c v =>
          obtain ⟨rfl, rfl⟩ := h
          exact .nameAttached hname (by simp [harity]) (by simp)
      | optional =>
        rw [harity] at h
        obtain ⟨rfl, rfl⟩ := h
        cases v with
        | nil => exact .nameEmpty hname harity
        | cons c v => exact .nameAttached hname (by simp [harity]) (by simp)

/-- A token that is read as flags names them. -/
theorem FlagToken.of_readToken (h : (r.readToken token).Gives given value) :
    FlagToken r given token value := by
  unfold Registry.readToken at h
  split at h
  next => cases h
  next => exact .of_readName hvalue h
  next => exact .letters (.of_readLetters hvalue (by simp) h)
  next => cases h

end Value

theorem FlagToken.gives_readToken (h : FlagToken r given token value) :
    (r.readToken token).Gives given value := by
  cases h with
  | letters h =>
    rw [h.readToken]
    rcases h.readLetters with ⟨hnext, hread⟩ | ⟨os, spec, v, hnext, _, hgiven, hread⟩
    · rw [hread]
      exact ⟨by simpa using hnext, rfl⟩
    · rw [hread]
      exact ⟨v, by simpa [Option.toList_eq_singleton_iff] using hnext, hgiven.symm⟩
  | name h harity =>
    have hread := h.readToken []
    rw [List.append_nil, h.readName harity] at hread
    rw [hread]
    exact ⟨rfl, rfl⟩
  | nameAttached h harity hv =>
    rw [h.readToken, h.readName_attached harity hv]
    exact ⟨rfl, rfl⟩
  | nameEmpty h harity =>
    rw [h.readToken]
    unfold Registry.readName
    rw [Text.cut?_append_cons h.equals_not_mem]
    dsimp only
    rw [h.name?]
    simp [harity, Registry.attached?, Reading.Gives]
  | nameDetached h harity hv =>
    have hread := h.readToken []
    rw [List.append_nil, h.readName_detached harity] at hread
    rw [hread]
    exact ⟨_, rfl, rfl⟩

/-- The next token is a value only if it names no flag. -/
theorem FlagToken.not_namesFlag {v : Text} (h : FlagToken r given token (some v)) :
    ¬ r.namesFlag v = true := by
  generalize hvalue : some v = value at h
  cases h with
  | letters h =>
    subst hvalue
    rcases h.readLetters with ⟨hnext, _⟩ | ⟨os, spec, v', hnext, hv, _⟩
    · cases hnext
    · obtain rfl : v = v' := by simpa using hnext
      exact hv
  | nameDetached h harity hv =>
    cases hvalue
    exact hv
  | _ => cases hvalue

/-- What belongs to the search term does not start with a dash, or is nothing but one. -/
theorem Registry.readToken_eq_word_iff : r.readToken token = .word ↔
    token = "-" ∨ token.head? ≠ some '-' := by
  constructor
  · intro h
    unfold readToken at h
    split at h
    next => cases h
    next body _ =>
      have hadmits := r.admitsReading_readName body
      rw [h] at hadmits
      exact hadmits.elim
    next c rest _ _ =>
      have hadmits := r.admitsReading_readLetters (c :: rest)
      rw [h] at hadmits
      exact hadmits.elim
    next hletters =>
      by_cases hhead : token.head? = some '-'
      · obtain ⟨rest, rfl⟩ := List.head?_eq_some_iff.mp hhead
        cases rest with
        | nil => exact .inl rfl
        | cons c rest => exact absurd rfl (hletters c rest)
      · exact .inr hhead
  · rintro (rfl | h)
    · rfl
    · exact readToken_of_head?_ne h

def beforeTerminator (tokens : List Text) : List Text := tokens.takeWhile (· != ("--" : Text))

def afterTerminator (tokens : List Text) : List Text :=
  (tokens.dropWhile (· != ("--" : Text))).tail

/-- Whether phrases take up the tokens before the terminator and say what has been read of them. -/
structure Phrase.Cover (r : Registry) (phrases : List Phrase) (tokens : List Text) (s : Scan) :
    Prop where
  fits : ∀ p ∈ phrases, p.Fits r
  tokens_eq : phrases.flatMap Phrase.tokens = beforeTerminator tokens
  items_eq : s.items = phrases.flatMap Phrase.items ++ (afterTerminator tokens).map .word

namespace Phrase

variable {p p' : Phrase} {phrases : List Phrase} {tokens : List Text} {s : Scan}

/-- No phrase holds the terminator. -/
theorem Fits.terminator_not_mem (h : p.Fits r) : ("--" : Text) ∉ p.tokens := by
  cases p with
  | word text =>
    have hread : r.readToken text = .word := Registry.readToken_eq_word_iff.mpr h
    rw [tokens, List.mem_singleton]
    rintro rfl
    cases hread
  | flags given token value =>
    have hread := FlagToken.gives_readToken h
    rw [tokens, List.mem_cons, Option.mem_toList]
    rintro (rfl | hvalue)
    · exact hread
    · subst hvalue
      exact FlagToken.not_namesFlag h rfl

theorem Cover.cons (h : p.Fits r) (hrest : Cover r phrases tokens s) :
    Cover r (p :: phrases) (p.tokens ++ tokens) (s.after p.items) := by
  have hp : ∀ t ∈ p.tokens, (t != ("--" : Text)) = true := by
    intro t ht
    rw [bne_iff_ne]
    rintro rfl
    exact h.terminator_not_mem ht
  constructor
  case fits => exact List.forall_mem_cons.mpr ⟨h, hrest.fits⟩
  case tokens_eq =>
    unfold beforeTerminator
    rw [List.takeWhile_append_of_pos hp, List.flatMap_cons, hrest.tokens_eq]
    rfl
  case items_eq =>
    unfold afterTerminator
    rw [List.dropWhile_append_of_pos hp, List.flatMap_cons, List.append_assoc]
    exact congrArg (p.items ++ ·) hrest.items_eq

theorem Cover.words_eq (h : Cover r phrases tokens s) :
    s.words = phrases.flatMap Phrase.words ++ afterTerminator tokens := by
  have hphrase : ∀ p : Phrase, Scan.words ⟨p.items, none⟩ = p.words := by
    intro p
    cases p <;> simp [Scan.words, items, Phrase.words]
  unfold Scan.words at hphrase ⊢
  simp [h.items_eq, List.filterMap_flatMap, hphrase, List.filterMap_map]

theorem Cover.occurrences_eq (h : Cover r phrases tokens s) :
    s.occurrences = phrases.flatMap Phrase.given := by
  have hphrase : ∀ p : Phrase, Scan.occurrences ⟨p.items, none⟩ = p.given := by
    intro p
    cases p <;> simp [Scan.occurrences, items, Phrase.given]
  unfold Scan.occurrences at hphrase ⊢
  simp [h.items_eq, List.filterMap_flatMap, hphrase, List.filterMap_map]

/-- Tokens that can be read are covered by phrases. -/
theorem exists_cover (h : (Scan.ofTokens r tokens).fault = none) :
    ∃ phrases, Cover r phrases tokens (Scan.ofTokens r tokens) := by
  fun_induction Scan.ofTokens r tokens with
  | case1 => exact ⟨[], by simp, rfl, rfl⟩
  | case2 token rest hread =>
    obtain rfl : token = "--" := by
      rcases r.readToken_cases token with ⟨htoken, _⟩ | hcase | hcase
      · exact htoken
      · simp [hread] at hcase
      · simp [hread, Registry.AdmitsReading] at hcase
    exact ⟨[], by simp, rfl, rfl⟩
  | case3 token rest hread ih =>
    obtain ⟨phrases, hcover⟩ := ih h
    exact ⟨_, hcover.cons (p := .word token) (Registry.readToken_eq_word_iff.mp hread)⟩
  | case4 => cases h
  | case5 token rest given hread ih =>
    obtain ⟨phrases, hcover⟩ := ih h
    have hflags : FlagToken r given token none :=
      .of_readToken (by simp) (hread ▸ ⟨rfl, rfl⟩)
    exact ⟨_, hcover.cons (p := .flags given token none) hflags⟩
  | case6 => cases h
  | case7 => cases h
  | case8 token given spec hread v rest hnames ih =>
    obtain ⟨phrases, hcover⟩ := ih h
    have hflags : FlagToken r (given ++ [⟨spec, some v⟩]) token (some v) :=
      .of_readToken (by simpa using hnames) (hread ▸ ⟨v, rfl, rfl⟩)
    have hitems : given.map Item.flag ++ [.flag ⟨spec, some v⟩] =
        items (.flags (given ++ [⟨spec, some v⟩]) token (some v)) := by simp [items]
    rw [hitems]
    exact ⟨_, hcover.cons (p := .flags _ token (some v)) hflags⟩

/-- The first phrase is known from the tokens. -/
theorem eq_of_tokens_append_eq {rest rest' : List Text} (h : p.Fits r) (h' : p'.Fits r)
    (heq : p.tokens ++ rest = p'.tokens ++ rest') : p = p' := by
  cases p with
  | word text =>
    cases p' with
    | word text' =>
      obtain ⟨rfl, _⟩ := List.cons.inj heq
      rfl
    | flags given token value =>
      obtain ⟨rfl, _⟩ := List.cons.inj heq
      have hread := FlagToken.gives_readToken h'
      rw [Registry.readToken_eq_word_iff.mpr h] at hread
      exact hread.elim
  | flags given token value =>
    cases p' with
    | word text =>
      obtain ⟨rfl, _⟩ := List.cons.inj heq
      have hread := FlagToken.gives_readToken h
      rw [Registry.readToken_eq_word_iff.mpr h'] at hread
      exact hread.elim
    | flags given' token' value' =>
      obtain ⟨rfl, hrest⟩ := List.cons.inj heq
      have hread := FlagToken.gives_readToken h
      have hread' := FlagToken.gives_readToken h'
      generalize r.readToken token = reading at hread hread'
      cases reading with
      | flags os =>
        obtain ⟨rfl, rfl⟩ := hread
        obtain ⟨rfl, rfl⟩ := hread'
        rfl
      | needsValue os spec =>
        obtain ⟨v, rfl, rfl⟩ := hread
        obtain ⟨v', rfl, rfl⟩ := hread'
        obtain ⟨rfl, _⟩ := List.cons.inj hrest
        rfl
      | _ => exact hread.elim

/-- Tokens fall into phrases in one way only. -/
theorem eq_of_flatMap_tokens_eq {phrases' : List Phrase} (h : ∀ p ∈ phrases, p.Fits r)
    (h' : ∀ p ∈ phrases', p.Fits r)
    (heq : phrases.flatMap Phrase.tokens = phrases'.flatMap Phrase.tokens) :
    phrases = phrases' := by
  have hne : ∀ p : Phrase, p.tokens ≠ [] := fun p => by cases p <;> simp [tokens]
  induction phrases generalizing phrases' with
  | nil =>
    cases phrases' with
    | nil => rfl
    | cons p' rest' => simp [hne] at heq
  | cons p rest ih =>
    cases phrases' with
    | nil => simp [hne] at heq
    | cons p' rest' =>
      rw [List.forall_mem_cons] at h h'
      rw [List.flatMap_cons, List.flatMap_cons] at heq
      obtain rfl := eq_of_tokens_append_eq h.1 h'.1 heq
      rw [ih h.2 h'.2 (List.append_cancel_left heq)]

end Phrase

end Whois

import Whois.Toml.Draft

/-!
Values in TOML: strings on one line, whole numbers, booleans, arrays and inline tables. A reader of a
value takes the text from where the value starts, and returns the value and the text after it.
-/
namespace Whois.Toml

/-- What may stand around the parts of a line. -/
def isGap (c : Char) : Bool := c == ' ' || c == '\t'

def skipGap (t : Text) : Text := t.dropWhile isGap

/-- Skips gaps, line feeds and comments. `commented` tells whether the text starts in a comment. -/
def skipSpace (commented : Bool) : Text → Text
  | [] => []
  | c :: rest =>
    if commented then skipSpace (c != '\n') rest
    else if c = '#' then skipSpace true rest
    else if isGap c || c == '\n' then skipSpace false rest
    else c :: rest

def apostrophe : Char := Char.ofNat 39

/-- The characters that stand for themselves in a string. -/
def isPlain (c : Char) : Bool := c == '\t' || (32 ≤ c.toNat && c.toNat != 127)

/-- What a character after a backslash stands for. -/
def escape? : Char → Option Char
  | 'b' => some (Char.ofNat 8)
  | 't' => some '\t'
  | 'n' => some '\n'
  | 'f' => some (Char.ofNat 12)
  | 'r' => some '\r'
  | '"' => some '"'
  | '\\' => some '\\'
  | _ => none

/-- The character with the given hexadecimal number. -/
def codePoint? (digits : Text) : Option Char := do
  let digits ← digits.mapM Text.hexDigit?
  let n := digits.foldl (fun n d => 16 * n + d.val) 0
  if n.isValidChar then some (Char.ofNat n) else none

/-- The character before what a reader finds. -/
def before (c : Char) (found : Option (Text × Text)) : Option (Text × Text) :=
  found.map fun (t, rest) => (c :: t, rest)

/-- A string after its opening quotation mark. -/
def basicString : Text → Option (Text × Text)
  | [] => none
  | '"' :: rest => some ([], rest)
  | '\\' :: 'u' :: a :: b :: c :: d :: rest => do
    before (← codePoint? [a, b, c, d]) (basicString rest)
  | '\\' :: 'U' :: a :: b :: c :: d :: e :: f :: g :: h :: rest => do
    before (← codePoint? [a, b, c, d, e, f, g, h]) (basicString rest)
  | '\\' :: c :: rest => do before (← escape? c) (basicString rest)
  | c :: rest => if isPlain c then before c (basicString rest) else none

/-- A string after its opening apostrophe. It has no escapes. -/
def literalString : Text → Option (Text × Text)
  | [] => none
  | c :: rest =>
    if c = apostrophe then some ([], rest)
    else if isPlain c then before c (literalString rest)
    else none

def isBareKeyChar (c : Char) : Bool := c.isAlphanum || c == '_' || c == '-'

/-- A name: a bare word or a string. -/
def name : Text → Option (Text × Text)
  | [] => none
  | c :: rest =>
    if c = '"' then basicString rest
    else if c = apostrophe then literalString rest
    else
      let (word, rest) := (c :: rest).span isBareKeyChar
      if word.isEmpty then none else some (word, rest)

/-- Names with dots between them. `fuel` bounds their number. -/
def path (fuel : Nat) (t : Text) : Option (Path × Text) :=
  match fuel with
  | 0 => none
  | fuel + 1 => do
    let (first, rest) ← name t
    match skipGap rest with
    | '.' :: rest =>
      let (others, rest) ← path fuel (skipGap rest)
      some (first :: others, rest)
    | rest => some ([first], rest)

/-- A whole number that fits in 64 bits. Underscores may stand between digits. -/
def integer? (word : Text) : Option Int :=
  let digits := match word with
    | '+' :: digits => digits
    | '-' :: digits => digits
    | digits => digits
  let groups := Text.split '_' digits
  if groups.all Text.isNumeral && (digits.head? != some '0' || digits.length == 1) then
    Text.wideInteger? (word.filter (· != '_'))
  else none

/-- A value that is written as one word. -/
def word? (word : Text) : Option Setting :=
  if word = "true" then some (.boolean true)
  else if word = "false" then some (.boolean false)
  else (integer? word).map .integer

mutual

/-- A value. `fuel` bounds the number of readers that call one another. -/
def value : (fuel : Nat) → Text → Option (Setting × Text)
  | 0, _ => none
  | _ + 1, [] => none
  | fuel + 1, c :: rest =>
    if c = '"' then (basicString rest).map fun (t, rest) => (.text t, rest)
    else if c = apostrophe then (literalString rest).map fun (t, rest) => (.text t, rest)
    else if c = '[' then
      (items fuel (skipSpace false rest)).map fun (found, rest) => (.list found, rest)
    else if c = '\x7b' then
      match skipGap rest with
      | '\x7d' :: rest => some (.table [], rest)
      | rest => (entries fuel .empty rest).map fun (found, rest) => (.table found.fields, rest)
    else
      let (word, rest) := (c :: rest).span fun c => isBareKeyChar c || c == '+'
      (word? word).map fun found => (found, rest)

/-- The values of an array up to its closing bracket. A comma may follow the last. -/
def items : (fuel : Nat) → Text → Option (List Setting × Text)
  | 0, _ => none
  | _ + 1, ']' :: rest => some ([], rest)
  | fuel + 1, t => do
    let (first, rest) ← value fuel t
    match skipSpace false rest with
    | ']' :: rest => some ([first], rest)
    | ',' :: rest =>
      let (others, rest) ← items fuel (skipSpace false rest)
      some (first :: others, rest)
    | _ => none

/-- The entries of an inline table up to its closing brace, set in a draft one after the other. -/
def entries : (fuel : Nat) → Draft → Text → Option (Draft × Text)
  | 0, _, _ => none
  | fuel + 1, draft, t => do
    let (names, rest) ← path (t.length + 1) t
    match rest with
    | '=' :: rest =>
      let (found, rest) ← value fuel (skipGap rest)
      let draft ← draft.set names found
      match skipGap rest with
      | '\x7d' :: rest => some (draft, rest)
      | ',' :: rest => entries fuel draft (skipGap rest)
      | _ => none
    | _ => none

end

end Whois.Toml

import Whois.Address.Ipv4

/-!
IPv6 addresses: eight groups of up to four hexadecimal digits. One run of zero groups may be left
out and marked by `::`, and the last two groups may be written as an IPv4 address.
-/
namespace Whois

abbrev Ipv6 := Number 128

namespace Ipv6

abbrev Group := Fin 65536

def ofGroups? (groups : List Group) : Option Ipv6 :=
  if h : groups.length = 8 then
    some ⟨Positional.ofDigits groups, by simpa [h] using Positional.ofDigits_lt groups⟩
  else none

def groups (a : Ipv6) : List Group := Positional.toDigits 65536 8 a.val

/-- A group has one to four hexadecimal digits. -/
def group? (t : Text) : Option Group := do
  let digits ← t.mapM Text.hexDigit?
  if h : 1 ≤ digits.length ∧ digits.length ≤ 4 then
    some ⟨Positional.ofDigits digits,
      Nat.lt_of_lt_of_le (Positional.ofDigits_lt digits)
        (Nat.pow_le_pow_right (n := 16) (by decide) h.2)⟩
  else none

/-- What stands before and after the first `::`. -/
def cutGap? : Text → Option (Text × Text)
  | [] => none
  | c :: rest =>
    match c, rest with
    | ':', ':' :: after => some ([], after)
    | _, _ => (cutGap? rest).map fun (before, after) => (c :: before, after)

/-- The last part of an address: one group, or an IPv4 address that makes up two. -/
def lastGroups? (t : Text) : Option (List Group) :=
  match group? t with
  | some g => some [g]
  | none => (Ipv4.read? t).map fun a => Positional.toDigits 65536 2 a.val

/-- Groups separated by colons. -/
def parts? : List Text → Option (List Group)
  | [] => some []
  | [t] => lastGroups? t
  | t :: rest => do
    let g ← group? t
    let gs ← parts? rest
    some (g :: gs)

/-- The groups before a `::`, if any. -/
def front? (t : Text) : Option (List Group) :=
  if t.isEmpty then some [] else (Text.split ':' t).mapM group?

/-- The groups at the end of an address, if any. -/
def back? (t : Text) : Option (List Group) :=
  if t.isEmpty then some [] else parts? (Text.split ':' t)

/-- A `::` stands for one zero group at least. -/
def read? (t : Text) : Option Ipv6 :=
  match cutGap? t with
  | none => (back? t).bind ofGroups?
  | some (before, after) => do
    let front ← front? before
    let back ← back? after
    let given := front.length + back.length
    if given ≤ 7 then ofGroups? (front ++ List.replicate (8 - given) 0 ++ back) else none

def renderGroups (gs : List Group) : Text := Text.join ":" (gs.map fun g => Nat.toDigits 16 g.val)

/-- The number of zero groups in a row from position `i` on. -/
def zerosAt (gs : List Group) (i : Nat) : Nat := ((gs.drop i).takeWhile (· == 0)).length

/-- Where the first of the longest runs of zero groups starts. -/
def longestZeros (gs : List Group) : Nat :=
  (List.range gs.length).foldl (fun best i => if zerosAt gs best < zerosAt gs i then i else best) 0

/-- The groups in writing, with the first of the longest runs of two or more zero groups left out. -/
def compress (gs : List Group) : Text :=
  let i := longestZeros gs
  let count := zerosAt gs i
  if 2 ≤ count then renderGroups (gs.take i) ++ "::" ++ renderGroups (gs.drop (i + count))
  else renderGroups gs

/-- The IPv4 address that the block `::ffff:0.0.0.0/96` holds at this address. -/
def mapped? (a : Ipv6) : Option Ipv4 :=
  if a.val / 2 ^ 32 = 65535 then some (Fin.ofNat _ a.val) else none

def render (a : Ipv6) : Text :=
  match a.mapped? with
  | some v4 => "::ffff:" ++ v4.render
  | none => compress a.groups

end Ipv6

end Whois

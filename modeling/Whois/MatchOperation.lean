import Whois.Flag

/-!
How the hierarchy of blocks is walked from a key. Less specific blocks contain the key and more
specific ones lie in it. The first level holds the nearest such blocks only.
-/
namespace Whois

inductive MatchOperation where
  /-- The exact block if there is one, and else the first level of less specific blocks. -/
  | exactOrOneLess
  | exact
  | oneLess
  | allLess
  | oneMore
  | allMore
  deriving DecidableEq, Repr

namespace MatchOperation

/-- The operations that a flag selects. -/
def explicit : List MatchOperation := [.exact, .oneLess, .allLess, .oneMore, .allMore]

def all : List MatchOperation := .exactOrOneLess :: explicit

def flag? : MatchOperation → Option Flag
  | .exactOrOneLess => none
  | .exact => some .exact
  | .oneLess => some .oneLess
  | .allLess => some .allLess
  | .oneMore => some .oneMore
  | .allMore => some .allMore

def isMoreSpecific : MatchOperation → Bool
  | .oneMore | .allMore => true
  | _ => false

/-- An operation as the log shows it. -/
def label : MatchOperation → Text
  | .exactOrOneLess => "ExactOrFirstLevelLessSpecific"
  | .exact => "Exact"
  | .oneLess => "FirstLevelLessSpecific"
  | .allLess => "ExactAndAllLevelsLessSpecific"
  | .oneMore => "FirstLevelMoreSpecific"
  | .allMore => "AllLevelsMoreSpecific"

def render (op : MatchOperation) : Text :=
  match op.flag? with
  | some flag => flag.name
  | none => "exact-or-one-less"

end MatchOperation

end Whois

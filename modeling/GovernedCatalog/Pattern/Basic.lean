import GovernedCatalog.Pattern.Class

/-!
# Text patterns

A pattern describes parts of a text.  It is matched by partial derivatives: the
patterns that may be left of it after one character of the text.  Patterns that
look at a position see the characters on both sides of it.
-/

namespace GovernedCatalog

/-- A condition on a position in a text. -/
inductive Look where
  | textStart
  | textEnd
  | lineStart
  | lineEnd
  | wordBoundary
  | insideWord
  | wordStart
  | wordEnd
  deriving DecidableEq, Repr

/-- Whether a condition holds between two characters, either of which is
missing at an end of the text. -/
def Look.holds (before after : Option Char) (look : Look) : Bool :=
  let wordBefore := before.any CharClass.word.has
  let wordAfter := after.any CharClass.word.has
  match look with
  | textStart => before.isNone
  | textEnd => after.isNone
  | lineStart => before.all (· = '\n')
  | lineEnd => after.all (· = '\n')
  | wordBoundary => wordBefore != wordAfter
  | insideWord => wordBefore == wordAfter
  | wordStart => !wordBefore && wordAfter
  | wordEnd => wordBefore && !wordAfter

inductive Pattern where
  | empty
  | look (condition : Look)
  | one (cls : CharClass)
  | seq (first second : Pattern)
  | alt (left right : Pattern)
  | star (body : Pattern)
  deriving DecidableEq, Repr

namespace Pattern

/-- `seq` without a part that only matches the empty text. -/
def andThen : Pattern → Pattern → Pattern
  | empty, q => q
  | p, q => seq p q

def optional (p : Pattern) : Pattern := alt p empty

def plus (p : Pattern) : Pattern := andThen p (star p)

/-- Whether the pattern matches the empty text between two characters. -/
def nullable (before after : Option Char) : Pattern → Bool
  | empty => true
  | look condition => condition.holds before after
  | one _ => false
  | seq p q => nullable before after p && nullable before after q
  | alt p q => nullable before after p || nullable before after q
  | star _ => true

/-- What may remain to be matched after the character `c`. -/
def derivatives (before : Option Char) (c : Char) : Pattern → List Pattern
  | empty => []
  | look _ => []
  | one cls => if cls.has c then [empty] else []
  | seq p q =>
      let first := (derivatives before c p).map fun p' => andThen p' q
      if nullable before (some c) p then first ++ derivatives before c q
      else first
  | alt p q => derivatives before c p ++ derivatives before c q
  | star p => (derivatives before c p).map fun p' => andThen p' (star p)

/-- Whether one of the patterns matches a beginning of the text, or `p` matches
a part of it. -/
def occursAfter (p : Pattern) (before : Option Char) (pending : List Pattern) :
    List Char → Bool
  | [] => (p :: pending).any (nullable before none)
  | c :: rest =>
      let all := p :: pending
      all.any (nullable before (some c)) ||
        occursAfter p (some c) (all.flatMap (derivatives before c)).eraseDups
          rest

/-- Whether some part of the text matches. -/
def occursIn (p : Pattern) (text : String) : Bool :=
  occursAfter p none [] text.toList

end Pattern

end GovernedCatalog

import Waymark.Regex.CharSet
/-!
Regular expressions as trees.

Groups are numbered from one in the order of their opening parentheses. An expression is `involved`
when matching it needs more than one pass over the text: only then can a search give up.
-/

namespace Waymark.Regex

/-- A condition on a position of the text. -/
inductive Anchor where
  | textStart
  | textEnd
  /-- The end of the text but for ends of lines. -/
  | lastLineEnd
  | lineStart
  | lineEnd
  | wordBoundary
  | noWordBoundary
  | wordStart
  | wordEnd
deriving DecidableEq, Repr

/-- Whether an anchor looks at words. -/
def Anchor.isWordwise : Anchor → Bool
  | .wordBoundary | .noWordBoundary | .wordStart | .wordEnd => true
  | _ => false

/-- A regular expression. -/
inductive Expr where
  /-- The empty text. -/
  | empty
  /-- One character of a set. -/
  | set (chars : CharSet) (caseless : Bool)
  | anchor (anchor : Anchor)
  | seq (first second : Expr)
  /-- The first alternative is preferred. -/
  | alt (first second : Expr)
  /-- A group that captures what it matches. -/
  | group (index : Nat) (body : Expr)
  /-- From `least` to `most` times, more often preferred if greedy, less often otherwise. -/
  | loop (body : Expr) (least : Nat) (most : Option Nat) (greedy : Bool)
  /-- Matches here, or not, without consuming anything. -/
  | ahead (negated : Bool) (body : Expr)
  /-- Matches the given number of characters before here, or not. -/
  | behind (negated : Bool) (width : Nat) (body : Expr)
  /-- The preferred match of the body and no other. -/
  | atomic (body : Expr)
  /-- The text of a group once more. -/
  | backref (index : Nat) (caseless : Bool)
deriving DecidableEq, Repr

namespace Expr

/-- Whether a quantifier may follow. -/
def repeatable : Expr → Bool
  | .empty | .anchor _ | .ahead .. | .behind .. => false
  | _ => true

/-- The number of characters that every match consumes, if it is the same for all. -/
def width? : Expr → Option Nat
  | .empty | .anchor _ | .ahead .. | .behind .. => some 0
  | .set .. => some 1
  | .seq first second => do return (← first.width?) + (← second.width?)
  | .alt first second => do
      let left ← first.width?
      let right ← second.width?
      if left = right then some left else none
  | .group _ body | .atomic body => body.width?
  | .loop body least most _ => do
      let each ← body.width?
      if most = some least then some (each * least) else none
  | .backref .. => none

/-- Whether matching needs more than one pass over the text. -/
def isInvolved : Expr → Bool
  | .empty | .set .. => false
  | .anchor place => place.isWordwise
  | .seq first second | .alt first second => first.isInvolved || second.isInvolved
  | .group _ body => body.isInvolved
  | .loop body .. => body.isInvolved
  | .ahead .. | .behind .. | .atomic _ | .backref .. => true

/-- Whether the text of a group is asked for again. -/
def hasBackref : Expr → Bool
  | .empty | .set .. | .anchor _ => false
  | .seq first second | .alt first second => first.hasBackref || second.hasBackref
  | .group _ body | .loop body .. | .ahead _ body | .behind _ _ body | .atomic body =>
      body.hasBackref
  | .backref .. => true

/-- Whether every repetition allows at least as many times as it requires. -/
def loopsAreOrdered : Expr → Bool
  | .empty | .set .. | .anchor _ | .backref .. => true
  | .seq first second | .alt first second => first.loopsAreOrdered && second.loopsAreOrdered
  | .group _ body | .ahead _ body | .behind _ _ body | .atomic body => body.loopsAreOrdered
  | .loop body least most _ => most.all (least ≤ ·) && body.loopsAreOrdered

/-- The groups that capture, from left to right. -/
def groups : Expr → List Nat
  | .empty | .set .. | .anchor _ | .backref .. => []
  | .seq first second | .alt first second => first.groups ++ second.groups
  | .group index body => index :: body.groups
  | .loop body .. | .ahead _ body | .behind _ _ body | .atomic body => body.groups

/-- The alternatives of an expression. -/
def alternatives : Expr → List Expr
  | .alt first second => first.alternatives ++ [second]
  | other => [other]

/-- Expressions in a row. -/
def ofSeq : List Expr → Expr
  | [] => .empty
  | first :: rest => rest.foldl .seq first

/-- Alternatives, the earlier ones preferred. -/
def ofAlternatives : List Expr → Expr
  | [] => .empty
  | first :: rest => rest.foldl .alt first

end Expr

end Waymark.Regex

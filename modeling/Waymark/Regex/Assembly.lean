import Waymark.Regex.Token
/-!
Expressions from tokens.

Tokens are added one by one to what is open: the groups that wait for their closing parenthesis,
and in the innermost one the alternatives and items so far. Because it is a fold, reading tokens in
two parts gives the same as reading them at once.
-/

namespace Waymark.Regex

/-- What a group makes of its inside. -/
inductive Enclosure where
  | capture (index : Nat)
  | plain
  | ahead (negated : Bool)
  | behind (negated : Bool)
  | atomic
deriving DecidableEq, Repr

/-- The alternatives and items of a group so far, the last ones first. -/
structure Open where
  alternatives : List Expr
  items : List Expr
  flags : Flags
deriving Repr

/-- A group whose inside is being read, and what stands before it. -/
structure Pending where
  enclosure : Enclosure
  outer : Open
deriving Repr

/-- An expression that is being read. -/
structure Assembly where
  /-- The groups that are not closed, the innermost first. -/
  pending : List Pending
  /-- The inside of the innermost group. -/
  inner : Open
  /-- The names of the groups that capture, the last one first. -/
  names : List (Option (List Char))
  /-- Whether a group was asked for by its number. -/
  numbered : Bool
deriving Repr

namespace Open

/-- Nothing read yet. -/
def start (flags : Flags) : Open :=
  ⟨[], [], flags⟩

/-- Add an item. -/
def push (inner : Open) (item : Expr) : Open :=
  { inner with items := item :: inner.items }

/-- The items since the last bar, in a row. Empty ones leave no trace. -/
def branch (inner : Open) : Expr :=
  Expr.ofSeq (inner.items.reverse.filter (· ≠ .empty))

/-- All that has been read. -/
def expr (inner : Open) : Expr :=
  Expr.ofAlternatives (inner.branch :: inner.alternatives).reverse

end Open

/-- A look behind each of the alternatives, which may differ in width but have one each. -/
def lookBehind? (negated : Bool) (body : Expr) : Option Expr := do
  let looks ← body.alternatives.mapM fun alternative => do
    return Expr.behind negated (← alternative.width?) alternative
  return if negated then Expr.ofSeq looks else Expr.ofAlternatives looks

/-- The expression of a closed group. -/
def Enclosure.close? (body : Expr) : Enclosure → Option Expr
  | .capture index => some (.group index body)
  | .plain => some body
  | .ahead negated => some (.ahead negated body)
  | .behind negated => lookBehind? negated body
  | .atomic => some (.atomic body)

namespace Assembly

/-- Nothing read yet. -/
def start : Assembly :=
  ⟨[], .start .none, [], false⟩

/-- Groups nest less deep than this. -/
def tooDeep : Nat := 64

/-- The number of groups that capture so far. -/
def groupCount (assembly : Assembly) : Nat :=
  assembly.names.length

/-- Add an item to the innermost group. -/
def push (assembly : Assembly) (item : Expr) : Assembly :=
  { assembly with inner := assembly.inner.push item }

/-- Begin a group. -/
def enter? (assembly : Assembly) (enclosure : Enclosure) (flags : Flags) : Option Assembly :=
  if tooDeep ≤ assembly.pending.length + 1 then none
  else some { assembly with
    pending := ⟨enclosure, assembly.inner⟩ :: assembly.pending
    inner := .start flags }

/-- End the innermost group. -/
def leave? (assembly : Assembly) : Option Assembly :=
  match assembly.pending with
  | [] => none
  | ⟨enclosure, outer⟩ :: pending => do
      let item ← enclosure.close? assembly.inner.expr
      return { assembly with pending := pending, inner := outer.push item }

/-- Repeat the last item. After a possessive mark only the preferred number of times counts. -/
def repeat? (assembly : Assembly) (least : Nat) (most : Option Nat)
    (questioned possessive : Bool) : Option Assembly :=
  match assembly.inner.items with
  | [] => none
  | item :: items =>
      if item.repeatable then
        let greedy := questioned == assembly.inner.flags.swapped
        let loop := Expr.loop item least most greedy
        let loop := if possessive then .atomic loop else loop
        some { assembly with inner := { assembly.inner with items := loop :: items } }
      else none

/-- The number of the last group of a name. -/
def indexOf? (assembly : Assembly) (name : List Char) : Option Nat :=
  (assembly.names.findIdx? (· == some name)).map fun index => assembly.names.length - index

/-- Add a token. -/
def add? (assembly : Assembly) (token : Token) : Option Assembly :=
  let flags := assembly.inner.flags
  match token with
  | .set chars => some (assembly.push (.set chars flags.caseless))
  | .dot =>
      some (assembly.push (.set (if flags.dotAll then .any else .anyInLine) false))
  | .start => some (assembly.push (.anchor (if flags.multiLine then .lineStart else .textStart)))
  | .finish => some (assembly.push (.anchor (if flags.multiLine then .lineEnd else .textEnd)))
  | .anchor place => some (assembly.push (.anchor place))
  | .backref index =>
      if index ≤ assembly.groupCount then
        some { assembly.push (.backref index flags.caseless) with numbered := true }
      else none
  | .namedBackref name => do
      return assembly.push (.backref (← assembly.indexOf? name) flags.caseless)
  | .opening (.capture name) =>
      { assembly with names := name :: assembly.names }.enter?
        (.capture (assembly.groupCount + 1)) flags
  | .opening (.plain switches) => assembly.enter? .plain (flags.setAll switches)
  | .opening (.ahead negated) => assembly.enter? (.ahead negated) flags
  | .opening (.behind negated) => assembly.enter? (.behind negated) flags
  | .opening .atomic => assembly.enter? .atomic flags
  | .switches switches =>
      let inner := assembly.inner
      some { assembly with
        inner := { inner.push .empty with flags := flags.setAll switches } }
  | .closing => assembly.leave?
  | .bar =>
      let inner := assembly.inner
      some { assembly with
        inner := { inner with alternatives := inner.branch :: inner.alternatives, items := [] } }
  | .quantifier least most questioned possessive =>
      assembly.repeat? least most questioned possessive

/-- Add tokens in order. -/
def addAll? (assembly : Assembly) (tokens : List Token) : Option Assembly :=
  tokens.foldlM add? assembly

/-- The whole expression, once all groups are closed. A group cannot be asked for by its number
where another has a name. -/
def finish? (assembly : Assembly) : Option Expr :=
  if assembly.pending.isEmpty && !(assembly.numbered && assembly.names.any Option.isSome) then
    some assembly.inner.expr
  else none

end Assembly

end Waymark.Regex

namespace Waymark

/-- An expression that is ready to be searched for. -/
structure Regex where
  /-- How it is written. -/
  source : List Char
  expr : Regex.Expr
  /-- The groups that capture, in order, with the names of those that have one. -/
  names : List (Option (List Char))
deriving Repr

namespace Regex

/-- Only the last group of a name has it. -/
def lastOfName : List (Option (List Char)) → List (Option (List Char))
  | [] => []
  | name :: rest => (if rest.contains name then none else name) :: lastOfName rest

/-- Read a written expression. One that needs a single pass over the text may not have a repetition
that requires more than it allows. -/
def compile? (source : List Char) : Option Regex := do
  let tokens ← Token.ofChars? source
  let assembly ← Assembly.start.addAll? tokens
  let expr ← assembly.finish?
  if expr.isInvolved || expr.loopsAreOrdered then
    return ⟨source, expr, lastOfName assembly.names.reverse⟩
  else none

/-- The number of groups that capture. -/
def groupCount (regex : Regex) : Nat :=
  regex.names.length

end Regex

end Waymark

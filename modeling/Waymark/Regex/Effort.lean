import Waymark.Regex.Outcomes
/-!
How much trying a search takes.

An involved expression is searched for by trying one way after another, and gives up after a set
number of ways that came to nothing. `Expr.attempt` counts them from one position on, and
`Expr.isWithinPatience` tells whether the search gets through with them.
-/

namespace Waymark.Regex

/-- Where trying has led, with the number of further tries that are allowed. -/
inductive Effort where
  | found (left : Nat)
  | failed (left : Nat)
  /-- No more tries are allowed. -/
  | exhausted
deriving DecidableEq, Repr

namespace Effort

/-- Try another way when one came to nothing, which takes one try. -/
def orElse (first : Effort) (second : Nat → Effort) : Effort :=
  match first with
  | .failed 0 => .exhausted
  | .failed (left + 1) => second left
  | decided => decided

end Effort

/-- What is tried after an item has matched. -/
abbrev Continue := State → Nat → Effort

section Loop

variable (once : State → Nat → Continue → Effort) (greedy : Bool)

/-- Try a repetition or stop, in the order of preference. -/
def tryMore (more stop : Nat → Effort) (left : Nat) : Effort :=
  if greedy then (more left).orElse stop else (stop left).orElse more

/-- Try any number of times. A repetition that consumes nothing comes to nothing. -/
def tryAny : Nat → State → Nat → Continue → Effort
  | 0, state, left, next => next state left
  | fuel + 1, state, left, next =>
      tryMore greedy
        (fun left => once state left fun after left =>
          if after.position = state.position then .failed left else tryAny fuel after left next)
        (next state) left

/-- Try exactly the given number of times. -/
def tryExactly : Nat → State → Nat → Continue → Effort
  | 0, state, left, next => next state left
  | count + 1, state, left, next =>
      once state left fun after left => tryExactly count after left next

/-- Try at most the given number of times. -/
def tryAtMost : Nat → State → Nat → Continue → Effort
  | 0, state, left, next => next state left
  | count + 1, state, left, next =>
      tryMore greedy (fun left => once state left fun after left => tryAtMost count after left next)
        (next state) left

end Loop

namespace Expr

/-- Try the ways an expression can match from a state, each followed by what comes next. `full` tells
whether states are told apart by their groups and not by position alone. -/
def attempt (text : Array Char) (full : Bool) : Expr → State → Nat → Continue → Effort
  | .empty, state, left, next => next state left
  | .set chars caseless, state, left, next =>
      match text[state.position]? with
      | some c =>
          if chars.contains caseless c then next (state.moveTo (state.position + 1)) left
          else .failed left
      | none => .failed left
  | .anchor place, state, left, next =>
      if place.holds text state.position then next state left else .failed left
  | .seq first second, state, left, next =>
      attempt text full first state left fun after left => attempt text full second after left next
  | .alt first second, state, left, next =>
      (attempt text full first state left next).orElse fun left => attempt text full second state left next
  | .group index body, state, left, next =>
      attempt text full body state left fun after left => next (after.capture index state.position) left
  | .loop body least most greedy, state, left, next =>
      let once := attempt text full body
      match most with
      | some most =>
          let required := min least most
          tryExactly once required state left fun after left =>
            tryAtMost once greedy (most - required) after left next
      | none =>
          tryExactly once least state left fun after left =>
            tryAny once greedy (text.size + 2) after left next
  | .ahead negated body, state, left, next =>
      match attempt text full body state left fun _ left => .found left, negated with
      | .found left, false | .failed left, true => next state left
      | .found left, true | .failed left, false => .failed left
      | .exhausted, _ => .exhausted
  | .behind negated width body, state, left, next =>
      let looked :=
        if width ≤ state.position then
          attempt text full body (state.moveTo (state.position - width)) left fun _ left => .found left
        else .failed left
      match looked, negated with
      | .found left, false | .failed left, true => next state left
      | .found left, true | .failed left, false => .failed left
      | .exhausted, _ => .exhausted
  | .atomic body, state, left, next =>
      match (outcomes text full body state).head? with
      | some after => next after left
      | none => .failed left
  | .backref index caseless, state, left, next =>
      match state.span? index with
      | some (low, high) =>
          if comesAgain text caseless low high state.position then
            next (state.moveTo (state.position + (high - low))) left
          else .failed left
      | none => .failed left

/-- Try the positions of a text one after another, from a given one on. -/
def attemptFrom (text : Array Char) (expr : Expr) : Nat → Nat → Nat → Effort
  | 0, _, left => .failed left
  | count + 1, position, left =>
      (expr.attempt text expr.hasBackref (.start position) left fun _ left => .found left).orElse
        (attemptFrom text expr count (position + 1))

/-- The number of tries after which a search gives up. -/
def patience : Nat := 1000000

/-- Whether a search for an expression comes to an end before it gives up. -/
def isWithinPatience (expr : Expr) (text : Array Char) : Bool :=
  if expr.isInvolved then expr.attemptFrom text (text.size + 1) 0 patience != .exhausted else true

end Expr

end Waymark.Regex

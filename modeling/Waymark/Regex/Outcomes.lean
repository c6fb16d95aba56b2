import Waymark.Regex.Expr
/-!
What an expression can match, in order of preference.

`Expr.outcomes` gives the states in which matching from a state can end. Of two outcomes at one
position only the preferred one is kept: what follows an item depends on the position alone, unless
the text of a group is asked for again. So there are never more outcomes than positions.
-/

namespace Waymark.Regex

/-- A position in the text, and where the groups that have matched so far begin and end. -/
structure State where
  position : Nat
  spans : List (Nat × Nat × Nat)
deriving DecidableEq, Repr

namespace State

/-- Before anything has matched. -/
def start (position : Nat) : State :=
  ⟨position, []⟩

/-- Where a group begins and ends. -/
def span? (state : State) (group : Nat) : Option (Nat × Nat) :=
  state.spans.lookup group

/-- Note that a group matched from a position up to here. -/
def capture (state : State) (group origin : Nat) : State :=
  { state with
    spans := (group, origin, state.position) :: state.spans.filter (·.1 != group) }

/-- The same groups at another position. -/
def moveTo (state : State) (position : Nat) : State :=
  { state with position := position }

end State

/-- The states that have been met: by position alone, as the bits of a number, or in full. -/
structure Seen where
  full : Bool
  positions : Nat
  states : List State

namespace Seen

/-- Nothing met yet. -/
def none (full : Bool) : Seen :=
  ⟨full, 0, []⟩

/-- Whether a state counts as met. -/
def has (seen : Seen) (state : State) : Bool :=
  if seen.full then seen.states.contains state else seen.positions.testBit state.position

/-- Meet a state. -/
def insert (seen : Seen) (state : State) : Seen :=
  if seen.full then { seen with states := state :: seen.states }
  else { seen with positions := seen.positions ||| 1 <<< state.position }

end Seen

/-- Outcomes that are gathered, the last one first, and the states met on the way. -/
structure Gathered where
  seen : Seen
  states : List State

namespace Gathered

/-- Nothing gathered yet. -/
def none (full : Bool) : Gathered :=
  ⟨.none full, []⟩

/-- Gather a state unless it has been met. -/
def add (gathered : Gathered) (state : State) : Gathered :=
  if gathered.seen.has state then gathered
  else ⟨gathered.seen.insert state, state :: gathered.states⟩

/-- The gathered states in order. -/
def toList (gathered : Gathered) : List State :=
  gathered.states.reverse

end Gathered

/-- The first of each of some states. -/
def distinct (full : Bool) (states : List State) : List State :=
  (states.foldl Gathered.add (.none full)).toList

section Loop

variable (once : State → List State) (full greedy : Bool)

/-- Exactly the given number of times. -/
def exactly : Nat → List State → List State
  | 0, states => states
  | count + 1, states => exactly count (distinct full (states.flatMap once))

/-- Gather a state in which a repetition has ended, and where it leads: further repetitions come
first if greedy, last otherwise. A repetition that consumed nothing, back at its `origin`, is the
last one. -/
def further : Nat → (origin : Nat) → Gathered → State → Gathered
  | 0, _, gathered, _ => gathered
  | fuel + 1, origin, gathered, state =>
      if gathered.seen.has state then gathered
      else
        let met : Gathered := { gathered with seen := gathered.seen.insert state }
        let deeper (gathered : Gathered) : Gathered :=
          if state.position = origin then gathered
          else (once state).foldl (further fuel state.position) gathered
        if greedy then
          let found := deeper met
          { found with states := state :: found.states }
        else deeper { met with states := state :: met.states }

/-- One time or more. Repetitions before the last one consume characters, so there are at most
`length` of them. -/
def oneOrMore (length : Nat) (state : State) : List State :=
  ((once state).foldl (further once greedy (length + 2) state.position) (.none full)).toList

/-- Any number of times. -/
def zeroOrMore (length : Nat) (state : State) : List State :=
  let more := oneOrMore once full greedy length state
  distinct full (if greedy then more ++ [state] else state :: more)

/-- Gather a state from which up to `count` repetitions may follow, and where they lead. There is
one set of met states for each number of repetitions left, the present one first. -/
def upTo : Nat → (List Seen × List State) → State → (List Seen × List State)
  | 0, (seen :: others, states), state =>
      if seen.has state then (seen :: others, states)
      else (seen.insert state :: others, state :: states)
  | count + 1, (seen :: others, states), state =>
      if seen.has state then (seen :: others, states)
      else
        let deeper (found : List Seen × List State) : List Seen × List State :=
          (once state).foldl (upTo count) found
        if greedy then
          let (others, states) := deeper (others, states)
          (seen.insert state :: others, state :: states)
        else
          let (others, states) := deeper (others, state :: states)
          (seen.insert state :: others, states)
  | _, found, _ => found

/-- At most the given number of times. -/
def atMost (count : Nat) (state : State) : List State :=
  distinct full
    (upTo once greedy count (List.replicate (count + 1) (.none full), []) state).2.reverse

/-- From `least` times on, up to `most` times if there is a bound. -/
def times (length least : Nat) (most : Option Nat) (state : State) : List State :=
  match most with
  | some most =>
      let required := min least most
      distinct full
        ((exactly once full required [state]).flatMap (atMost once full greedy (most - required)))
  | none =>
      match least with
      | 0 => zeroOrMore once full greedy length state
      | least + 1 =>
          distinct full
            ((exactly once full least [state]).flatMap (oneOrMore once full greedy length))

end Loop

/-- Whether an anchor holds at a position of a text. -/
def Anchor.holds (text : Array Char) (position : Nat) : Anchor → Bool
  | .textStart => position == 0
  | .textEnd => position == text.size
  | .lastLineEnd => (text.toList.drop position).all (· == '\n')
  | .lineStart => position == 0 || text[position - 1]? == some '\n'
  | .lineEnd => position == text.size || text[position]? == some '\n'
  | .wordBoundary => before != after
  | .noWordBoundary => before == after
  | .wordStart => !before && after
  | .wordEnd => before && !after
where
  /-- Whether a word comes before the position. -/
  before : Bool := position != 0 && text[position - 1]?.any Unicode.isWord
  /-- Whether a word comes after the position. -/
  after : Bool := text[position]?.any Unicode.isWord

/-- Whether the characters from one position up to another come again at a third. -/
def comesAgain (text : Array Char) (caseless : Bool) (low high position : Nat) : Bool :=
  let same (left right : Char) : Bool := if caseless then Unicode.sameButCase left right else left == right
  (List.range (high - low)).all fun offset =>
    match text[low + offset]?, text[position + offset]? with
    | some left, some right => same left right
    | _, _ => false

namespace Expr

/-- The states in which matching a text from a state can end, in order of preference. `full` tells
whether states are told apart by their groups and not by position alone. -/
def outcomes (text : Array Char) (full : Bool) : Expr → State → List State
  | .empty, state => [state]
  | .set chars caseless, state =>
      match text[state.position]? with
      | some c => if chars.contains caseless c then [state.moveTo (state.position + 1)] else []
      | none => []
  | .anchor place, state => if place.holds text state.position then [state] else []
  | .seq first second, state =>
      distinct full ((outcomes text full first state).flatMap (outcomes text full second))
  | .alt first second, state =>
      distinct full (outcomes text full first state ++ outcomes text full second state)
  | .group index body, state =>
      (outcomes text full body state).map (·.capture index state.position)
  | .loop body least most greedy, state =>
      times (outcomes text full body) full greedy text.size least most state
  | .ahead negated body, state =>
      match outcomes text full body state, negated with
      | [], true => [state]
      | found :: _, false => [found.moveTo state.position]
      | _, _ => []
  | .behind negated width body, state =>
      let found :=
        if width ≤ state.position then
          outcomes text full body (state.moveTo (state.position - width))
        else []
      match found, negated with
      | [], true => [state]
      | found :: _, false => [found.moveTo state.position]
      | _, _ => []
  | .atomic body, state => (outcomes text full body state).take 1
  | .backref index caseless, state =>
      match state.span? index with
      | some (low, high) =>
          if comesAgain text caseless low high state.position then
            [state.moveTo (state.position + (high - low))]
          else []
      | none => []

end Expr

end Waymark.Regex

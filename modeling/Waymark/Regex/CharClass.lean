import Waymark.Regex.CharSet
/-!
Classes in brackets, read into sets of characters.

The items of a class come with their escapes resolved. A class holds characters, ranges, classes of
their own in brackets, and named classes of ASCII; its parts may be joined by `&&`, `--` and `~~`,
which are applied from left to right.
-/

namespace Waymark.Regex

/-- One item of a class: a character as it stands, an escaped character, or an escaped set. -/
inductive ClassItem where
  | plain (c : Char)
  | escaped (c : Char)
  | set (set : CharSet)
deriving DecidableEq, Repr

namespace CharClass

/-- The named classes of ASCII. -/
def named : List (String × CharSet) :=
  let upper := CharSet.range 'A' 'Z'
  let lower := CharSet.range 'a' 'z'
  let digits := CharSet.range '0' '9'
  let alpha := CharSet.union lower upper
  [("alnum", .union digits alpha), ("alpha", alpha), ("ascii", .range '\x00' '\x7f'),
    ("blank", .union (.range '\t' '\t') (.range ' ' ' ')),
    ("cntrl", .union (.range '\x00' '\x1f') (.range '\x7f' '\x7f')), ("digit", digits),
    ("graph", .range '!' '~'), ("lower", lower), ("print", .range ' ' '~'),
    ("punct", .union (.range '!' '/') (.union (.range ':' '@')
      (.union (.range '[' '\x60') (.range '\x7b' '~')))),
    ("space", .union (.range '\t' '\r') (.range ' ' ' ')), ("upper", upper),
    ("word", .union (.union digits alpha) (.range '_' '_')),
    ("xdigit", .union digits (.union (.range 'a' 'f') (.range 'A' 'F')))]

/-- The plain characters at the front. -/
def plainText : List ClassItem → List Char
  | .plain c :: rest => c :: plainText rest
  | _ => []

/-- A named class after its opening bracket, `:name:]` or `:^name:]`, with its length. -/
def named? (items : List ClassItem) : Option (CharSet × Nat) :=
  let text := plainText items
  named.findSome? fun (name, set) =>
    let straight := ':' :: name.toList ++ [':', ']']
    let negated := ':' :: '^' :: name.toList ++ [':', ']']
    if straight.isPrefixOf text then some (set, straight.length)
    else if negated.isPrefixOf text then some (.complement set, negated.length)
    else none

/-- What waits for the end of a nested class or for the right side of an operation. -/
inductive Frame where
  | opened (negated : Bool) (outer : CharSet)
  | operation (operation : SetOperation) (left : CharSet)

/-- Apply the operation that waits for its right side, if one does. -/
def applyWaiting (right : CharSet) : List Frame → CharSet × List Frame
  | .operation op left :: frames => (.operation op left right, frames)
  | frames => (right, frames)

/-- What starts a class after its opening bracket: a caret that negates it, hyphens that stand for
themselves, and a closing bracket that does so if nothing precedes it. -/
def opening (items : List ClassItem) : Bool × CharSet × List ClassItem :=
  let (negated, items) := match items with
    | .plain '^' :: rest => (true, rest)
    | items => (false, items)
  let hyphens := items.takeWhile (· == .plain '-')
  let items := items.dropWhile (· == .plain '-')
  match hyphens, items with
  | [], .plain ']' :: rest => (negated, .range ']' ']', rest)
  | [], items => (negated, .empty, items)
  | _, items => (negated, .range '-' '-', items)

/-- The character of an item that stands for one. -/
def literal? : ClassItem → Option Char
  | .plain c | .escaped c => some c
  | .set _ => none

/-- The set of one item. -/
def itemSet : ClassItem → CharSet
  | .plain c | .escaped c => .range c c
  | .set set => set

/-- Read the items of a class into what has been read of it. `none` if they are not a class that
ends with its closing bracket and nothing after it. Every step takes an item, so a fuel above their
number is never used up. -/
def read : Nat → List ClassItem → CharSet → List Frame → Option CharSet
  | 0, _, _, _ => none
  | fuel + 1, items, done, frames =>
      match items with
      | [] => none
      | .plain '[' :: rest =>
          match named? rest with
          | some (set, length) => read fuel (rest.drop length) (.union done set) frames
          | none =>
              let (negated, start, rest) := opening rest
              read fuel rest start (.opened negated done :: frames)
      | .plain ']' :: rest =>
          let (set, frames) := applyWaiting done frames
          match frames, rest with
          | [.opened negated _], [] => some (.bracket negated set)
          | [.opened _ _], _ => none
          | .opened negated outer :: frames, rest =>
              read fuel rest (.union outer (.bracket negated set)) frames
          | _, _ => none
      | .plain '&' :: .plain '&' :: rest =>
          let (left, frames) := applyWaiting done frames
          read fuel rest .empty (.operation .intersection left :: frames)
      | .plain '-' :: .plain '-' :: rest =>
          let (left, frames) := applyWaiting done frames
          read fuel rest .empty (.operation .difference left :: frames)
      | .plain '~' :: .plain '~' :: rest =>
          let (left, frames) := applyWaiting done frames
          read fuel rest .empty (.operation .symmetricDifference left :: frames)
      | item :: .plain '-' :: rest =>
          match rest with
          | [] => none
          | .plain ']' :: _ | .plain '-' :: _ =>
              read fuel (.plain '-' :: rest) (.union done (itemSet item)) frames
          | high :: rest =>
              match literal? item, literal? high with
              | some low, some high =>
                  if low ≤ high then read fuel rest (.union done (.range low high)) frames
                  else none
              | _, _ => none
      | item :: rest => read fuel rest (.union done (itemSet item)) frames

/-- The set of a class, given its items after the opening bracket. -/
def ofItems? (items : List ClassItem) : Option CharSet :=
  let (negated, start, rest) := opening items
  read (items.length + 1) rest start [.opened negated .empty]

end CharClass

end Waymark.Regex

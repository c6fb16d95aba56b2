import Waymark.Pattern.Expression
import Waymark.Pattern.Params
import Waymark.Regex.Search
import Waymark.Unicode.Utf8
/-!
Matching paths against route patterns.

A `Matcher` pairs an expression with the parameters of its groups, in the order of the groups. It
is compiled from one pattern or from alternatives, or made of an expression as it is.
-/

namespace Waymark.Pattern

/-- An expression and the parameters that its groups stand for. -/
structure Matcher where
  regex : Regex
  keys : List Key
deriving Repr

/-- A match: the part of the path that matched, how many bytes precede it, and the parameters. -/
structure PathMatch where
  path : String
  index : Nat
  params : Params
deriving DecidableEq, Repr

/-- One pattern, or several of which a path has to match one. -/
inductive Pathway where
  | one (pattern : List Char)
  | alternatives (patterns : List (List Char))
deriving DecidableEq, Repr

/-- The parts of a text between the occurrences of a separator, found from left to right. -/
def splitOn (separator : List Char) : List Char → List (List Char)
  | [] => [[]]
  | c :: rest =>
      if separator.isPrefixOf (c :: rest) ∧ separator ≠ [] then
        [] :: splitOn separator ((c :: rest).drop separator.length)
      else
        match splitOn separator rest with
        | [] => [[c]]
        | part :: parts => (c :: part) :: parts
termination_by text => text.length
decreasing_by
  · rename_i h
    have := List.length_pos_iff.2 h.2
    simp only [List.length_drop, List.length_cons]
    omega
  · simp

/-- The value of a parameter from the text of its group. Repeated values are separated by the text
after and before each of them; where there is none, the text is one value. -/
def Key.value (key : Key) (text : List Char) : ParamValue :=
  if key.repeats then
    let separator := key.after ++ key.before
    if separator.isEmpty then .repeated [String.ofList text]
    else .repeated ((splitOn separator text).map String.ofList)
  else .single (String.ofList text)

namespace Matcher

/-- Read the expression of a matcher. -/
def ofExpression? (options : Options) (text : List Char) (keys : List Key) :
    Except Error Matcher :=
  match Regex.compile? (withCase options text) with
  | some regex => .ok ⟨regex, keys⟩
  | none => .error .badExpression

/-- Compile one pattern or alternatives. -/
def compile (options : Options) : Pathway → Except Error Matcher
  | .one pattern => do
      let segments ← parse pattern options
      ofExpression? options (expression segments options) (Segment.keys segments)
  | .alternatives patterns => do
      let parsed ← patterns.mapM fun pattern => parse pattern options
      ofExpression? options (Pattern.alternatives (parsed.map fun segments => expression segments options))
        (parsed.flatMap Segment.keys)

/-- The parameters of the groups of an expression. Groups without a name are numbered from zero,
apart from those with one. -/
def keysOf : List (Option (List Char)) → Nat → List Key
  | [], _ => []
  | some name :: rest, next => ⟨.named name, [], [], [], none⟩ :: keysOf rest next
  | none :: rest, next => ⟨.position next, [], [], [], none⟩ :: keysOf rest (next + 1)

/-- A matcher of an expression as it is. -/
def ofRegex (regex : Regex) : Matcher :=
  ⟨regex, keysOf regex.names 0⟩

/-- Add the parameter of a group to those of the groups before it. A name that comes again keeps
its value where the later group has none. -/
def addParam (params : Params) (key : Key) (text : Option (List Char)) : Params :=
  let name := key.name.text
  match text with
  | some text => Dict.insert params name (some (key.value text))
  | none => if params.contains name then params else Dict.insert params name none

/-- The parameters of a match. -/
def paramsOf (matcher : Matcher) (text : Array Char) (found : Regex.Match) : Params :=
  matcher.keys.zipIdx.foldl
    (fun params (key, index) => addParam params key (found.group? text (index + 1))) []

/-- Match a path. -/
def matchPath (matcher : Matcher) (path : String) : Option PathMatch :=
  let text := path.toList.toArray
  (matcher.regex.find? text).map fun found =>
    { path := String.ofList (Regex.slice text found.first found.last)
      index := Unicode.Utf8.size (text.toList.take found.first)
      params := matcher.paramsOf text found }

end Matcher

end Waymark.Pattern

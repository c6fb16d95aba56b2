import Waymark.Dict
/-!
The values of parameters by name.

A name may be held without a value: a parameter that did not take part in a match is present and
empty, which is not the same as absent.
-/

namespace Waymark.Pattern

/-- The value of a parameter: one text, or one text per repetition. -/
inductive ParamValue where
  | single (text : String)
  | repeated (texts : List String)
deriving DecidableEq, Repr

/-- Parameters by name, in name order. -/
abbrev Params := Dict (Option ParamValue)

namespace Params

/-- The value of a parameter, if it has one. -/
def value? (params : Params) (name : String) : Option ParamValue :=
  (Dict.get? params name).join

/-- The value of a parameter that has a single text. -/
def text? (params : Params) (name : String) : Option String :=
  match params.value? name with
  | some (.single text) => some text
  | _ => none

/-- Whether a parameter is present, with or without a value. -/
def contains (params : Params) (name : String) : Bool :=
  Dict.contains params name

end Params

end Waymark.Pattern

import Waymark.Json.Value
import Waymark.Pattern.Matcher
/-!
What a routes document says: the options of all patterns, and the routes.
-/

namespace Waymark.Route

open Waymark.Json

/-- The patterns of a route: one, or several of which a path has to match one. -/
inductive RoutePath where
  | one (pattern : String)
  | many (patterns : List String)
deriving DecidableEq, Repr

namespace RoutePath

/-- The patterns as one text. -/
def display : RoutePath → String
  | .one pattern => pattern
  | .many patterns => "|".intercalate patterns

/-- The patterns to be compiled. -/
def pathway : RoutePath → Pattern.Pathway
  | .one pattern => .one pattern.toList
  | .many patterns => .alternatives (patterns.map String.toList)

/-- The patterns in order. -/
def patterns : RoutePath → List String
  | .one pattern => [pattern]
  | .many patterns => patterns

end RoutePath

/-- A route without its title. -/
structure RouteSpec where
  path : RoutePath
  /-- A template; the title where there is none. -/
  name : Option String
  /-- A URL whose origin the resolved URL has to have. -/
  origin : Option String
  /-- A template of the reference to settings. -/
  settings : Option String
  /-- A template of the reference to an extender. -/
  extender : Option String
  options : Option Value
deriving Repr

/-- A route. -/
structure RouteDefinition where
  title : String
  spec : RouteSpec
deriving Repr

/-- The options of all patterns, and the routes. -/
structure RoutesConfig where
  options : Pattern.Options
  routes : List RouteDefinition
deriving Repr

/-- Standard options and no routes. -/
def RoutesConfig.standard : RoutesConfig :=
  ⟨.standard, []⟩

end Waymark.Route

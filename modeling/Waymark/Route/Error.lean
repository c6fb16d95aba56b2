import Waymark.Pattern.Error
import Waymark.Url.Host
/-!
What can be wrong with routes and their documents.
-/

namespace Waymark.Route

/-- Why something about routes fails. -/
inductive Error where
  /-- A pattern that does not compile. -/
  | pattern (cause : Pattern.Error)
  /-- A text that is not a URL. -/
  | badUrl (text : String) (cause : Url.Error)
  /-- No entry at an index. -/
  | unknownEntry (index : Nat)
  /-- A document that the loader does not deliver. -/
  | notLoaded (reference : String) (cause : String)
deriving DecidableEq, Repr

/-- The wording of an error. -/
def Error.message : Error → String
  | .pattern cause => "Invalid route pattern: " ++ cause.message
  | .badUrl text cause => "Invalid URL \x60" ++ text ++ "\x60: " ++ cause.message
  | .unknownEntry index => "No route entry at index " ++ toString index
  | .notLoaded reference _ => "Failed to load \x60" ++ reference ++ "\x60"

end Waymark.Route

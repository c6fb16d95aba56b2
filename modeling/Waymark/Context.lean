import Waymark.Registry
import Waymark.Route.Navigation
/-!
What the parts of an application share: navigation and the registry.
-/

namespace Waymark

/-- Navigation and the registry. -/
structure Context {κ : Type} (β : κ → Type) where
  navigator : Route.Navigator
  registry : Registry β

/-- A context over a route table, where nothing has happened yet. -/
def Context.start {κ : Type} {β : κ → Type} (table : Route.Table) : Context β :=
  ⟨.start table, .empty⟩

end Waymark

import Waymark.Route.Table
/-!
Navigation over a route table.

A navigator remembers where it is. Going to a route of another name means to start over there;
otherwise the documents of the route are loaded and the page is updated in place.
-/

namespace Waymark.Route

open Waymark.Json

/-- A place that a navigator has been to. -/
structure Visit where
  location : Location
  target : Target
deriving Repr

/-- What a navigation asks of the page. -/
inductive Navigation where
  /-- No route accepts the URL. -/
  | unrouted (url : String)
  /-- The route has another name than the current one. Its documents are not loaded. -/
  | reload (visit : Visit)
  /-- The route is the first one, or has the name of the current one. Its documents are loaded. -/
  | update (visit : Visit)
deriving Repr

/-- A route table and the place where navigation is. -/
structure Navigator where
  table : Table
  current : Option Visit
deriving Repr

namespace Navigator

/-- A navigator that has been nowhere. -/
def start (table : Table) : Navigator :=
  ⟨table, none⟩

/-- Whether a target has another name than the current one. -/
def leaves (navigator : Navigator) (target : Target) : Bool :=
  match navigator.current with
  | some current => current.target.name ≠ target.name
  | none => false

/-- Load a document of a target, if it has a reference to one. -/
def loadReference {σ : Type} (table : Table) (slot : Slot) (index : Nat)
    (reference : Option String) (loader : Loader σ) (source : σ) :
    Except Error (Option Value) × Table × σ :=
  match reference with
  | none => (.ok none, table, source)
  | some reference =>
      let (result, table, source) := table.load slot index reference loader source
      (result.map some, table, source)

/-- Load the documents of a target, the settings first. -/
def loadTarget {σ : Type} (table : Table) (target : Target) (loader : Loader σ) (source : σ) :
    Except Error Target × Table × σ :=
  match loadReference table .settings target.index target.settingsReference loader source with
  | (.error cause, table, source) => (.error cause, table, source)
  | (.ok settings, table, source) =>
      let target := { target with settings := settings.or target.settings }
      match loadReference table .extender target.index target.extenderReference loader source with
      | (.error cause, table, source) => (.error cause, table, source)
      | (.ok extender, table, source) =>
          (.ok { target with extender := extender.or target.extender }, table, source)

/-- Go to a URL. -/
def navigate {σ : Type} (navigator : Navigator) (url : String) (loader : Loader σ) (source : σ) :
    Except Error Navigation × Navigator × σ :=
  match navigator.table.resolve url with
  | .error cause => (.error cause, navigator, source)
  | .ok ⟨_, none⟩ => (.ok (.unrouted url), navigator, source)
  | .ok ⟨location, some target⟩ =>
      if navigator.leaves target then
        let visit : Visit := ⟨location, target⟩
        (.ok (.reload visit), { navigator with current := some visit }, source)
      else
        match loadTarget navigator.table target loader source with
        | (.error cause, table, source) => (.error cause, { navigator with table }, source)
        | (.ok target, table, source) =>
            let visit : Visit := ⟨location, target⟩
            (.ok (.update visit), ⟨table, some visit⟩, source)

end Navigator

end Waymark.Route

import Waymark.Route.Config
import Waymark.Route.Error
import Waymark.Route.Template
import Waymark.Url.Form
import Waymark.Url.Origin
/-!
The route table: routes in the order in which they give way to one another.

A URL goes to the last entry that accepts it. Appended routes come before the prepended ones, so a
prepended route is asked first, and of two routes added alike the later one.

An entry keeps the documents that were loaded for it, each with the reference it was loaded from.
-/

namespace Waymark.Route

open Waymark.Json

/-- A document and the reference it was loaded from. -/
structure Loaded where
  reference : String
  document : Value
deriving Repr

/-- The documents of a route. -/
inductive Slot where
  | settings
  | extender
deriving DecidableEq, Repr

/-- A route in the table. -/
structure Entry where
  route : RouteDefinition
  matcher : Pattern.Matcher
  origin : Url.OriginRule
  settings : Option Loaded
  extender : Option Loaded
deriving Repr

namespace Entry

/-- Read a route. Its patterns are looked at before its origin. -/
def ofRoute (options : Pattern.Options) (route : RouteDefinition) : Except Error Entry := do
  let matcher ← (Pattern.Matcher.compile options route.spec.path.pathway).mapError .pattern
  let origin ← match route.spec.origin with
    | none => pure .any
    | some text =>
        match Url.parse text with
        | .ok url => pure (.only url.origin?)
        | .error cause => throw (.badUrl text cause)
  return ⟨route, matcher, origin, none, none⟩

/-- What has been loaded into a slot. -/
def loaded? (entry : Entry) : Slot → Option Loaded
  | .settings => entry.settings
  | .extender => entry.extender

/-- Put a document into a slot. -/
def store (entry : Entry) (slot : Slot) (loaded : Loaded) : Entry :=
  match slot with
  | .settings => { entry with settings := some loaded }
  | .extender => { entry with extender := some loaded }

@[simp] theorem loaded?_store_self (entry : Entry) (slot : Slot) (loaded : Loaded) :
    (entry.store slot loaded).loaded? slot = some loaded := by
  cases slot <;> rfl

theorem loaded?_store_of_ne (entry : Entry) {slot other : Slot} (loaded : Loaded)
    (hne : slot ≠ other) : (entry.store slot loaded).loaded? other = entry.loaded? other := by
  cases slot <;> cases other <;> first | rfl | exact absurd rfl hne

/-- The template of the reference of a slot. -/
def template? (entry : Entry) : Slot → Option String
  | .settings => entry.route.spec.settings
  | .extender => entry.route.spec.extender

/-- The parameters of a URL if an entry accepts it. -/
def accept? (entry : Entry) (url : Url) : Option Pattern.Params :=
  if entry.origin.accepts url then (entry.matcher.matchPath url.path).map (·.params) else none

end Entry

/-- A URL as it was given, its path and its query. -/
structure Location where
  url : String
  path : String
  query : String
  fields : Dict String
deriving DecidableEq, Repr

/-- The entry that a URL goes to, with the parameters put into its templates. -/
structure Target where
  index : Nat
  title : String
  name : String
  params : Pattern.Params
  settingsReference : Option String
  extenderReference : Option String
  options : Option Value
  settings : Option Value
  extender : Option Value
deriving Repr

/-- Where a URL leads. -/
structure Resolution where
  location : Location
  target : Option Target
deriving Repr

/-- What a URL says by itself. -/
def Location.ofUrl (text : String) (url : Url) : Location :=
  let query := url.query.getD ""
  ⟨text, url.path, query, Url.Form.fields query⟩

/-- What an entry says of the parameters of a URL. A route without a name goes by its title. -/
def Target.ofEntry (index : Nat) (entry : Entry) (params : Pattern.Params) : Target where
  index := index
  title := entry.route.title
  name := match entry.route.spec.name with
    | some name => interpolate name params
    | none => entry.route.title
  params := params
  settingsReference := (entry.template? .settings).map fun template => interpolate template params
  extenderReference := (entry.template? .extender).map fun template => interpolate template params
  options := entry.route.spec.options
  settings := (entry.loaded? .settings).map (·.document)
  extender := (entry.loaded? .extender).map (·.document)

/-- Routes in table order. The last `prepended` of them were prepended. -/
structure Table where
  options : Pattern.Options
  entries : List Entry
  prepended : Nat
deriving Repr

/-- Where documents come from. A loader may answer the same reference differently at each call. -/
abbrev Loader (σ : Type) := String → σ → Except String Value × σ

namespace Table

/-- A table without routes. -/
def empty (options : Pattern.Options) : Table :=
  ⟨options, [], 0⟩

/-- The index at which a new route comes to stand. -/
def position (table : Table) (prepend : Bool) : Nat :=
  if prepend then table.entries.length else table.entries.length - table.prepended

/-- Add a route, in front of those that were prepended unless it is prepended itself. Gives its
index. -/
def add (table : Table) (route : RouteDefinition) (prepend : Bool) : Except Error (Nat × Table) := do
  let entry ← Entry.ofRoute table.options route
  let index := table.position prepend
  return (index,
    { table with
      entries := table.entries.insertIdx index entry
      prepended := if prepend then table.prepended + 1 else table.prepended })

/-- The table of a routes document. -/
def ofConfig (config : RoutesConfig) : Except Error Table :=
  config.routes.foldlM (fun table route => (·.2) <$> table.add route false) (empty config.options)

/-- The last entry that accepts a URL, with its index and the parameters. -/
def find? (table : Table) (url : Url) : Option (Nat × Entry × Pattern.Params) :=
  table.entries.zipIdx.reverse.findSome? fun (entry, index) =>
    (entry.accept? url).map fun params => (index, entry, params)

/-- Resolve a URL. A URL that no entry accepts leads nowhere, which is no error. -/
def resolve (table : Table) (text : String) : Except Error Resolution := do
  let url ← (Url.parseRelative text).mapError (.badUrl text)
  let target := (table.find? url).map fun (index, entry, params) => Target.ofEntry index entry params
  return ⟨.ofUrl text url, target⟩

/-- A document of an entry. The loader is asked unless the document held was loaded from the same
reference; if it fails, what is held stays. -/
def load {σ : Type} (table : Table) (slot : Slot) (index : Nat) (reference : String)
    (loader : Loader σ) (source : σ) : Except Error Value × Table × σ :=
  match table.entries[index]? with
  | none => (.error (.unknownEntry index), table, source)
  | some entry =>
      let ask :=
        match loader reference source with
        | (.ok document, source) =>
            let entries := table.entries.set index (entry.store slot ⟨reference, document⟩)
            (.ok document, { table with entries }, source)
        | (.error cause, source) => (.error (.notLoaded reference cause), table, source)
      match entry.loaded? slot with
      | some loaded =>
          if loaded.reference = reference then (.ok loaded.document, table, source) else ask
      | none => ask

end Table

end Waymark.Route

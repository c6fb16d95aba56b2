import Waymark.Proofs.Json.Decoding
import Waymark.Schema.Routes
import Waymark.Schema.Stores
/-!
Settings that have been written are read back.

Whatever a settings document was like, its settings are written with all fields, in key order and
with null for what is absent. Read as a document of the same type, this gives the settings again.
-/

namespace Waymark.Schema

open Waymark.Json Waymark.Json.Decoder

namespace Options

/-- The fields of written options. -/
def written (options : Pattern.Options) : List (String × Value) :=
  [("delimiter", .string (String.ofList options.delimiter)), ("end", .bool options.atEnd),
    ("ends_with", .string (String.ofList options.endsWith)),
    ("prefixes", .string (String.ofList options.prefixes)),
    ("sensitive", .bool options.sensitive), ("start", .bool options.atStart),
    ("strict", .bool options.strict)]

theorem toValue_eq (options : Pattern.Options) : toValue options = .object (written options) := by
  simp only [toValue, written, Dict.ofList, Dict.insert, List.foldl_cons, List.foldl_nil,
    String.reduceLT, String.reduceEq, ↓reduceIte]

theorem folds_written (options : Pattern.Options) :
    Folds field .standard (written options) options := by
  have hfolds : Folds field .standard (written options)
      { options with
        delimiter := (String.ofList options.delimiter).toList
        endsWith := (String.ofList options.endsWith).toList
        prefixes := (String.ofList options.prefixes).toList } :=
    .cons ((reads_string _).map _) <| .cons ((reads_bool _).map _) <|
      .cons ((reads_string _).map _) <| .cons ((reads_string _).map _) <|
      .cons ((reads_bool _).map _) <| .cons ((reads_bool _).map _) <|
      .cons ((reads_bool _).map _) .nil
  simpa only [String.toList_ofList] using hfolds

theorem reads_decoder (options : Pattern.Options) :
    decoder.Reads (toValue options).events options := by
  rw [toValue_eq]
  exact (folds_written options).record (by simp [written, names]) (by simp [written])

end Options

namespace Stores

open Waymark.Store

theorem reads_choice {α : Type} {named : String → Option α} {name : String} {value : α}
    (h : named name = some value) : (choice named).Reads [.atom (.string name)] value := by
  refine .next ?_
  dsimp only
  rw [h]
  exact reads_pure value

theorem ofLabel?_dispatch (dispatch : Dispatch) :
    Dispatch.ofLabel? dispatch.label = some dispatch := by
  cases dispatch <;> rfl

theorem ofLabel?_bindingMode (mode : BindingMode) :
    BindingMode.ofLabel? mode.label = some mode := by
  cases mode <;> rfl

theorem reads_observable (config : ObservableConfig) :
    observable.Reads (observableToValue config).events config := by
  have hfolds : Folds observableField .standard
      [("dispatch", .string config.dispatch.label), ("muted", .bool config.muted)] config :=
    .cons ((reads_choice (ofLabel?_dispatch config.dispatch)).map _) <|
      .cons ((reads_bool config.muted).map _) .nil
  exact hfolds.record (by simp) (by simp)

theorem reads_bindable (mode : BindingMode) :
    bindable.Reads (bindableToValue mode).events mode := by
  have hfolds : Folds bindableField .twoWay [("mode", .string mode.label)] mode :=
    .cons (reads_choice (ofLabel?_bindingMode mode)) .nil
  exact hfolds.record (by simp) (by simp)

end Stores

namespace Params

variable {α : Type} {one : String → α} {many : List String → α}

theorem reads_textOrTexts_single (text : String) :
    (textOrTexts one many).Reads (Value.string text).events (one text) :=
  (reads_buffered (.string text)).bind_nil (reads_pure (one text))

theorem reads_textOrTexts_list (texts : List String) :
    (textOrTexts one many).Reads (Value.array (texts.map .string)).events (many texts) := by
  refine (reads_buffered (.array (texts.map .string))).bind_nil ?_
  have hlist : (list string).Reads (Value.array (texts.map .string)).events texts :=
    reads_list fun text _ => reads_string text
  split
  · next h => exact absurd (List.cons.inj h).1 nofun
  · exact hlist.within.map many

theorem reads_paramValue (value : Option Pattern.ParamValue) :
    paramValue.Reads (valueToValue value).events value := by
  match value with
  | none => exact reads_optional_null _
  | some (.single text) => exact (reads_textOrTexts_single text).optional nofun
  | some (.repeated texts) => exact (reads_textOrTexts_list texts).optional nofun

theorem folds_param {done params : Pattern.Params} (h : Dict.Sorted (done ++ params)) :
    Folds param done (params.map fun (name, value) => (name, valueToValue value))
      (done ++ params) := by
  induction params generalizing done with
  | nil =>
      rw [List.append_nil]
      exact .nil
  | cons entry params ih =>
      obtain ⟨name, value⟩ := entry
      have hbefore : ∀ entry ∈ done, entry.1 < name := fun entry hentry =>
        (List.pairwise_append.1 h).2.2 entry hentry _ List.mem_cons_self
      have hnext : done ++ (name, value) :: params = Dict.insert done name value ++ params := by
        rw [Dict.insert_of_forall_lt hbefore, List.append_assoc, List.singleton_append]
      rw [hnext] at h ⊢
      exact .cons ((reads_paramValue value).map _) (ih h)

theorem reads_decoder {params : Pattern.Params} (h : Dict.Sorted params) :
    decoder.Reads (toValue params).events params :=
  .next (@folds_param [] params h).reads

end Params

namespace Routes

theorem reads_path (path : Route.RoutePath) : Routes.path.Reads (pathToValue path).events path := by
  cases path with
  | one pattern => exact Params.reads_textOrTexts_single pattern
  | many patterns => exact Params.reads_textOrTexts_list patterns

theorem reads_text (text : Option String) :
    (optional string).Reads (textToValue text).events text := by
  cases text with
  | none => exact reads_optional_null string
  | some text => exact (reads_string text).optional nofun

section Fields

variable {α : Type} {taken : Buffered} {name : String} {value : Value} {decoder : Decoder α}
  {result : α}

theorem reads_field? (htaken : taken.filter (·.1 == name) = [(name, value.events)])
    (h : decoder.Reads value.events result) :
    (field? taken name decoder).Reads [] (some result) := by
  rw [field?, htaken]
  exact h.within.map some

theorem reads_text? {text : Option String}
    (htaken : taken.filter (·.1 == name) = [(name, (textToValue text).events)]) :
    (text? taken name).Reads [] text :=
  (reads_field? htaken (reads_text text)).map Option.join

theorem reads_titled (hname : name ≠ "title") (title : Option String) (taken : Buffered)
    (value : Value) :
    (titled name (title, taken)).Reads value.events (title, taken ++ [(name, value.events)]) := by
  rw [titled, if_neg (by simpa using hname)]
  exact ((reads_buffered value).map _).map _

end Fields

/-- The fields of a written route. -/
def written (route : Route.RouteDefinition) : List (String × Value) :=
  [("extender", textToValue route.spec.extender), ("name", textToValue route.spec.name),
    ("options", Value.ofOption route.spec.options), ("origin", textToValue route.spec.origin),
    ("path", pathToValue route.spec.path), ("settings", textToValue route.spec.settings),
    ("title", .string route.title)]

theorem definitionToValue_eq (route : Route.RouteDefinition) :
    definitionToValue route = .object (written route) := by
  simp only [definitionToValue, written, Dict.ofList, Dict.insert, List.foldl_cons, List.foldl_nil,
    String.reduceLT, String.reduceEq, ↓reduceIte]

/-- What a route says of its own is a document in order, and not null. -/
def Settled (route : Route.RouteDefinition) : Prop :=
  ∀ value, route.spec.options = some value → value ≠ .null ∧ value.Ordered

theorem reads_options {value : Option Value}
    (h : ∀ found, value = some found → found ≠ .null ∧ found.Ordered) :
    (optional Decoder.value).Reads (Value.ofOption value).events value := by
  cases value with
  | none => exact reads_optional_null _
  | some found =>
      obtain ⟨hnull, hordered⟩ := h found rfl
      have hread := reads_value found
      rw [Value.normal_eq_self hordered] at hread
      exact hread.optional_of_ne hnull

/-- The fields of a written route that are taken before its specification is read. -/
def taken (spec : Route.RouteSpec) : Buffered :=
  [("extender", (textToValue spec.extender).events), ("name", (textToValue spec.name).events),
    ("options", (Value.ofOption spec.options).events),
    ("origin", (textToValue spec.origin).events), ("path", (pathToValue spec.path).events),
    ("settings", (textToValue spec.settings).events)]

theorem reads_specOf {route : Route.RouteDefinition} (h : Settled route) :
    (specOf (taken route.spec)).Reads [] route.spec := by
  have hpath := @reads_field? _ (taken route.spec) "path" _ _ _ (by simp [taken])
    (reads_path route.spec.path)
  have hname := @reads_text? (taken route.spec) "name" route.spec.name (by simp [taken])
  have horigin := @reads_text? (taken route.spec) "origin" route.spec.origin (by simp [taken])
  have hsettings := @reads_text? (taken route.spec) "settings" route.spec.settings
    (by simp [taken])
  have hextender := @reads_text? (taken route.spec) "extender" route.spec.extender
    (by simp [taken])
  have hoptions := @reads_field? _ (taken route.spec) "options" _ _ _ (by simp [taken])
    (reads_options h)
  exact hpath.bind_nil <| hname.bind_nil <| horigin.bind_nil <| hsettings.bind_nil <|
    hextender.bind_nil <| hoptions.bind_nil (reads_pure route.spec)

theorem folds_written (route : Route.RouteDefinition) :
    Folds titled (none, []) (written route) (some route.title, taken route.spec) :=
  .cons (reads_titled (by decide) none _ _) <| .cons (reads_titled (by decide) none _ _) <|
    .cons (reads_titled (by decide) none _ _) <| .cons (reads_titled (by decide) none _ _) <|
    .cons (reads_titled (by decide) none _ _) <| .cons (reads_titled (by decide) none _ _) <|
    .cons ((reads_string route.title).map _) .nil

theorem reads_definition {route : Route.RouteDefinition} (h : Settled route) :
    definition.Reads (definitionToValue route).events route := by
  rw [definitionToValue_eq, Value.events, List.cons_append]
  exact .next ((folds_written route).reads.bind_nil ((reads_specOf h).map _))

theorem toValue_eq (config : Route.RoutesConfig) :
    toValue config = .object
      [("options", Options.toValue config.options),
        ("routes", .array (config.routes.map definitionToValue))] := by
  simp only [toValue, Dict.ofList, Dict.insert, List.foldl_cons, List.foldl_nil, String.reduceLT,
    String.reduceEq, ↓reduceIte]

theorem reads_decoder {config : Route.RoutesConfig} (h : ∀ route ∈ config.routes, Settled route) :
    decoder.Reads (toValue config).events config := by
  have hfolds : Folds configField .standard
      [("options", Options.toValue config.options),
        ("routes", .array (config.routes.map definitionToValue))] config :=
    .cons ((Options.reads_decoder config.options).map _) <|
      .cons ((reads_list fun route hroute => reads_definition (h route hroute)).map _) .nil
  rw [toValue_eq]
  exact hfolds.record (by simp) (by simp)

end Routes

end Waymark.Schema

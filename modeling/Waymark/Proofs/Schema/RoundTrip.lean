import Waymark.Proofs.Json.Writing
import Waymark.Proofs.Schema.Accepting
import Waymark.Proofs.Schema.Reading
/-!
Settings that were read, written and read again.

What is accepted as settings of any type is accepted again once the settings have been written with
all fields, and gives the same settings. Only the text of a number with a fraction or an exponent may
be read as another number.
-/

namespace Waymark.Schema

open Waymark.Json Waymark.Json.Decoder

variable {room : Nat}

section Room

variable {kind : Number → Prop}

theorem Options.fits_toValue (options : Pattern.Options) :
    (Options.toValue options).Fits kind (room + 1) := by
  rw [Options.toValue_eq]
  refine .object fun field hfield => ?_
  simp only [Options.written, List.mem_cons, List.not_mem_nil, or_false] at hfield
  rcases hfield with rfl | rfl | rfl | rfl | rfl | rfl | rfl
  · exact .string _
  · exact .bool _
  · exact .string _
  · exact .string _
  · exact .bool _
  · exact .bool _
  · exact .bool _

theorem Stores.fits_observableToValue (config : Store.ObservableConfig) :
    (Stores.observableToValue config).Fits kind (room + 1) :=
  .object (List.forall_mem_cons.2 ⟨.string _, List.forall_mem_singleton.2 (.bool _)⟩)

theorem Stores.fits_bindableToValue (mode : Store.BindingMode) :
    (Stores.bindableToValue mode).Fits kind (room + 1) :=
  .object (List.forall_mem_singleton.2 (.string _))

theorem fits_strings (texts : List String) :
    (Value.array (texts.map .string)).Fits kind (room + 1) := by
  refine .array fun item hitem => ?_
  obtain ⟨text, -, rfl⟩ := List.mem_map.1 hitem
  exact .string text

theorem Params.fits_toValue (params : Pattern.Params) :
    (Params.toValue params).Fits kind (room + 2) := by
  refine .object fun field hfield => ?_
  obtain ⟨⟨name, value⟩, -, rfl⟩ := List.mem_map.1 hfield
  match value with
  | none => exact .null
  | some (.single text) => exact .string text
  | some (.repeated texts) => exact fits_strings texts

namespace Routes

theorem fits_pathToValue (path : Route.RoutePath) :
    (pathToValue path).Fits kind (room + 1) := by
  cases path with
  | one pattern => exact .string pattern
  | many patterns => exact fits_strings patterns

theorem fits_textToValue (text : Option String) : (textToValue text).Fits kind room := by
  cases text with
  | none => exact .null
  | some text => exact .string text

/-- A written route nests one deeper than its options, and lists its patterns. -/
theorem fits_definitionToValue {route : Route.RouteDefinition}
    (h : ∀ value, route.spec.options = some value → value.Fits kind (room + 1)) :
    (definitionToValue route).Fits kind (room + 2) := by
  have hoptions : (Value.ofOption route.spec.options).Fits kind (room + 1) := by
    cases hfound : route.spec.options with
    | none => exact .null
    | some value => exact h value hfound
  rw [definitionToValue_eq]
  refine .object fun field hfield => ?_
  simp only [written, List.mem_cons, List.not_mem_nil, or_false] at hfield
  rcases hfield with rfl | rfl | rfl | rfl | rfl | rfl | rfl
  · exact fits_textToValue _
  · exact fits_textToValue _
  · exact hoptions
  · exact fits_textToValue _
  · exact fits_pathToValue _
  · exact fits_textToValue _
  · exact .string _

/-- A written routes document nests three deeper than the options of its routes. -/
theorem fits_toValue {config : Route.RoutesConfig}
    (h : ∀ route ∈ config.routes, ∀ value, route.spec.options = some value →
      value.Fits kind (room + 1)) : (toValue config).Fits kind (room + 4) := by
  rw [toValue_eq]
  refine .object (List.forall_mem_cons.2 ⟨Options.fits_toValue config.options, ?_⟩)
  refine List.forall_mem_singleton.2 (.array fun item hitem => ?_)
  obtain ⟨route, hroute, rfl⟩ := List.mem_map.1 hitem
  exact fits_definitionToValue (h route hroute)

end Routes

end Room

section RoundTrip

variable {α : Type} {decoder : Decoder α} {good : α → Prop} {text : List Char} {document : Value}
  {value : α}

/-- What is read from a text is what the decoder makes of some document. -/
theorem good_of_decode (htakes : decoder.Takes Scan.deepest good)
    (h : decoder.decode (scan text) = .ok value) : good value := by
  obtain ⟨hending, rest, hgives⟩ := decode_eq_ok_iff.1 h
  obtain ⟨document, hfits, hscan⟩ := exists_of_scan hending
  rw [hscan, Events.ofValue, ← List.append_nil document.events] at hgives
  exact (htakes document hfits _ [] value rest hgives).2

/-- A document reads as a value, at hand and from its text. -/
def ReadsAs (decoder : Decoder α) (document : Value) (value : α) : Prop :=
  decoder.decode (.ofValue document) = .ok value ∧
    decoder.decode (scan document.render.toList) = .ok value

theorem decode_render (h : decoder.Reads document.events value)
    (hfits : document.Fits Number.ReadsBack Scan.deepest) :
    decoder.decode (scan document.render.toList) = .ok value := by
  rw [Value.render, String.toList_ofList, scan_chars hfits]
  exact h.decode

theorem readsAs (h : decoder.Reads document.events value)
    (hfits : document.Fits Number.ReadsBack Scan.deepest) : ReadsAs decoder document value :=
  ⟨h.decode, decode_render h hfits⟩

theorem Options.readsAs (options : Pattern.Options) :
    ReadsAs Options.decoder (Options.toValue options) options :=
  Schema.readsAs (Options.reads_decoder options) (Options.fits_toValue options)

theorem Stores.readsAs_observable (config : Store.ObservableConfig) :
    ReadsAs Stores.observable (Stores.observableToValue config) config :=
  readsAs (Stores.reads_observable config) (Stores.fits_observableToValue config)

theorem Stores.readsAs_bindable (mode : Store.BindingMode) :
    ReadsAs Stores.bindable (Stores.bindableToValue mode) mode :=
  readsAs (Stores.reads_bindable mode) (Stores.fits_bindableToValue mode)

theorem Params.readsAs {params : Pattern.Params} (h : Dict.Sorted params) :
    ReadsAs Params.decoder (Params.toValue params) params :=
  Schema.readsAs (Params.reads_decoder h) (Params.fits_toValue params)

/-- Routes in an array in place of an object, with a name that stands twice. -/
def shorthand : String :=
  "[[true], [\x7b\"title\": \"T\", \"name\": null, \"more\": [1], \"path\": [\"/a\", \"/b\"], " ++
    "\"options\": \x7b\"b\": 1, \"a\": -7, \"b\": 2.5\x7d\x7d]]"

/-- A route with a number that is not read as the nearest one. -/
def imprecise : String :=
  "\x7b\"routes\": [\x7b\"title\": \"T\", \"path\": \"/\", \"options\": 4e-24\x7d]\x7d"

/-- The numbers in the options of routes. -/
def Routes.numbers (config : Route.RoutesConfig) : List Number :=
  config.routes.flatMap fun route => (route.spec.options.map Value.numbers).getD []

/-- Settings of any type that are accepted are written as a document that is accepted again and
reads as the same settings. From the text of the document they are read as well: for routes,
provided that the numbers in their options that are not whole are read back. -/
theorem written_settings_read_back (text : String) :
    (∀ options, Options.decoder.decode (scan text.toList) = .ok options →
      ReadsAs Options.decoder (Options.toValue options) options) ∧
    (∀ config, Stores.observable.decode (scan text.toList) = .ok config →
      ReadsAs Stores.observable (Stores.observableToValue config) config) ∧
    (∀ mode, Stores.bindable.decode (scan text.toList) = .ok mode →
      ReadsAs Stores.bindable (Stores.bindableToValue mode) mode) ∧
    (∀ params, Params.decoder.decode (scan text.toList) = .ok params →
      ReadsAs Params.decoder (Params.toValue params) params) ∧
    (∀ config, Routes.decoder.decode (scan text.toList) = .ok config →
      Routes.decoder.decode (.ofValue (Routes.toValue config)) = .ok config ∧
        ((∀ real, .real real ∈ Routes.numbers config → (Number.real real).ReadsBack) →
          Routes.decoder.decode (scan (Routes.toValue config).render.toList) = .ok config)) := by
  refine ⟨fun options _ => Options.readsAs options, fun config _ => Stores.readsAs_observable config,
    fun mode _ => Stores.readsAs_bindable mode, ?_, ?_⟩
  · intro params h
    exact Params.readsAs (good_of_decode Params.takes_decoder h)
  · intro config h
    -- three levels of the text are the document, the list and the route; the options have the rest
    have hholds := good_of_decode Routes.takes_decoder h
    have hreads : Routes.decoder.Reads (Routes.toValue config).events config :=
      Routes.reads_decoder fun route hroute value hvalue =>
        ⟨(hholds route hroute value hvalue).1, (hholds route hroute value hvalue).2.1⟩
    refine ⟨hreads.decode, fun hreal => decode_render hreads (Routes.fits_toValue ?_)⟩
    intro route hroute value hvalue
    refine (hholds route hroute value hvalue).2.2.readsBack fun real hmem => hreal real ?_
    exact List.mem_flatMap.2 ⟨route, hroute, by simpa [hvalue] using hmem⟩

/-- Documents in shapes that are not written: arrays in place of objects, fields that are left out,
an object in place of a name, and in a route a field of its own, a null and a name that stands
twice. -/
theorem settings_read_back_in_other_shapes :
    (∃ options, Options.decoder.decode (scan "[true, true]".toList) = .ok options ∧
      ReadsAs Options.decoder (Options.toValue options) options) ∧
    (∃ config, Stores.observable.decode
        (scan "\x7b\"dispatch\": \x7b\"async\": null\x7d\x7d".toList) = .ok config ∧
      ReadsAs Stores.observable (Stores.observableToValue config) config) ∧
    (∃ mode, Stores.bindable.decode (scan "[\"one-way\"]".toList) = .ok mode ∧
      ReadsAs Stores.bindable (Stores.bindableToValue mode) mode) ∧
    (∃ params, Params.decoder.decode
        (scan "\x7b\"b\": \"x\", \"a\": [\"y\"], \"b\": null\x7d".toList) = .ok params ∧
      ReadsAs Params.decoder (Params.toValue params) params) ∧
    ∃ config, Routes.decoder.decode (scan shorthand.toList) = .ok config ∧
      ReadsAs Routes.decoder (Routes.toValue config) config := by
  refine ⟨exists_ok_and (by decide +kernel) (written_settings_read_back _).1,
    exists_ok_and (by decide +kernel) (written_settings_read_back _).2.1,
    exists_ok_and (by decide +kernel) (written_settings_read_back _).2.2.1,
    exists_ok_and (by decide +kernel) (written_settings_read_back _).2.2.2.1, ?_⟩
  obtain ⟨config, hconfig, hnumbers⟩ := @exists_ok_of_any _ _
    (Routes.decoder.decode (scan shorthand.toList))
    (fun config => Routes.numbers config == [.integer (-7), .real ⟨false, 5 * 2 ^ 50, -51⟩])
    (by decide +kernel)
  obtain ⟨hdocument, htext⟩ := (written_settings_read_back _).2.2.2.2 config hconfig
  refine ⟨config, hconfig, hdocument, htext fun real hreal => ?_⟩
  rw [beq_iff_eq.1 hnumbers] at hreal
  obtain rfl : real = ⟨false, 5 * 2 ^ 50, -51⟩ := by simpa using hreal
  have hnumber : Scan.number false ['2', '.', '5'] =
      .ok (.real ⟨false, 5 * 2 ^ 50, -51⟩, []) := by decide +kernel
  refine @Scan.readsBack_of_atom '2' ['.', '5'] _ (by decide +kernel) (by decide) ?_
  rw [Scan.atom_of_isDigit (by decide), hnumber]
  rfl

/-- Reading a decimal number rounds twice, so its neighbour may be written, and read in its turn as
the neighbour of that. -/
theorem decimal_not_read_back :
    ∃ config other, Routes.decoder.decode (scan imprecise.toList) = .ok config ∧
      Routes.decoder.decode (scan (Routes.toValue config).render.toList) = .ok other ∧
      other ≠ config := by
  obtain ⟨config, hconfig, hother⟩ := @exists_ok_of_any _ _
    (Routes.decoder.decode (scan imprecise.toList))
    (fun config => (Routes.decoder.decode (scan (Routes.toValue config).chars)).toOption.any
      fun other => Routes.numbers other != Routes.numbers config) (by decide +kernel)
  obtain ⟨other, hother, hnumbers⟩ := exists_ok_of_any hother
  refine ⟨config, other, hconfig, ?_, ?_⟩
  · rw [Value.render, String.toList_ofList]
    exact hother
  · rintro rfl
    simp at hnumbers

end RoundTrip

end Waymark.Schema

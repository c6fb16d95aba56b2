import Waymark.Json.Decoder
import Waymark.Store.Config
/-!
The set-up of stores as documents.
-/

namespace Waymark.Schema

open Waymark.Json Waymark.Store

namespace Stores

/-- Read the value of a field of the set-up of a store with observers. -/
def observableField (name : String) (config : ObservableConfig) : Decoder ObservableConfig := do
  match name with
  | "dispatch" => return { config with dispatch := ← Decoder.choice Dispatch.ofLabel? }
  | "muted" => return { config with muted := ← Decoder.bool }
  | _ => Decoder.mismatch

/-- Read the set-up of a store with observers. -/
def observable : Decoder ObservableConfig :=
  Decoder.record .standard ["dispatch", "muted"] observableField

/-- Read the value of a field of the set-up of a store bound to elements. -/
def bindableField (name : String) (mode : BindingMode) : Decoder BindingMode := do
  match name with
  | "mode" => Decoder.choice BindingMode.ofLabel?
  | _ => return mode

/-- Read the set-up of a store bound to elements. -/
def bindable : Decoder BindingMode :=
  Decoder.record .twoWay ["mode"] bindableField

/-- The set-up of a store with observers as a document. -/
def observableToValue (config : ObservableConfig) : Value :=
  .object [("dispatch", .string config.dispatch.label), ("muted", .bool config.muted)]

/-- The set-up of a store bound to elements as a document. -/
def bindableToValue (mode : BindingMode) : Value :=
  .object [("mode", .string mode.label)]

end Stores

end Waymark.Schema

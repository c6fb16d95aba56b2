/-!
How stores with observers and stores bound to elements are set up.
-/

namespace Waymark.Store

/-- When the handlers of observers run. -/
inductive Dispatch where
  /-- Before the write returns, one after another. -/
  | sync
  /-- After the write has returned. -/
  | async
deriving DecidableEq, Repr

/-- The name of a dispatch. -/
def Dispatch.label : Dispatch → String
  | .sync => "sync"
  | .async => "async"

/-- The dispatch of a name. -/
def Dispatch.ofLabel? : String → Option Dispatch
  | "sync" => some .sync
  | "async" => some .async
  | _ => none

/-- How a store with observers is set up. -/
structure ObservableConfig where
  dispatch : Dispatch
  /-- Nobody is told of changes. -/
  muted : Bool
deriving DecidableEq, Repr

/-- Handlers run at once, and all are told. -/
def ObservableConfig.standard : ObservableConfig :=
  ⟨.sync, false⟩

/-- Which way values go between a store and its elements. -/
inductive BindingMode where
  /-- From the store to the elements. -/
  | oneWay
  /-- From the elements to the store. -/
  | oneWayReverse
  | twoWay
deriving DecidableEq, Repr

namespace BindingMode

/-- The name of a mode. -/
def label : BindingMode → String
  | .oneWay => "one-way"
  | .oneWayReverse => "one-way-reverse"
  | .twoWay => "two-way"

/-- The mode of a name. -/
def ofLabel? : String → Option BindingMode
  | "one-way" => some .oneWay
  | "one-way-reverse" => some .oneWayReverse
  | "two-way" => some .twoWay
  | _ => none

/-- Whether the store writes to its elements. -/
def writesElements (mode : BindingMode) : Bool :=
  mode ≠ .oneWayReverse

/-- Whether the store listens to its elements. -/
def listens (mode : BindingMode) : Bool :=
  mode ≠ .oneWay

end BindingMode

end Waymark.Store

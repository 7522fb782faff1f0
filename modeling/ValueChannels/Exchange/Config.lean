import ValueChannels.Message.Error
import ValueChannels.Text.Json
import ValueChannels.Text.Quoted

/-!
The configuration of a registry: the capacity its table starts with and the factor by
which it grows. It is read from a JSON object with the members `initial_capacity` and
`grow_factor`, or from an array of the two; what is left out has its standard value.
-/

namespace ValueChannels

structure RegistryConfig where
  initialCapacity : Nat
  growFactor : Nat
  deriving DecidableEq

namespace RegistryConfig

def standard : RegistryConfig :=
  { initialCapacity := 4, growFactor := 2 }

/-- The table needs the reserved slot and one more, and growing has to add slots. -/
def validate (config : RegistryConfig) : Except ChannelError Unit :=
  if config.initialCapacity < 2 then
    .error (.invalidConfig (.smallCapacity config.initialCapacity))
  else if config.growFactor < 2 then
    .error (.invalidConfig (.smallGrowFactor config.growFactor))
  else
    .ok ()

def inspect (config : RegistryConfig) : String :=
  Text.record "RegistryConfig"
    [("initial_capacity", toString config.initialCapacity),
      ("grow_factor", toString config.growFactor)]

/-- What the members of an object have said so far. -/
structure Draft where
  initialCapacity : Option Nat
  growFactor : Option Nat

def Draft.complete (draft : Draft) : RegistryConfig :=
  { initialCapacity := draft.initialCapacity.getD standard.initialCapacity
    growFactor := draft.growFactor.getD standard.growFactor }

/-- Reads members in order. None may come twice; other members are passed over. -/
def readMembers : List (Option String × Json) → Draft → Option Draft
  | [], draft => some draft
  | (none, _) :: _, _ => none
  | (some name, value) :: rest, draft =>
      if name = "initial_capacity" then
        match draft.initialCapacity, value.natural? with
        | none, some n => readMembers rest { draft with initialCapacity := some n }
        | _, _ => none
      else if name = "grow_factor" then
        match draft.growFactor, value.natural? with
        | none, some n => readMembers rest { draft with growFactor := some n }
        | _, _ => none
      else
        readMembers rest draft

def ofJson? : Json → Option RegistryConfig
  | .object members => (readMembers members ⟨none, none⟩).map Draft.complete
  | .array [] => some standard
  | .array [capacity] =>
      capacity.natural?.map fun n => Draft.complete ⟨some n, none⟩
  | .array [capacity, factor] =>
      match capacity.natural?, factor.natural? with
      | some n, some m => some (Draft.complete ⟨some n, some m⟩)
      | _, _ => none
  | _ => none

def ofText? (text : String) : Option RegistryConfig :=
  (Json.parse? text).bind ofJson?

end RegistryConfig

end ValueChannels

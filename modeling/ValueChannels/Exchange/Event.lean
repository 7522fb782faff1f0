import ValueChannels.Message.Error

/-!
Events tell an observer what became of each operation on channels.
-/

namespace ValueChannels

/-- One completed operation. -/
structure Event where
  operation : Operation
  handle : Option Int
  key : Option Int
  /-- The form of the message that moved. -/
  form : Option String
  ok : Bool
  deriving DecidableEq

namespace Event

def ofKey (operation : Operation) (key : Int) (handle : Option Int) : Event :=
  { operation, handle, key := some key, form := none, ok := handle.isSome }

/-- An operation on a handle. -/
def ofHandle (operation : Operation) (handle : Int) (form : Option String) (ok : Bool) : Event :=
  { operation, handle := some handle, key := none, form, ok }

end Event

end ValueChannels

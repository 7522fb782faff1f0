import ValueChannels.Text.Quoted

/-!
The interrupt flag of a context, and what its threads are waiting on. An operation is
registered under a token of its own from its start to its end, so that whoever raises the
flag knows which queues to wake.
-/

namespace ValueChannels

structure Interrupt (Target : Type) where
  raised : Bool
  nextToken : Nat
  registrations : List (Nat × Target)

namespace Interrupt

variable {Target : Type}

def idle : Interrupt Target :=
  { raised := false, nextToken := 0, registrations := [] }

/-- Raises the flag. The registered targets have to be woken. -/
def raise (interrupt : Interrupt Target) : List Target × Interrupt Target :=
  (interrupt.registrations.map Prod.snd, { interrupt with raised := true })

/-- Takes the flag down and says whether it was raised. -/
def clear (interrupt : Interrupt Target) : Bool × Interrupt Target :=
  (interrupt.raised, { interrupt with raised := false })

def register (interrupt : Interrupt Target) (target : Target) : Nat × Interrupt Target :=
  (interrupt.nextToken,
    { interrupt with
      nextToken := interrupt.nextToken + 1
      registrations := interrupt.registrations ++ [(interrupt.nextToken, target)] })

def release (interrupt : Interrupt Target) (token : Nat) : Interrupt Target :=
  { interrupt with
    registrations := interrupt.registrations.filter fun entry => entry.1 != token }

def waiters (interrupt : Interrupt Target) : Nat :=
  interrupt.registrations.length

def inspect (interrupt : Interrupt Target) : String :=
  Text.record "Interrupt"
    [("interrupted", Text.inspectBool interrupt.raised), ("waiters", toString interrupt.waiters)]

end Interrupt

end ValueChannels

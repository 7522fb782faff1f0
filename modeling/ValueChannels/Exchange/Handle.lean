import ValueChannels.Context.Basic

/-!
Handles of channels: a slot and the side it is used from. The raw form of a handle is a
signed number of 64 bits: the slot number, positive for the master and negative for the
worker, so that slot 0 has none. A slot number that is too large wraps around. Main
statements: reading a raw form and taking the raw form undo each other, the latter for all
slots that fit.
-/

namespace ValueChannels

structure Handle where
  slot : Nat
  side : Side
  deriving DecidableEq

namespace Handle

/-- The number of raw forms; they lie as near to zero as they can. -/
def rawForms : Nat := UInt64.size

/-- The slot number with the sign of the side, wrapped around into the raw forms. -/
def toRaw (handle : Handle) : Int :=
  match handle.side with
  | .master => (handle.slot : Int).bmod rawForms
  | .worker => (-(handle.slot : Int)).bmod rawForms

def ofRaw? (raw : Int) : Option Handle :=
  if raw = 0 then none
  else some { slot := raw.natAbs, side := if 0 < raw then .master else .worker }

def peer (handle : Handle) : Handle :=
  { handle with side := handle.side.other }

end Handle

def Side.name : Side → String
  | .master => "Master"
  | .worker => "Worker"

def Handle.inspect (handle : Handle) : String :=
  Text.record "ChannelHandle" [("slot", toString handle.slot), ("side", handle.side.name)]

namespace Handle

/-- No wrapping takes place for numbers of 64 bits. -/
theorem bmod_rawForms {raw : Int} (low : -rawForms ≤ 2 * raw) (high : 2 * raw < rawForms) :
    raw.bmod rawForms = raw := by
  exact Int.bmod_eq_of_le (by omega) (by omega)

theorem toRaw_of_ofRaw? {raw : Int} {handle : Handle} (low : -rawForms ≤ 2 * raw)
    (high : 2 * raw < rawForms) (found : ofRaw? raw = some handle) : handle.toRaw = raw := by
  unfold ofRaw? at found
  split at found
  · cases found
  · cases found
    by_cases positive : 0 < raw
    · have same : (raw.natAbs : Int) = raw := by omega
      simp only [toRaw, positive, if_true, same]
      exact bmod_rawForms low high
    · have same : -(raw.natAbs : Int) = raw := by omega
      simp only [toRaw, positive, if_false, same]
      exact bmod_rawForms low high

/-- The raw form of a slot that fits is its number with the sign of the side. -/
theorem toRaw_eq {handle : Handle} (small : 2 * handle.slot < rawForms) :
    handle.toRaw =
      match handle.side with
      | .master => (handle.slot : Int)
      | .worker => -(handle.slot : Int) := by
  obtain ⟨slot, side⟩ := handle
  simp only at small
  cases side with
  | master =>
      simp only [toRaw]
      exact bmod_rawForms (by omega) (by omega)
  | worker =>
      simp only [toRaw]
      exact bmod_rawForms (by omega) (by omega)

theorem ofRaw?_toRaw {handle : Handle} (used : handle.slot ≠ 0)
    (small : 2 * handle.slot < rawForms) : ofRaw? handle.toRaw = some handle := by
  rw [toRaw_eq small]
  obtain ⟨slot, side⟩ := handle
  have nonzero : ¬slot = 0 := used
  have positive : 0 < slot := Nat.pos_of_ne_zero used
  cases side with
  | master => simp [ofRaw?, nonzero, positive]
  | worker => simp [ofRaw?, nonzero]

theorem toRaw_peer {handle : Handle} (small : 2 * handle.slot < rawForms) :
    handle.peer.toRaw = -handle.toRaw := by
  have same : 2 * handle.peer.slot < rawForms := small
  rw [toRaw_eq small, toRaw_eq same]
  obtain ⟨slot, side⟩ := handle
  cases side <;> simp [peer, Side.other]

end Handle

end ValueChannels

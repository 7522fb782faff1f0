import ValueChannels.Message.ToValue
import ValueChannels.Proofs.Graph.Heads
import ValueChannels.Proofs.Transfer.Description

/-!
The construction of a value from a message. It writes only to the private copies that the message
describes and to objects that it makes itself, in the order of the message, so that what was built
for a part stays as it is. Main statements: `builds`, for every part of a message, and
`received_toValue` for whole messages.
-/

namespace ValueChannels

open Rebuilding

namespace Message

/-! ### Built values -/

/-- The attribute mapping of the value has the names of the message and these values. -/
def Installed (heap : Heap) (ref : Ref) (attributes : Option (List (String × Message)))
    (values : List Ref) : Prop :=
  heap.attributes ref = Attributes.normalize (attributes.map fun messages =>
    Attributes.ofList ((messages.map Prod.fst).zip values))

/-- Where a value of a kind is that was read from its encoded form: it is an environment that the
context owns, or new. -/
def Placed (context : Context) (before after : Heap) (kind : ValueKind) (ref : Ref) : Prop :=
  (context.environments.Owns ref ∧ kind = .environment) ∨
    (before.size ≤ ref.index ∧ ref.index < after.size ∧ after.kind ref = kind)

/-- A value is what the receiver builds from a message that was sent in another heap, from one point
of the rebuilding to another. -/
inductive Built (context : Context) (sent heap : Heap) :
    Progress → Message → Ref → Progress → Prop where
  | plain (progress : Progress) (ref : Ref) : Built context sent heap progress (.plain ref) ref progress
  | list {start filled stop : Progress} {shell : Ref} {items : List Message}
      {refs values : List Ref} {attributes : Option (List (String × Message))}
      (body : heap.body shell = .list refs)
      (elements : Threads (Built context sent heap) start items refs filled)
      (furnished : Threads (Built context sent heap) filled ((attributes.getD []).map Prod.snd) values
        stop)
      (installed : Installed heap shell attributes values) :
      Built context sent heap start (.list shell items attributes) shell stop
  | environment {start bound enclosed stop : Progress} {id : UInt32} {env : Ref}
      {bindings : List (String × Message)} {parent : Option Message} {enclosing : Option Ref}
      {attributes : Option (List (String × Message))} {contents values : List Ref}
      (new : env.index = start.size)
      (body : heap.body env = .environment
        { kind := .localEnv, bindings := ⟨(bindings.map Prod.fst).zip contents⟩
          parent := some (enclosing.getD context.environments.empty) })
      (defined : Threads (Built context sent heap) (start.enter id env) (bindings.map Prod.snd)
        contents bound)
      (around : Threads (Built context sent heap) bound parent.toList enclosing.toList enclosed)
      (furnished : Threads (Built context sent heap) enclosed ((attributes.getD []).map Prod.snd) values
        stop)
      (installed : Installed heap env attributes values) :
      Built context sent heap start (.environment id bindings parent attributes) env stop
  | reference {progress : Progress} {id : UInt32} {env : Ref}
      (found : progress.known.lookup id = some env) :
      Built context sent heap progress (.environmentRef id) env progress
  | promise {start middle stop : Progress} {ref : Ref} {env value : Option Message} {expr : Bytes}
      {delayed : Promise}
      (new : ref.index = stop.size)
      (object : heap.get ref = Object.fresh (.promise delayed))
      (rebuilt : rebuildExpr context.codec expr = .ok delayed.expr)
      (around : Threads (Built context sent heap) start env.toList delayed.env.toList middle)
      (content : Threads (Built context sent heap) middle value.toList delayed.value.toList stop) :
      Built context sent heap start (.promise env value expr) ref { stop with size := stop.size + 1 }
  | encoded {known : List (UInt32 × Ref)} {stop : Progress} {kind : ValueKind} {blob : Bytes}
      {ref : Ref} {before after : Heap} {attributes : Option (List (String × Message))}
      {values : List Ref}
      (read : context.codec.unserialize context.environments blob before = .ok ref after)
      (place : Placed context before after kind ref)
      (kept : ∀ other, before.size ≤ other.index → other.index < after.size →
        heap.body other = after.body other)
      (others : ∀ other, before.size ≤ other.index → other.index < after.size →
        (other ≠ ref ∨ attributes = none ∨ ¬acceptsAttributes after ref = true) →
          heap.attributes other = after.attributes other)
      (furnished : Threads (Built context sent heap) { size := after.size, known }
        ((attributes.getD []).map Prod.snd) values stop)
      (installed : attributes ≠ none → acceptsAttributes after ref = true →
        Installed heap ref attributes values) :
      Built context sent heap { size := before.size, known } (.encoded kind blob attributes) ref stop
  | attributed {start middle stop : Progress} {ref : Ref} {base : Message}
      {attributes : List (String × Message)} {values : List Ref}
      (bare : Built context sent heap start base ref middle)
      (body : heap.body ref = sent.body ref)
      (furnished : Threads (Built context sent heap) middle (attributes.map Prod.snd) values stop)
      (installed : Installed heap ref (some attributes) values) :
      Built context sent heap start (.attributed base attributes) ref stop

/-- Something in a message cannot be read in the receiving context, which is an error. -/
inductive Broken (context : Context) : Message → ChannelError → Prop where
  | blob {kind : ValueKind} {blob : Bytes} {attributes : Option (List (String × Message))}
      {before after : Heap} {reason : CodecError}
      (failed : context.codec.unserialize context.environments blob before = .error reason after) :
      Broken context (.encoded kind blob attributes) (.ofDecoding .encodedValue reason)
  | expr {env value : Option Message} {expr : Bytes} {reason : CodecError}
      (failed : rebuildExpr context.codec expr = .error reason) :
      Broken context (.promise env value expr) (.ofDecoding .promiseExpression reason)
  | part {message part : Message} {err : ChannelError} (member : part ∈ message.parts)
      (broken : Broken context part err) : Broken context message err

/-! ### States in which a message can be built -/

/-- Nothing that belongs to the message between two stages, and nothing of the sender, was written
to so far. -/
structure Poised (sending : Sending) (start stop : Stage) (state : Rebuild) : Prop where
  above : sending.origin.size ≤ start.size
  below : stop.size ≤ sending.final.size
  room : sending.final.size ≤ state.heap.size
  intact : ∀ ref, ref.index < sending.origin.size ∨ Between start stop ref →
    state.heap.get ref = sending.final.get ref
  keyed : Keyed start.known state

variable {mine : Ref → Prop} {before after : Rebuild} {sending : Sending} {start stop next : Stage}

namespace Poised

theorem first (poised : Poised sending start stop before) (upTo : next.UpTo stop) :
    Poised sending start next before := by
  refine ⟨poised.above, Nat.le_trans upTo.size poised.below, poised.room, ?_, poised.keyed⟩
  intro ref concerned
  apply poised.intact ref
  rcases concerned with old | own
  · exact Or.inl old
  · exact Or.inr ⟨own.1, Nat.lt_of_lt_of_le own.2 upTo.size⟩

theorem second (poised : Poised sending start stop before) (upTo : start.UpTo next)
    (rest : next.UpTo stop) (advances : Advances mine before after) (keyed : Keyed next.known after)
    (apart : ∀ ref, mine ref → start.size ≤ ref.index ∧
      (ref.index < next.size ∨ stop.size ≤ ref.index)) : Poised sending next stop after := by
  have above := poised.above
  have below := poised.below
  have room := poised.room
  have size := upTo.size
  have last := rest.size
  refine ⟨by omega, below, Nat.le_trans room advances.size, ?_, keyed⟩
  intro ref concerned
  have inside : ref.index < before.heap.size := by
    rcases concerned with old | ⟨_, last⟩
    · omega
    · omega
  have spared : ¬mine ref := by
    intro written
    have place := apart ref written
    rcases concerned with old | ⟨first, last⟩
    · omega
    · omega
  rw [advances.same ref inside spared]
  apply poised.intact ref
  rcases concerned with old | own
  · exact Or.inl old
  · exact Or.inr ⟨Nat.le_trans size own.1, own.2⟩

theorem extended {heap : Heap} (poised : Poised sending start stop before) (upTo : start.UpTo next)
    (rest : next.UpTo stop) (known : next.known = start.known) (extend : before.heap.Extends heap) :
    Advances (fun _ => False) before { before with heap } ∧
      Poised sending next stop { before with heap } := by
  have advances : Advances (fun _ => False) before { before with heap } :=
    ⟨extend.size, fun ref inside _ => extend.same ref inside⟩
  refine ⟨advances, poised.second upTo rest advances ?_ fun _ impossible => impossible.elim⟩
  rw [known]
  exact poised.keyed.grow extend.size

theorem bind {ε α β : Type} {owners : Ref → Prop} {heap : Heap}
    {action : Rebuilding ε α} {next : α → Rebuilding ε β} {middle : Stage}
    {done built : α → Rebuild → Prop} {done' built' : β → Rebuild → Prop} {failed : ε → Prop}
    (poised : Poised sending start stop before) (apart : Apart owners stop before)
    (forward : start.UpTo middle) (onward : middle.UpTo stop)
    (first : Constructs heap owners start middle before action done built failed)
    (second : ∀ result state, done result state → Poised sending middle stop state →
      Apart owners stop state → Advances (Beside owners start middle) before state →
        Constructs heap owners middle stop state (next result) done'
          (fun found after => built result state → built' found after) failed) :
    Constructs heap owners start stop before (action >>= next) done' built' failed := by
  refine Constructs.bind (Nat.le_trans poised.below poised.room) apart forward onward first ?_
  intro result state ended keyed advances
  refine second result state ended ?_ (apart.later advances.size) advances
  refine poised.second forward onward advances keyed ?_
  rintro ref (owner | own)
  · have behind := (apart ref owner).1
    exact ⟨Nat.le_trans (forward.trans onward).size behind, Or.inr behind⟩
  · exact ⟨own.1, Or.inl own.2⟩

end Poised

end Message

end ValueChannels

import ValueChannels.Proofs.Graph.Leaves
import ValueChannels.Proofs.Graph.Lossless
import ValueChannels.Proofs.Heap.Cycles
import ValueChannels.Proofs.Transfer.Sharing

/-!
Values that come across. A value whose cycles all pass through local environments, with nothing
attached where a message has no room for it and no local environments behind its functions, is
converted and built again by every context that has the environments which it names. Main
statements: `Crossing.prepares` for the sender and `Crossing.readable` for the receiver.
-/

namespace ValueChannels.Message

/-- A value goes from one context to another that has the environments which it names. -/
structure Crossing (sender receiver : Context) (heap : Heap) (value : Ref) : Prop
    extends Transit sender receiver heap value where
  /-- Every cycle passes through a local environment. -/
  grounded : heap.Grounded (heap.edges sender.environments.global) value
  /-- Promises and the environments that a context owns have no attributes. -/
  bare : ∀ ref, Leads (heap.edges sender.environments.global) value ref →
    (heap.body ref).isPromise = true ∨ (heap.body ref).isNamed = true → heap.attributes ref = none
  /-- A function has an environment of its context around it. -/
  behind : ∀ ref function, Leads (heap.edges sender.environments.global) value ref →
    heap.body ref = .closure function → (heap.body function.env).isNamed = true
  available : ∀ ref kind, Leads (heap.edges sender.environments.global) value ref →
    heap.Names ref kind → ∃ env, receiver.environments.find? kind = some env
  blobs : ∀ ref item, Leads (heap.edges sender.environments.global) value ref →
    heap.leaf? ref = some item → (Node.bare item).toItem.Fits
  exprs : ∀ ref delayed, Leads (heap.edges sender.environments.global) value ref →
    heap.body ref = .promise delayed → delayed.expr.toItem.Fits

namespace Crossing

variable {sender receiver : Context} {heap : Heap} {value ref child : Ref}

theorem inside_of_leads (crossing : Crossing sender receiver heap value)
    (leads : Leads (heap.edges sender.environments.global) value ref) : ref.index < heap.size :=
  crossing.clean.sound.leads_edges crossing.global crossing.inside leads

theorem conveyed (crossing : Crossing sender receiver heap value)
    (leads : Leads (heap.edges sender.environments.global) value ref)
    (member : child ∈ heap.conveyed sender.environments.global ref) :
    child ∈ (heap.edges sender.environments.global ref).map Prod.snd := by
  cases isNamed : (heap.body ref).isNamed with
  | false =>
      rw [Heap.edges_other isNamed]
      exact member
  | true =>
      rw [Heap.conveyed, Heap.carried, crossing.bare ref leads (Or.inr isNamed)] at member
      cases body : heap.body ref with
      | environment frame =>
          rw [body] at isNamed member
          have other : ¬frame.kind.isLocal = true := by simpa [Body.isNamed] using isNamed
          rw [Body.edges, Frame.links, if_neg other] at member
          cases member
      | _ =>
          rw [body] at isNamed
          cases isNamed

theorem next (crossing : Crossing sender receiver heap value)
    (leads : Leads (heap.edges sender.environments.global) value ref)
    (member : child ∈ heap.conveyed sender.environments.global ref) :
    Leads (heap.edges sender.environments.global) value child :=
  leads.step (crossing.clean.sound.nodup_edges _ (crossing.inside_of_leads leads))
    (crossing.conveyed leads member)

/-! ### Encoded parts -/

theorem leaf (crossing : Crossing sender receiver heap value)
    (leads : Leads (heap.edges sender.environments.global) value ref)
    (isEncoded : (heap.body ref).isEncoded = true) : ∃ item, heap.leaf? ref = some item := by
  unfold Heap.leaf?
  cases body : heap.body ref with
  | environment frame =>
      have isNamed := Body.isNamed_of_isEncoded isEncoded (congrArg Body.kind body)
      obtain ⟨kind, named⟩ := Heap.namedKind?_isSome isNamed
      simp only [named, Option.map_some]
      exact ⟨_, rfl⟩
  | closure function =>
      obtain ⟨kind, named⟩ := Heap.namedKind?_isSome (crossing.behind ref function leads body)
      simp only [named, Option.map_some]
      exact ⟨_, rfl⟩
  | language expr => exact ⟨_, rfl⟩
  | connection connection => exact ⟨_, rfl⟩
  | _ =>
      rw [body] at isEncoded
      cases isEncoded

/-- An encoded value is written, and what was written is read in every heap. -/
theorem encodes (crossing : Crossing sender receiver heap value)
    (leads : Leads (heap.edges sender.environments.global) value ref)
    (isEncoded : (heap.body ref).isEncoded = true) {detached : Heap} {bare : Ref}
    (taken : heap.Detached ref detached bare) :
    ∃ item blob, heap.leaf? ref = some item ∧ sender.codec.serialize detached bare = .ok blob ∧
      ∀ before, ∃ received after,
        receiver.codec.unserialize receiver.environments blob before = .ok received after ∧
          item.Settles receiver.environments before received after := by
  obtain ⟨item, leaf⟩ := crossing.leaf leads isEncoded
  have inside := crossing.inside_of_leads leads
  have around (function : Closure) (body : heap.body ref = .closure function) :
      detached.body function.env = heap.body function.env := by
    apply taken.bodies
    apply crossing.clean.sound.closed ref inside
    have body' : (heap.get ref).body = .closure function := body
    rw [Object.children, body']
    exact List.mem_append_left _ List.mem_cons_self
  have leaf' : detached.leaf? bare = some item := (Heap.leaf?_congr taken.body around).trans leaf
  have packable := (Node.bare item).packable (crossing.blobs ref item leads leaf)
  have room : 0 < detached.size := Nat.lt_of_lt_of_le (Nat.zero_lt_of_lt inside) taken.size
  refine ⟨item, (Node.bare item).toItem.write, leaf, ?_, ?_⟩
  · rw [crossing.codecs.1]
    exact Codec.serialize_leaf leaf' taken.attributes room
  · intro before
    rw [crossing.codecs.2]
    refine Codec.settles_packed leaf' packable ?_ before
    intro kind names
    exact crossing.available ref kind leads (Heap.names_congr taken.body around names)

theorem delays (crossing : Crossing sender receiver heap value)
    (leads : Leads (heap.edges sender.environments.global) value ref) {delayed : Promise}
    (body : heap.body ref = .promise delayed) :
    ∃ expr, sender.codec.serializeExpr delayed.expr = .ok expr ∧
      rebuildExpr receiver.codec expr = .ok delayed.expr.reread := by
  rw [crossing.codecs.1, crossing.codecs.2]
  exact ⟨_, rfl, rebuildExpr_packed (delayed.expr.packable (crossing.exprs ref delayed leads body))⟩

/-! ### The sender -/

theorem guided (crossing : Crossing sender receiver heap value) :
    Guided sender heap (heap.edges sender.environments.global) value where
  walkable :=
    { inside := fun _ leads => crossing.inside_of_leads leads
      distinct := fun _ leads =>
        crossing.clean.sound.nodup_edges _ (crossing.inside_of_leads leads) }
  conveyed _ leads _ member := crossing.conveyed leads member
  grounded := crossing.grounded

theorem prepares (crossing : Crossing sender receiver heap value) :
    ∃ message sent, ofValue sender heap value = (.ok message, sent) := by
  refine crossing.guided.prepares crossing.clean.sound ?_ ?_
  · intro ref delayed reason leads body refused
    obtain ⟨expr, written, _⟩ := crossing.delays leads body
    rw [written] at refused
    cases refused
  · intro before ref reason ready leads isEncoded refused
    obtain ⟨_, detached, bare, taken, same⟩ := blobOf_spec crossing.clean.sound ready
      (crossing.inside_of_leads leads) isEncoded sender.codec
    obtain ⟨_, _, _, written, _⟩ := crossing.encodes leads isEncoded taken
    rw [same, written] at refused
    cases refused

/-! ### The receiver -/

/-- The receiver can read all that a message describes of something on the way. -/
theorem readable {sending : Sending} {context : Context} {value ref : Ref}
    (crossing : Crossing sending.context context sending.origin value) {start stop : Stage}
    {message : Message} (describes : sending.Describes start message ref stop)
    (leads : Leads (sending.origin.edges sending.context.environments.global) value ref) :
    ∀ err, ¬Broken context message err := by
  induction message using Message.induct generalizing start ref stop with
  | step message ofParts =>
      -- What breaks a message is a blob or an expression in it, or one of its parts.
      intro err broken
      cases broken with
      | blob failed =>
          cases describes with
          | encoded isEncoded taken written copies present names values =>
              obtain ⟨_, blob, _, written', read⟩ := crossing.encodes leads isEncoded taken
              rw [written] at written'
              cases written'
              obtain ⟨_, _, done, _⟩ := read _
              rw [done] at failed
              cases failed
      | expr failed =>
          cases describes with
          | evaluated body written has content | delayed body written has content =>
              obtain ⟨_, written', rebuilt⟩ := crossing.delays leads body
              rw [written] at written'
              cases written'
              rw [rebuilt] at failed
              cases failed
      | part member broken =>
          obtain ⟨parts, children, first, last, comprises⟩ := describes.comprises
          rcases comprises.all _ member with described | ⟨copy, plain⟩
          · obtain ⟨child, held, _, _, inner⟩ := comprises.part described
            exact ofParts _ member inner (crossing.next leads held) err broken
          · subst plain
            cases broken with
            | part nothing _ => cases nothing

end Crossing

end ValueChannels.Message

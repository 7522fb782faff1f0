import ValueChannels.Proofs.Heap.Updates
import ValueChannels.Proofs.Transfer.Composition
import ValueChannels.Proofs.Transfer.Reentry

/-!
Attributes on their way. The receiver adds objects and leaves every object that is there the kind of
thing it is, so what a message is built to has the kind of the value that the message describes, and
no attribute is lost by becoming NULL. Main statements: `grows_build` for all messages,
`kind_build` for those that describe a value, `attachments_transfer` for what arrives.
-/

namespace ValueChannels

/-! ### Heaps that grow -/

/-- What kind of value has this content. -/
def Content.kind : Content → ValueKind
  | .null => .null
  | .unbound => .unbound
  | .vector data => data.kind
  | .list => .list
  | .environment _ => .environment
  | .promise _ => .promise
  | .closure _ _ => .closure
  | .language _ => .language
  | .connection _ => .connection

theorem Body.kind_content (body : Body) : body.content.kind = body.kind := by
  cases body <;> rfl

theorem Body.kind_of_isPlain {body : Body} (isPlain : body.isPlain = true) :
    body.kind ≠ .environment := by
  cases body with
  | vector data => cases data <;> exact fun impossible => nomatch impossible
  | null | unbound => exact fun impossible => nomatch impossible
  | _ => cases isPlain

namespace Heap

/-- Objects were added, and what was there has the content that it had. -/
structure Grows (before after : Heap) : Prop where
  size : before.size ≤ after.size
  content : ∀ ref, ref.index < before.size → after.content ref = before.content ref

variable {before middle after heap : Heap} {ref : Ref}

theorem kind_of_content {other : Ref} (same : after.content other = before.content ref) :
    after.kind other = before.kind ref := by
  rw [kind, kind, ← Body.kind_content, ← Body.kind_content]
  exact congrArg Content.kind same

theorem inside_of_list (list : heap.content ref = .list) : ref.index < heap.size := by
  apply heap.inside_of_body
  intro null
  rw [content, null] at list
  cases list

namespace Grows

theorem refl (heap : Heap) : heap.Grows heap :=
  ⟨Nat.le_refl _, fun _ _ => rfl⟩

theorem trans (first : before.Grows middle) (second : middle.Grows after) : before.Grows after := by
  refine ⟨Nat.le_trans first.size second.size, ?_⟩
  intro ref inside
  have later : ref.index < middle.size := Nat.lt_of_lt_of_le inside first.size
  rw [second.content ref later, first.content ref inside]

theorem kind (grows : before.Grows after) (inside : ref.index < before.size) :
    after.kind ref = before.kind ref :=
  kind_of_content (grows.content ref inside)

theorem extend (extend : before.Extends after) : before.Grows after :=
  ⟨extend.size, fun ref inside => congrArg (fun object => object.body.content)
    (extend.same ref inside)⟩

theorem alloc (heap : Heap) (body : Body) : heap.Grows (heap.alloc body).2 := by
  refine ⟨heap.size_le_alloc body, fun ref inside => ?_⟩
  exact congrArg (fun object => object.body.content) (heap.get_alloc_old body inside)

theorem replaceAttributes (heap : Heap) (owner : Ref) (attributes : Option Attributes) :
    heap.Grows (heap.replaceAttributes owner attributes) := by
  refine ⟨Nat.le_of_eq (heap.size_replaceAttributes owner attributes).symm, ?_⟩
  intro ref _
  rw [Heap.content, Heap.content, heap.body_replaceAttributes]

theorem setBody {owner : Ref} {body : Body} (same : body.content = heap.content owner) :
    heap.Grows (heap.setBody owner body) := by
  refine ⟨Nat.le_of_eq (heap.size_setBody owner body).symm, ?_⟩
  intro ref inside
  by_cases here : ref = owner
  · subst here
    have written := congrArg Object.body (heap.get_setBody_same body inside)
    rw [Heap.content, show (heap.setBody ref body).body ref = body from written, same]
  · exact congrArg (fun object => object.body.content) (heap.get_setBody_other body here)

theorem modifyFrame (heap : Heap) (env : Ref) {change : Frame → Frame}
    (same : ∀ frame, (change frame).kind = frame.kind) : heap.Grows (heap.modifyFrame env change) := by
  unfold Heap.modifyFrame
  cases found : heap.frame? env with
  | none => exact refl heap
  | some frame =>
      apply setBody
      rw [Heap.content, heap.frame?_eq_some.mp found]
      exact congrArg Content.environment (same frame)

theorem makePrivate (heap : Heap) (handle : Ref) : heap.Grows (heap.makePrivate handle).2 := by
  rcases heap.makePrivate_cases handle with ⟨same, _⟩ | ⟨_, copied⟩
  · rw [same]
    exact refl heap
  · rw [copied]
    exact (alloc heap _).trans (replaceAttributes _ _ _)

theorem setElement (heap : Heap) (handle : Ref) (index : Nat) (value : Ref) :
    heap.Grows (heap.setElement handle index value).heap ∧
      (heap.content handle = .list → (heap.setElement handle index value).heap.content
        (heap.setElement handle index value).handle = .list) := by
  unfold Heap.setElement
  split
  · rename_i items body
    have grows := makePrivate heap handle
    have list : heap.content handle = .list := congrArg Body.content body
    have moved : (heap.makePrivate handle).2.content (heap.makePrivate handle).1 = .list :=
      (congrArg Body.content (body_makePrivate heap handle)).trans list
    generalize heap.makePrivate handle = moving at grows moved
    obtain ⟨target, owned⟩ := moving
    have there : target.index < owned.size := inside_of_list moved
    dsimp only
    split
    · have written : owned.Grows (owned.setBody target (.list (items.set index value))) :=
        setBody moved.symm
      exact ⟨grows.trans written, fun _ => (written.content target there).trans moved⟩
    · exact ⟨grows, fun _ => moved⟩
  · exact ⟨refl heap, id⟩

end Grows

end Heap

namespace Message

open Rebuilding

/-! ### What building does to what is there -/

theorem content_entered (parent : Ref) (id : UInt32) (before : Rebuild) :
    Ref.index ⟨before.heap.size⟩ < (entered parent id before).heap.size ∧
      (entered parent id before).heap.content ⟨before.heap.size⟩ = .environment .localEnv := by
  constructor
  · exact Nat.lt_of_lt_of_eq (Nat.lt_succ_self _) (size_entered parent id before).symm
  · exact congrArg (fun object => object.body.content) (get_entered_new parent id before)

/-- Building went on: objects were added, and the environments that have become known are local. -/
structure Extended (before after : Rebuild) : Prop where
  grows : before.heap.Grows after.heap
  known : ∀ entry ∈ after.environments, entry ∈ before.environments ∨
    entry.2.index < after.heap.size ∧ after.heap.content entry.2 = .environment .localEnv

namespace Extended

variable {before middle after : Rebuild}

theorem refl (state : Rebuild) : Extended state state :=
  ⟨.refl _, fun _ => Or.inl⟩

theorem trans (first : Extended before middle) (second : Extended middle after) :
    Extended before after := by
  refine ⟨first.grows.trans second.grows, ?_⟩
  intro entry member
  rcases second.known entry member with held | new
  · refine (first.known entry held).imp_right ?_
    rintro ⟨inside, content⟩
    refine ⟨Nat.lt_of_lt_of_le inside second.grows.size, ?_⟩
    rw [second.grows.content entry.2 inside, content]
  · exact Or.inr new

theorem withHeap {heap : Heap} (grows : before.heap.Grows heap) :
    Extended before { before with heap } :=
  ⟨grows, fun _ => Or.inl⟩

theorem entered (parent : Ref) (id : UInt32) (before : Rebuild) :
    Extended before (entered parent id before) := by
  refine ⟨.alloc before.heap _, ?_⟩
  intro entry member
  rcases List.mem_cons.mp member with same | held
  · rw [same]
    exact Or.inr (content_entered parent id before)
  · exact Or.inl held

end Extended

/-- The action adds objects and leaves what is there the kind of thing it is. -/
def Extending {α : Type} (action : Building α) : Prop :=
  ∀ before, Ends action before (fun _ after => Extended before after) (fun _ _ => True)

/-- Building the message adds objects and leaves what is there the kind of thing it is. -/
def Adds (context : Context) (message : Message) : Prop :=
  ∀ before, Ends (message.build context) before (fun _ after => Extended before after)
    (fun _ _ => True)

theorem grows_install (heap : Heap) (owner : Ref) (entries : List (String × Ref)) :
    heap.Grows (install heap owner entries) := by
  unfold install
  split
  · exact .replaceAttributes heap owner _
  · exact .refl heap

namespace Extending

variable {context : Context} {α β : Type}

theorem pure (result : α) : Extending (Pure.pure result : Building α) :=
  fun before => Ends.pure (.refl before)

theorem throw (err : ChannelError) : Extending (MonadExcept.throw err : Building α) :=
  fun _ => Ends.throw trivial

theorem onHeap {step : Heap → α × Heap} (grows : ∀ heap : Heap, heap.Grows (step heap).2) :
    Extending (Rebuilding.onHeap step : Building α) :=
  fun before => Ends.modifyGet (.withHeap (grows before.heap))

theorem bind {action : Building α} {next : α → Building β} (first : Extending action)
    (second : ∀ result, Extending (next result)) : Extending (action >>= next) := by
  intro before
  refine Ends.bind ((first before).mono ?_ fun _ _ _ => trivial)
  intro result middle here
  exact (second result middle).mono (fun _ _ there => here.trans there) fun _ _ _ => trivial

theorem capture (id : UInt32) {next : Ref → Building α} (rest : ∀ env, Extending (next env)) :
    Extending (do
      let env ← Rebuilding.onHeap fun heap => heap.allocLocal context.environments.empty
      Rebuilding.register id env
      next env) := by
  intro before
  refine Ends.bind (Ends.modifyGet (Ends.bind (Ends.modifyGet ?_)))
  have known := Extended.entered context.environments.empty id before
  exact (rest _ _).mono (fun _ _ further => known.trans further) fun _ _ _ => trivial

theorem resolve (unknown : UInt32 → ChannelError) (id : UInt32) :
    Extending (Rebuilding.resolve unknown id : Building Ref) := by
  intro before
  unfold Rebuilding.resolve
  refine Ends.bind (Ends.get ?_)
  split
  · exact Ends.pure (.refl before)
  · exact Ends.throw trivial

theorem unserialize
    (reads : ∀ environments blob before, Ends (context.codec.unserialize environments blob) before
      (environments.Reads before) (fun _ => before.Extends)) (blob : Bytes) :
    Extending (Building.unserialize context blob) := by
  intro before
  have ends := reads context.environments blob before.heap
  unfold Ends at ends
  unfold Building.unserialize Ends
  dsimp only
  cases read : context.codec.unserialize context.environments blob before.heap with
  | error reason heap => trivial
  | ok result heap =>
      rw [read] at ends
      exact .withHeap (.extend ends.extend)

end Extending

theorem composes_extending {context : Context}
    (reads : ∀ environments blob before, Ends (context.codec.unserialize environments blob) before
      (environments.Reads before) (fun _ => before.Extends)) :
    Composes context (fun _ => True) (fun _ => True) fun _ _ => Extending where
  pure := .pure
  bind := .bind
  inner := fun _ extending => extending
  capture := fun extending => .capture _ fun env => extending env trivial
  resolve := .resolve _
  define := fun _ _ _ => .onHeap fun heap => .modifyFrame heap _ fun _ => rfl
  setParent := fun _ _ => .onHeap fun heap => .modifyFrame heap _ fun _ => rfl
  setElement := fun shell index element => .onHeap fun heap =>
    (Heap.Grows.setElement heap shell index element).1
  misfit := fun _ => .throw _
  install := fun ref entries => .onHeap fun heap => grows_install heap ref entries
  alloc := fun body => .onHeap fun heap => .alloc heap body
  unserialize := fun _ => .unserialize reads _
  broken := fun _ _ => .throw _
  part := fun _ _ => trivial

section Adding

variable {context : Context} {before : Rebuild}
  (composes : Composes context (fun _ => True) (fun _ => True) fun _ _ => Extending)

include composes

/-- Every message adds objects and leaves what is there the kind of thing it is, as long as
decoding does. -/
theorem grows_build (message : Message) : Adds context message :=
  composes.build message trivial

theorem adds_entries (entries : List (String × Message)) :
    Extending (buildEntries context entries) :=
  composes.entries fun part _ => grows_build composes part

theorem adds_attach (owner : Ref) (attributes : Option (List (String × Message))) :
    Ends (attach context owner attributes) before
      (fun result after => result = owner ∧ Extended before after) (fun _ _ => True) := by
  cases attributes with
  | none =>
      rw [attach]
      exact Ends.pure ⟨rfl, .refl before⟩
  | some entries =>
      rw [attach]
      refine Ends.bind ((adds_entries composes entries before).mono ?_ fun _ _ _ => trivial)
      intro built middle first
      refine Ends.bind (Ends.modifyGet (Ends.pure ⟨rfl, ?_⟩))
      exact first.trans (.withHeap (grows_install middle.heap owner built))

/-- The elements of a list are entered into a list, wherever the handle to it moves. -/
theorem adds_fill (items : List Message) (shell : Ref) (index : Nat) :
    Ends (fillList context shell index items) before
      (fun result after => Extended before after ∧
        (before.heap.content shell = .list → after.heap.content result = .list))
      (fun _ _ => True) := by
  induction items generalizing before shell index with
  | nil =>
      rw [fillList]
      exact Ends.pure ⟨.refl before, id⟩
  | cons item rest ih =>
      rw [fillList]
      refine Ends.bind ((grows_build composes item before).mono ?_ fun _ _ _ => trivial)
      intro element middle first
      have entering := Heap.Grows.setElement middle.heap shell index element
      refine Ends.bind ?_
      unfold Building.enterElement
      refine Ends.bind (Ends.modifyGet ?_)
      dsimp only
      split
      · refine Ends.pure ?_
        have entered := first.trans (.withHeap entering.1)
        refine (ih _ (index + 1)).mono ?_ fun _ _ _ => trivial
        rintro result after ⟨second, last⟩
        refine ⟨entered.trans second, fun list => last (entering.2 ?_)⟩
        rw [first.grows.content shell (Heap.inside_of_list list), list]
      · exact Ends.throw trivial

/-- A local environment is made and known before its content is built, and gets its attributes
last. -/
theorem ends_environment {id : UInt32} {bindings : List (String × Message)}
    {parent : Option Message} {attributes : Option (List (String × Message))}
    {done : Ref → Rebuild → Prop}
    (last : ∀ middle, Extended (entered context.environments.empty id before) middle →
      Ends (attach context ⟨before.heap.size⟩ attributes) middle done (fun _ _ => True)) :
    Ends ((Message.environment id bindings parent attributes).build context) before done
      (fun _ _ => True) := by
  rw [build]
  refine Ends.bind (Ends.modifyGet (Ends.bind (Ends.modifyGet (Ends.bind ?_))))
  have bound : Extending (buildBindings context ⟨before.heap.size⟩ bindings) :=
    composes.bindings trivial fun part _ => grows_build composes part
  have enclosing : Extending (buildOptional context parent) :=
    composes.optional fun part _ => grows_build composes part
  refine (bound (entered context.environments.empty id before)).mono ?_ fun _ _ _ => trivial
  intro _ bound first
  refine Ends.bind ((enclosing bound).mono ?_ fun _ _ _ => trivial)
  intro enclosing enclosed second
  cases enclosing with
  | none => exact last _ (first.trans second)
  | some outer =>
      refine Ends.bind (Ends.modifyGet ?_)
      have grows : enclosed.heap.Grows (enclosed.heap.setParent ⟨before.heap.size⟩ outer) :=
        .modifyFrame enclosed.heap _ fun _ => rfl
      exact last _ ((first.trans second).trans (.withHeap grows))

theorem adds_promise {env value : Option Message} {expr : Bytes} :
    Ends ((Message.promise env value expr).build context) before
      (fun result after => Extended before after ∧ result.index < after.heap.size ∧
        after.heap.kind result = .promise ∧ after.heap.attributes result = none)
      (fun _ _ => True) := by
  have optional (optional : Option Message) : Extending (buildOptional context optional) :=
    composes.optional fun part _ => grows_build composes part
  rw [build]
  split
  · exact Ends.throw trivial
  · rename_i expr _
    refine Ends.bind ((optional env before).mono ?_ fun _ _ _ => trivial)
    intro env' middle first
    refine Ends.bind ((optional value middle).mono ?_ fun _ _ _ => trivial)
    intro value' later second
    refine Ends.modifyGet ?_
    have object := later.heap.get_alloc_new (.promise { expr, env := env', value := value' })
    refine ⟨(first.trans second).trans (.withHeap (.alloc later.heap _)), ?_, ?_, ?_⟩
    · exact later.heap.inside_alloc _
    · exact congrArg (fun object => object.body.kind) object
    · exact congrArg Object.attributes object

end Adding

/-! ### What a described value is built to -/

/-- A context that can take what was sent: its environments are in the heap, and it reads what the
sender wrote. -/
structure Hosts (sending : Sending) (context : Context) : Prop where
  sound : sending.origin.Sound
  marked : Heap.Marked sending.origin.size sending.origin sending.final
  environments : context.environments.Sound sending.origin
  codec : sending.context.codec.Restores context.codec

/-- A state on the way: what was sent is there, and the environments that are known are local. -/
structure Underway (sending : Sending) (state : Rebuild) : Prop where
  grows : sending.final.Grows state.heap
  known : ∀ entry ∈ state.environments,
    entry.2.index < state.heap.size ∧ state.heap.content entry.2 = .environment .localEnv

section Described

variable {sending : Sending} {context : Context} {before after : Rebuild} {start stop : Stage}
  {message : Message} {ref : Ref}

theorem Underway.later (underway : Underway sending before) (extended : Extended before after) :
    Underway sending after := by
  refine ⟨underway.grows.trans extended.grows, ?_⟩
  intro entry member
  rcases extended.known entry member with held | new
  · obtain ⟨inside, content⟩ := underway.known entry held
    refine ⟨Nat.lt_of_lt_of_le inside extended.grows.size, ?_⟩
    rw [extended.grows.content entry.2 inside, content]
  · exact new

namespace Hosts

theorem composes (hosts : Hosts sending context) :
    Composes context (fun _ => True) (fun _ => True) fun _ _ => Extending :=
  composes_extending hosts.codec.reads

theorem adds (hosts : Hosts sending context) (message : Message) : Adds context message :=
  grows_build hosts.composes message

theorem content (hosts : Hosts sending context) {heap : Heap} (grows : sending.final.Grows heap)
    (inside : ref.index < sending.origin.size) : heap.content ref = sending.origin.content ref := by
  rw [grows.content ref (Nat.lt_of_lt_of_le inside hosts.marked.size)]
  exact congrArg Body.content (hosts.marked.body ref inside)

theorem housed (hosts : Hosts sending context) {heap : Heap} (grows : sending.final.Grows heap) :
    context.environments.Sound heap := by
  intro kind env found
  obtain ⟨frame, body, same⟩ := hosts.environments kind env found
  have content : heap.content env = .environment frame.kind := by
    rw [hosts.content grows (hosts.environments.inside found), Heap.content, body]
    rfl
  obtain ⟨frame', body', same'⟩ := Heap.frame_of_content content
  exact ⟨frame', body', same'.trans same⟩

theorem isNull (hosts : Hosts sending context) {heap : Heap} (grows : sending.final.Grows heap) :
    heap.kind Ref.null = .null := by
  have inside : Ref.null.index < sending.origin.size :=
    Nat.lt_of_lt_of_le Nat.zero_lt_two hosts.sound.room
  rw [Heap.kind_of_content (hosts.content grows inside), Heap.kind,
    (hosts.sound.null _ inside).mpr rfl]
  rfl

end Hosts

theorem content_copy {done : Stage} {copy : Ref} (hosts : Hosts sending context)
    (inside : ref.index < sending.origin.size) (room : stop.size ≤ sending.final.size)
    (copies : sending.Copies done ref copy stop) :
    copy.index < sending.final.size ∧ sending.final.content copy = sending.origin.content ref := by
  rcases copies with ⟨_, same, _⟩ | ⟨_, below, _, fresh⟩
  · rw [same]
    exact ⟨Nat.lt_of_lt_of_le inside hosts.marked.size,
      congrArg Body.content (hosts.marked.body ref inside)⟩
  · exact ⟨Nat.lt_of_lt_of_le below room, congrArg (fun object => object.body.content) fresh⟩

theorem kind_unserialize {detached : Heap} {bare : Ref} {blob : Bytes}
    (hosts : Hosts sending context) (underway : Underway sending before)
    (isEncoded : (sending.origin.body ref).isEncoded = true)
    (detaches : sending.origin.Detached ref detached bare)
    (written : sending.context.codec.serialize detached bare = .ok blob) :
    Ends (Building.unserialize context blob) before
      (fun result after => Extended before after ∧ result.index < after.heap.size ∧
        after.heap.kind result = sending.origin.kind ref) (fun _ _ => True) := by
  have housed := hosts.housed underway.grows
  have ends := hosts.codec.reads context.environments blob before.heap
  unfold Ends at ends
  unfold Building.unserialize Ends
  dsimp only
  cases read : context.codec.unserialize context.environments blob before.heap with
  | error reason heap => trivial
  | ok result heap =>
      rw [read] at ends
      refine ⟨.withHeap (.extend ends.extend), ?_, ?_⟩
      · rcases ends.result with made | old
        · exact made.2
        · have room : 2 ≤ before.heap.size := Nat.le_trans hosts.sound.room
            (Nat.le_trans hosts.marked.size underway.grows.size)
          exact Nat.lt_of_lt_of_le (housed.inside_old room old) ends.extend.size
      · have same := hosts.codec.kind detached bare blob (by rw [detaches.body]; exact isEncoded)
          written context.environments before.heap result heap housed read
        rw [same, Heap.kind, detaches.body]
        rfl

/-- A message that describes a value is built to a value of its kind. -/
theorem kind_build (hosts : Hosts sending context) (inside : ref.index < sending.origin.size)
    (describes : sending.Describes start message ref stop) (room : stop.size ≤ sending.final.size)
    (underway : Underway sending before) :
    Ends (message.build context) before
      (fun result after => result.index < after.heap.size ∧
        after.heap.kind result = sending.origin.kind ref) (fun _ _ => True) := by
  cases describes with
  | plain =>
      rw [build]
      refine Ends.pure ⟨?_, Heap.kind_of_content (hosts.content underway.grows inside)⟩
      exact Nat.lt_of_lt_of_le (Nat.lt_of_lt_of_le inside hosts.marked.size) underway.grows.size
  | list body elements present names values copy =>
      rename_i filled done shell refs items attributes
      have kind : sending.origin.kind ref = .list := congrArg Body.kind body
      obtain ⟨there, same⟩ := content_copy hosts inside room copy
      have list : before.heap.content shell = .list := by
        rw [underway.grows.content shell there, same, Heap.content, body]
        rfl
      rw [build]
      refine Ends.bind ((adds_fill hosts.composes items shell 0).mono ?_ fun _ _ _ => trivial)
      rintro filled' middle ⟨_, moved⟩
      refine (adds_attach hosts.composes filled' attributes).mono ?_ fun _ _ _ => trivial
      rintro result after ⟨same, second⟩
      have inside' := Heap.inside_of_list (moved list)
      rw [same, kind]
      refine ⟨Nat.lt_of_lt_of_le inside' second.grows.size, ?_⟩
      rw [second.grows.kind inside']
      exact (Body.kind_content _).symm.trans (congrArg Content.kind (moved list))
  | environment body isLocal met bindingNames bindingValues enclosing present names values =>
      have kind : sending.origin.kind ref = .environment := congrArg Body.kind body
      refine ends_environment hosts.composes ?_
      intro middle first
      refine (adds_attach hosts.composes _ _).mono ?_ fun _ _ _ => trivial
      rintro result after ⟨same, second⟩
      have done := first.trans second
      obtain ⟨inside', content⟩ := content_entered context.environments.empty
        (UInt32.ofNat start.known) before
      rw [same, kind]
      refine ⟨Nat.lt_of_lt_of_le inside' done.grows.size, ?_⟩
      rw [done.grows.kind inside', Heap.kind, ← Body.kind_content]
      exact congrArg Content.kind content
  | reference isLocal met earlier =>
      rw [build]
      unfold resolve
      refine Ends.bind (Ends.get ?_)
      split
      · rename_i env found
        obtain ⟨there, content⟩ := underway.known _ (mem_of_lookup found)
        refine Ends.pure ⟨there, ?_⟩
        rw [Heap.kind, ← Body.kind_content]
        exact (congrArg Content.kind content).trans (Body.kind_of_isLocal isLocal).symm
      · exact Ends.throw trivial
  | evaluated body written has inner | delayed body written has inner =>
      have kind : sending.origin.kind ref = .promise := congrArg Body.kind body
      rw [kind]
      exact (adds_promise hosts.composes).mono (fun _ _ done => ⟨done.2.1, done.2.2.1⟩) fun _ _ _ => trivial
  | encoded isEncoded detached written copies present names values =>
      rename_i attributes
      rw [build]
      refine Ends.bind ((kind_unserialize hosts underway isEncoded detached written).mono ?_
        fun _ _ _ => trivial)
      rintro result middle ⟨_, inside', kind⟩
      refine (adds_attach hosts.composes result attributes).mono ?_ fun _ _ _ => trivial
      rintro found after ⟨same, second⟩
      rw [same]
      exact ⟨Nat.lt_of_lt_of_le inside' second.grows.size, (second.grows.kind inside').trans kind⟩
  | attributed isPlain has names values copy =>
      rename_i done base mapping attributes
      obtain ⟨there, same⟩ := content_copy hosts inside room copy
      rw [build, build]
      refine Ends.bind (Ends.pure (Ends.bind ((adds_entries hosts.composes attributes _).mono ?_
        fun _ _ _ => trivial)))
      intro built later second
      refine Ends.bind (Ends.modifyGet (Ends.pure ?_))
      have grows := (underway.grows.trans second.grows).trans (grows_install later.heap base built)
      exact ⟨Nat.lt_of_lt_of_le there grows.size,
        (grows.kind there).trans (Heap.kind_of_content same)⟩

/-! ### Attributes that arrive -/

/-- A value has come across: on the way to this heap it was built from a message that describes the
sent one. -/
def Transferred (sending : Sending) (context : Context) (heap : Heap) (sent received : Ref) : Prop :=
  ∃ start message stop before after, sending.Describes start message sent stop ∧
    stop.size ≤ sending.final.size ∧ Underway sending before ∧
      message.build context before = .ok received after ∧ after.heap.Grows heap

namespace Transferred

variable {heap later : Heap} {sent received : Ref}

theorem grow (transferred : Transferred sending context heap sent received)
    (grows : heap.Grows later) : Transferred sending context later sent received := by
  obtain ⟨start, message, stop, before, after, describes, room, underway, ran, onward⟩ := transferred
  exact ⟨start, message, stop, before, after, describes, room, underway, ran, onward.trans grows⟩

theorem same {stage : Stage} (inside : sent.index < sending.origin.size)
    (deep : sending.final.Deep sent) (room : stage.size ≤ sending.final.size) :
    Transferred sending context sending.final sent sent :=
  ⟨stage, .plain sent, stage, { heap := sending.final, environments := [] }, _, .plain stage inside deep,
    room, ⟨.refl _, fun _ member => nomatch member⟩, by rw [build]; rfl, .refl _⟩

/-- Only NULL comes across as NULL. -/
theorem ne_null (transferred : Transferred sending context heap sent received)
    (hosts : Hosts sending context) (inside : sent.index < sending.origin.size)
    (something : sent ≠ Ref.null) : received ≠ Ref.null := by
  obtain ⟨start, message, stop, before, after, describes, room, underway, ran, _⟩ := transferred
  have kind := (Ends.ok (kind_build hosts inside describes room underway) ran).2
  have grows := underway.grows.trans (Ends.ok (hosts.adds message before) ran).grows
  rintro rfl
  rw [hosts.isNull grows] at kind
  apply something
  apply (hosts.sound.null sent inside).mp
  unfold Heap.kind at kind
  cases body : sending.origin.body sent with
  | null => rfl
  | vector data =>
      rw [body] at kind
      cases data <;> cases kind
  | _ =>
      rw [body] at kind
      cases kind

end Transferred

theorem transfers_entries (hosts : Hosts sending context) (entries : List (String × Message))
    {refs : List Ref}
    (threads : Threads sending.Describes start (entries.map Prod.snd) refs stop)
    (room : stop.size ≤ sending.final.size) (underway : Underway sending before) :
    Ends (buildEntries context entries) before
      (fun built after => Extended before after ∧ built.map Prod.fst = entries.map Prod.fst ∧
        List.Forall₂ (Transferred sending context after.heap) refs (built.map Prod.snd))
      (fun _ _ => True) := by
  induction entries generalizing start refs before with
  | nil =>
      cases threads
      rw [buildEntries]
      exact Ends.pure ⟨.refl before, rfl, .nil⟩
  | cons entry rest ih =>
      obtain ⟨name, message⟩ := entry
      rw [List.map_cons] at threads
      cases threads with
      | cons head tail =>
          rename_i middle ref refs
          have onward := Sending.upTo_describes tail
          rw [buildEntries]
          refine Ends.bind ((Ends.and (hosts.adds message before) Ends.ran).mono ?_
            fun _ _ _ => trivial)
          rintro received later ⟨first, ran⟩
          have here : Transferred sending context later.heap ref received :=
            ⟨_, message, _, before, later, head, Nat.le_trans onward.size room, underway, ran, .refl _⟩
          refine Ends.bind ((ih tail (underway.later first)).mono ?_ fun _ _ _ => trivial)
          rintro built after ⟨second, names, others⟩
          refine Ends.pure ⟨first.trans second, ?_, .cons (here.grow second.grows) others⟩
          rw [List.map_cons, List.map_cons, names]

/-- An object has the attributes of the sent one, in their order, as they have come across. -/
def Attached (sending : Sending) (context : Context) (heap : Heap) (mapping : Attributes)
    (received : Ref) : Prop :=
  ∃ arrived, heap.attributes received = some arrived ∧ arrived.names = mapping.names ∧
    List.Forall₂ (Transferred sending context heap) (mapping.entries.map Prod.snd)
      (arrived.entries.map Prod.snd)

theorem accepts_content (heap : Heap) (owner : Ref) : acceptsAttributes heap owner =
    match heap.content owner with
    | .environment kind => kind.isLocal
    | _ => true := by
  unfold acceptsAttributes Heap.frame? Heap.content
  cases heap.body owner <;> rfl

theorem attached_attach {mapping : Attributes} {owner : Ref} (hosts : Hosts sending context)
    (has : sending.origin.attributes ref = some mapping) (entries : List (String × Message))
    (names : entries.map Prod.fst = mapping.names)
    (threads : Threads sending.Describes start (entries.map Prod.snd)
      (mapping.entries.map Prod.snd) stop)
    (room : stop.size ≤ sending.final.size) (underway : Underway sending before)
    (inside : owner.index < before.heap.size)
    (accepts : acceptsAttributes before.heap owner = true) :
    Ends (attach context owner (some entries)) before
      (fun result after => Attached sending context after.heap mapping result)
      (fun _ _ => True) := by
  obtain ⟨something, distinct, present⟩ := hosts.sound.attributes has
  rw [attach]
  refine Ends.bind ((transfers_entries hosts entries threads room underway).mono ?_
    fun _ _ _ => trivial)
  rintro built middle ⟨extended, names', transferred⟩
  refine Ends.bind (Ends.modifyGet (Ends.pure ?_))
  have accepts' : acceptsAttributes middle.heap owner = true := by
    rw [accepts_content, extended.grows.content owner inside, ← accepts_content]
    exact accepts
  have inside' : owner.index < middle.heap.size := Nat.lt_of_lt_of_le inside extended.grows.size
  have others : ∀ entry ∈ built, entry.2 ≠ Ref.null := by
    intro entry member
    obtain ⟨sent, held, here⟩ := forall₂_right transferred (List.mem_map_of_mem member)
    exact here.ne_null hosts (present sent held).1 (present sent held).2
  -- None of the values is NULL and no name stands twice, so setting one after the other keeps all
  -- of them.
  have whole : (Attributes.ofList built).entries = built := by
    apply Attributes.entries_ofList
    · rw [names', names]
      exact distinct
    · exact others
  have full : (Attributes.ofList built).entries ≠ [] := by
    intro empty
    apply something
    rw [whole] at empty
    rw [← List.map_eq_nil_iff, ← Mapping.names, ← names, ← names', empty]
    rfl
  have written : (install middle.heap owner built).attributes owner =
      some (Attributes.ofList built) := by
    rw [install_accepted built accepts', Heap.attributes,
      middle.heap.get_replaceAttributes_same _ inside']
    exact Attributes.normalize_some full
  refine ⟨Attributes.ofList built, written, ?_, ?_⟩
  · rw [Mapping.names, whole, names', names]
  · rw [whole]
    exact transferred.imp fun _ _ here => here.grow (grows_install middle.heap owner built)

theorem underway_start (sending : Sending) :
    Underway sending { heap := sending.final, environments := [] } :=
  ⟨.refl _, fun _ member => nomatch member⟩

theorem attached_plain {mapping : Attributes} {stage : Stage} (hosts : Hosts sending context)
    (has : sending.origin.attributes ref = some mapping) (deep : sending.final.Deep ref)
    (room : stage.size ≤ sending.final.size) :
    Attached sending context sending.final mapping ref := by
  have inside := sending.origin.inside_of_attributes has
  have held := (hosts.marked.attributes ref inside).trans has
  refine ⟨mapping, held, rfl, ?_⟩
  rw [List.forall₂_same]
  intro value member
  obtain ⟨_, _, present⟩ := hosts.sound.attributes has
  refine .same (present value member).1 (deep.child ?_) room
  apply List.mem_append_right
  rw [show (sending.final.get ref).attributes = some mapping from held]
  exact member

/-- A value that is converted first is built to one that has its attributes, as they have come
across, unless it is a promise. -/
theorem attached_build {mapping : Attributes} (hosts : Hosts sending context)
    (has : sending.origin.attributes ref = some mapping)
    (other : (sending.origin.body ref).isNamed = false)
    (apart : (sending.origin.body ref).isPromise = false)
    (describes : sending.Describes start message ref stop) (first : start.known = 0)
    (room : stop.size ≤ sending.final.size) :
    Ends (message.build context) { heap := sending.final, environments := [] }
      (fun result after => Attached sending context after.heap mapping result)
      (fun _ _ => True) := by
  have inside := sending.origin.inside_of_attributes has
  have underway := underway_start sending
  -- The last step puts the attributes on an object that accepts any.
  have finish {attributes : Option (List (String × Message))} {begin done : Stage} {owner : Ref}
      {state : Rebuild} (present : attributes.isSome = (sending.origin.attributes ref).isSome)
      (names : (attributes.getD []).map Prod.fst =
        (attributeEntries (sending.origin.attributes ref)).map Prod.fst)
      (values : Threads sending.Describes begin ((attributes.getD []).map Prod.snd)
        ((attributeEntries (sending.origin.attributes ref)).map Prod.snd) done)
      (within : done.size ≤ sending.final.size) (still : Underway sending state)
      (there : owner.index < state.heap.size)
      (accepts : acceptsAttributes state.heap owner = true) :
      Ends (attach context owner attributes) state
        (fun result after => Attached sending context after.heap mapping result)
        (fun _ _ => True) := by
    rw [has] at present names values
    cases attributes with
    | none => cases present
    | some entries => exact attached_attach hosts has entries names values within still there accepts
  cases describes with
  | plain stage within deep =>
      rw [build]
      exact Ends.pure (attached_plain hosts has deep room)
  | list body elements present names values copy =>
      rename_i filled done shell refs items attributes
      obtain ⟨_, copied⟩ := content_copy hosts inside room copy
      rw [build]
      refine Ends.bind ((adds_fill hosts.composes items shell 0).mono ?_ fun _ _ _ => trivial)
      rintro filled' middle ⟨extended, moved⟩
      have list : middle.heap.content filled' = .list := by
        apply moved
        rw [copied, Heap.content, body]
        rfl
      refine finish present names values (Nat.le_trans copy.upTo.size room)
        (underway.later extended) (Heap.inside_of_list list) ?_
      rw [accepts_content, list]
  | environment body isLocal met bindingNames bindingValues enclosing present names values =>
      refine ends_environment hosts.composes ?_
      intro middle extended
      obtain ⟨there, content⟩ := content_entered context.environments.empty
        (UInt32.ofNat start.known) { heap := sending.final, environments := [] }
      have still := underway.later ((Extended.entered _ _ _).trans extended)
      refine finish present names values room still
        (Nat.lt_of_lt_of_le there extended.grows.size) ?_
      rw [accepts_content, extended.grows.content _ there, content]
      rfl
  | reference isLocal met earlier =>
      rw [first] at earlier
      exact absurd earlier (Nat.not_lt_zero _)
  | evaluated body | delayed body =>
      rw [body] at apart
      cases apart
  | encoded isEncoded detached written copies present names values =>
      rw [build]
      refine Ends.bind ((kind_unserialize hosts underway isEncoded detached written).mono ?_
        fun _ _ _ => trivial)
      rintro result middle ⟨extended, there, kind⟩
      refine finish present names values room (underway.later extended) there
        (acceptsAttributes_of_kind ?_)
      rw [kind]
      intro environment
      rw [Body.isNamed_of_isEncoded isEncoded environment] at other
      cases other
  | attributed isPlain has' names values copy =>
      rename_i done base mapping' attributes
      obtain ⟨there, content⟩ := content_copy hosts inside room copy
      have steps : build context (.attributed (.plain base) attributes) =
          attach context base (some attributes) := by
        rw [build, build, attach]
        rfl
      rw [steps]
      rw [has] at has'
      cases has'
      refine attached_attach hosts has attributes names values
        (Nat.le_trans copy.upTo.size room) underway there (acceptsAttributes_of_kind ?_)
      rw [Heap.kind_of_content content]
      exact Body.kind_of_isPlain isPlain

theorem bare_build (hosts : Hosts sending context)
    (isPromise : (sending.origin.body ref).isPromise = true)
    (describes : sending.Describes start message ref stop) :
    Ends (message.build context) before (fun result after => after.heap.attributes result = none)
      (fun _ _ => True) := by
  cases describes with
  | plain stage inside deep =>
      have data := hosts.marked.isData_of_deep inside deep
      rw [Body.isPromise_of_isData data] at isPromise
      cases isPromise
  | evaluated | delayed =>
      exact (adds_promise hosts.composes).mono (fun _ _ done => done.2.2.2) fun _ _ _ => trivial
  | list body | environment body =>
      rw [body] at isPromise
      cases isPromise
  | reference isLocal =>
      have kind := Body.kind_of_isLocal isLocal
      rw [Body.isPromise_iff_kind.mp isPromise] at kind
      cases kind
  | encoded isEncoded =>
      rw [Body.isPromise_of_isEncoded isEncoded] at isPromise
      cases isPromise
  | attributed isPlain =>
      rw [Body.isPromise_of_isData (Body.isData_of_isPlain isPlain)] at isPromise
      cases isPromise

end Described

/-- Whatever arrives has the attributes of what was sent, under the same names in the same order, each
as it has come across; but a promise arrives without its attributes. -/
theorem attachments_transfer {sender receiver : Context} {heap sent after : Heap} {value copy : Ref}
    {message : Message} {mapping : Attributes} (sound : heap.Sound)
    (senders : sender.environments.Sound heap) (receivers : receiver.environments.Sound heap)
    (codecs : sender.codec.Restores receiver.codec)
    (has : heap.attributes value = some mapping) (other : (heap.body value).isNamed = false)
    (prepared : ofValue sender heap value = (.ok message, sent))
    (ended : toValue receiver sent message = (.ok copy, after)) :
    ((heap.body value).isPromise = false → ∃ known,
        Attached { context := sender, origin := heap, final := sent, known } receiver after mapping
          copy) ∧
      ((heap.body value).isPromise = true → after.attributes copy = none) := by
  have global := senders.inside (show sender.environments.find? .global = some _ from rfl)
  have inside := heap.inside_of_attributes has
  obtain ⟨known, converted⟩ := sent_ofValue sound global inside prepared
  have hosts : Hosts { context := sender, origin := heap, final := sent, known } receiver :=
    ⟨sound, converted.marked, receivers, codecs⟩
  unfold toValue at ended
  split at ended
  · rename_i result state built
    cases ended
    constructor
    · intro apart
      exact ⟨known, (attached_build hosts has other apart converted.whole rfl (Nat.le_refl _)).ok
        built⟩
    · intro isPromise
      exact (bare_build hosts isPromise converted.whole).ok built
  · cases ended

/-- The attribute of a function arrives with it. -/
theorem attachments_noted : ∃ sent copy after known,
    ofValue sampleSender notedHeap ⟨11⟩ = (.ok notedMessage, sent) ∧
      toValue sampleReceiver sent notedMessage = (.ok copy, after) ∧
      Attached { context := sampleSender, origin := notedHeap, final := sent, known } sampleReceiver
        after ⟨[("note", ⟨12⟩)]⟩ copy := by
  have built : (toValue sampleReceiver (ofValue sampleSender notedHeap ⟨11⟩).2
      notedMessage).1.toOption = some ⟨15⟩ := by decide +kernel
  have ended := run_of_toOption built
  have transit := homing_noted.transit
  have has : notedHeap.attributes ⟨11⟩ = some ⟨[("note", ⟨12⟩)]⟩ := rfl
  have apart : (notedHeap.body ⟨11⟩).isPromise = false := rfl
  obtain ⟨known, attached⟩ := (attachments_transfer transit.clean.sound transit.senders
    transit.receivers Codec.restores_packed has rfl rfl ended).1 apart
  exact ⟨_, ⟨15⟩, _, known, rfl, ended, attached⟩

/-- A promise with an attribute, and a function in whose environment it is bound. -/
def promisedHeap : Heap :=
  let (note, heap) := Codec.twoContexts.alloc (.vector (.integer [1]))
  let (value, heap) := heap.alloc (.vector (.integer [7]))
  let (delayed, heap) :=
    heap.alloc (.promise { expr := .symbol "x", env := none, value := some value })
  let (env, heap) := heap.allocLocal sampleSender.environments.global
  let (_, heap) := heap.alloc (.closure { formals := ["x"], body := .symbol "x", env })
  (heap.define env "p" delayed).replaceAttributes delayed (some ⟨[("note", note)]⟩)

def promisedMessage : Message :=
  .promise none (some (.plain ⟨11⟩)) (Expr.symbol "x").toItem.write

/-- The message for the function, whose bytes hold the promise and its attribute. -/
def boundMessage : Message :=
  .encoded .closure (Node.bare (.closure ["x"] (.symbol "x") (.bare (.environment 0
      [("p", .mk (.promise (.symbol "x") none (some (.bare (.vector (.integer [7])))))
        [("note", .bare (.vector (.integer [1])))])]
      (some (.bare (.named .global))))))).toItem.write none

/-- A promise that is sent itself loses its attribute, and keeps it on its way through the codec
inside a function. -/
theorem lost_promise : ∃ sent copy after sent' copy' after' inner,
    ofValue sampleSender promisedHeap ⟨12⟩ = (.ok promisedMessage, sent) ∧
      toValue sampleReceiver sent promisedMessage = (.ok copy, after) ∧
      ofValue sampleSender promisedHeap ⟨14⟩ = (.ok boundMessage, sent') ∧
      toValue sampleReceiver sent' boundMessage = (.ok copy', after') ∧
      follow? promisedHeap.links ⟨14⟩ [.environment, .binding "p"] = some ⟨12⟩ ∧
      follow? after'.links copy' [.environment, .binding "p"] = some inner ∧
      (attributeEntries (promisedHeap.attributes ⟨12⟩)).map Prod.fst = ["note"] ∧
      (attributeEntries (after.attributes copy)).map Prod.fst = [] ∧
      (attributeEntries (after'.attributes inner)).map Prod.fst = ["note"] := by
  have built : (toValue sampleReceiver (ofValue sampleSender promisedHeap ⟨12⟩).2
      promisedMessage).1.toOption = some ⟨15⟩ := by decide +kernel
  have bare : (attributeEntries ((toValue sampleReceiver
      (ofValue sampleSender promisedHeap ⟨12⟩).2 promisedMessage).2.attributes ⟨15⟩)).map
        Prod.fst = [] := by decide +kernel
  have built' : (toValue sampleReceiver (ofValue sampleSender promisedHeap ⟨14⟩).2
      boundMessage).1.toOption = some ⟨19⟩ := by decide +kernel
  have found : follow? (toValue sampleReceiver (ofValue sampleSender promisedHeap ⟨14⟩).2
      boundMessage).2.links ⟨19⟩ [.environment, .binding "p"] = some ⟨17⟩ := by decide +kernel
  have kept : (attributeEntries ((toValue sampleReceiver
      (ofValue sampleSender promisedHeap ⟨14⟩).2 boundMessage).2.attributes ⟨17⟩)).map
        Prod.fst = ["note"] := by decide +kernel
  exact ⟨_, ⟨15⟩, _, _, ⟨19⟩, _, ⟨17⟩, rfl, run_of_toOption built, rfl, run_of_toOption built', rfl,
    found, rfl, bare, kept⟩

end Message

end ValueChannels

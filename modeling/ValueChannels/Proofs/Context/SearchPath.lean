import ValueChannels.Proofs.Context.Chains
import ValueChannels.Proofs.Transfer.Tampering

/-!
The search path of a context. Around its global environment stand the packages that it has attached,
the latest first, then base and the empty environment, and its namespaces hang below. Contexts may
attach packages and load namespaces in any order, make environments, define names, build messages and
read bytes. Main statements: `Chained.attach` for one package, `oriented_perform` for one call, and
`searchPath_stays` for all that calls lead to.
-/

namespace ValueChannels

namespace Environments

variable {environments other : Environments} {heap after : Heap} {name : String} {env : Ref}

/-- The global environment and what stands around it. -/
def searchPath (environments : Environments) : List Ref :=
  environments.global :: ((environments.packages.entries.map Prod.snd).reverse ++
    [environments.base, environments.empty])

/-- The environments of a context stand around each other as they should. -/
structure Chained (environments : Environments) (heap : Heap) : Prop where
  distinct : environments.packages.names.Nodup
  path : heap.Chain environments.global environments.searchPath
  baseNamespace : heap.parent? environments.baseNamespace = some environments.global
  namespaces : ∀ name env, environments.find? (.namespaceEnv name) = some env →
    heap.parent? env = some environments.baseNamespace

theorem Chained.later (chained : environments.Chained heap)
    (same : ∀ env, environments.Owns env → after.parent? env = heap.parent? env) :
    environments.Chained after where
  distinct := chained.distinct
  path := by
    refine chained.path.congr fun link member => same link ?_
    rcases List.mem_cons.mp member with isGlobal | around
    · exact ⟨.global, congrArg some isGlobal.symm⟩
    rcases List.mem_append.mp around with package | fixed
    · obtain ⟨⟨name, env⟩, entry, rfl⟩ := List.mem_map.mp (List.mem_reverse.mp package)
      exact ⟨.packageEnv name, lookup_of_mem chained.distinct entry⟩
    · rcases List.mem_cons.mp fixed with isBase | last
      · exact ⟨.base, congrArg some isBase.symm⟩
      · exact ⟨.empty, congrArg some (List.mem_singleton.mp last).symm⟩
  baseNamespace := (same _ ⟨.baseNamespace, rfl⟩).trans chained.baseNamespace
  namespaces name env found := (same env ⟨.namespaceEnv name, found⟩).trans
    (chained.namespaces name env found)

theorem isNamed_of_owns (owned : environments.Sound heap) (owns : environments.Owns env) :
    (heap.body env).isNamed = true := by
  obtain ⟨kind, found⟩ := owns
  obtain ⟨frame, content, same⟩ := owned kind env found
  rw [content, Body.isNamed, same]
  cases kind with
  | localEnv => cases found
  | _ => rfl

theorem global_apart (owned : environments.Sound heap) {kind : EnvironmentKind}
    (found : environments.find? kind = some env) (different : kind ≠ .global)
    (owned' : other.Sound heap) : env ≠ other.global := by
  intro same
  obtain ⟨frame, content, isKind⟩ := owned kind env found
  obtain ⟨frame', content', isGlobal⟩ := owned' .global other.global rfl
  rw [same, content'] at content
  cases content
  exact different (isKind.symm.trans isGlobal)

/-- A new package comes to stand directly around the global environment. -/
theorem Chained.attach (chained : environments.Chained heap) (owned : environments.Sound heap)
    (sound : heap.Sound) (name : String) :
    (environments.attach heap name).2.1.Chained (environments.attach heap name).2.2 := by
  cases unknown : environments.packages.get? name with
  | some env =>
      rw [attach_known unknown]
      exact chained
  | none =>
      have spliced := spliced_attach owned unknown
      have inside := owned.inside (show environments.find? .global = _ from rfl)
      have path := spliced.chain chained.path (chained.path.inside sound inside)
      have added : (environments.packages.insert name ⟨heap.size⟩).entries =
          environments.packages.entries ++ [(name, ⟨heap.size⟩)] :=
        Mapping.insertEntry_new (Mapping.get?_eq_none.mp unknown) _
      rw [attach_unknown unknown] at spliced path ⊢
      have kept (kind : EnvironmentKind) {env : Ref} (found : environments.find? kind = some env)
          (different : kind ≠ .global) := spliced.parents env (owned.inside found)
        (global_apart owned found different owned)
      constructor
      · exact Mapping.nodup_names_insert name _ chained.distinct
      · rw [searchPath, Heap.splice_head (List.nodup_cons.mp chained.path.nodup).1] at path
        rw [searchPath, added, List.map_append, List.reverse_append]
        exact path
      · exact (kept .baseNamespace rfl nofun).trans chained.baseNamespace
      · intro name env found
        exact (kept (.namespaceEnv name) found nofun).trans
          (chained.namespaces name env found)

theorem Chained.loadNamespace (chained : environments.Chained heap)
    (owned : environments.Sound heap) (name : String) :
    (environments.loadNamespace heap name).2.1.Chained
      (environments.loadNamespace heap name).2.2 := by
  have extend := extends_loadNamespace environments heap name
  have kept : environments.Chained (environments.loadNamespace heap name).2.2 :=
    chained.later fun env ⟨kind, found⟩ => extend.parent? (owned.inside found)
  cases unknown : environments.namespaces.get? name with
  | some env =>
      rw [loadNamespace_known unknown]
      exact chained
  | none =>
      rw [loadNamespace_unknown unknown] at kept ⊢
      refine ⟨kept.distinct, kept.path, kept.baseNamespace, fun other env found => ?_⟩
      rw [find?, Mapping.get?_insert] at found
      split at found
      · cases found
        exact heap.parent?_new (.namespaceEnv name) (some environments.baseNamespace)
      · exact kept.namespaces other env found

theorem extends_create (heap : Heap) : heap.Extends (create heap).2 :=
  .trans (.alloc _ _) (.trans (.alloc _ _) (.trans (.alloc _ _) (.alloc _ _)))

theorem new_create (heap : Heap) : heap.size ≤ (create heap).1.global.index :=
  (Heap.Extends.trans (.alloc heap _) (.alloc _ _)).size

theorem apart_create (owned : environments.Sound heap) :
    (create heap).1.global ≠ environments.global := by
  intro same
  have inside := owned.inside (show environments.find? .global = _ from rfl)
  rw [← same] at inside
  exact Nat.not_lt_of_le (new_create heap) inside

theorem chained_create (heap : Heap) : (create heap).1.Chained (create heap).2 := by
  let ofEmpty := heap.allocEnvironment .empty none
  let ofBase := ofEmpty.2.allocEnvironment .base (some ofEmpty.1)
  let ofGlobal := ofBase.2.allocEnvironment .global (some ofBase.1)
  let ofNamespace := ofGlobal.2.allocEnvironment .baseNamespace (some ofGlobal.1)
  have last : ofGlobal.2.Extends ofNamespace.2 := .alloc _ _
  have later : ofBase.2.Extends ofNamespace.2 := .trans (.alloc _ _) last
  have latest : ofEmpty.2.Extends ofNamespace.2 := .trans (.alloc _ _) later
  have empty : ofNamespace.2.parent? ofEmpty.1 = none :=
    (latest.parent? (Heap.inside_alloc _ _)).trans (Heap.parent?_new _ _ _)
  have base : ofNamespace.2.parent? ofBase.1 = some ofEmpty.1 :=
    (later.parent? (Heap.inside_alloc _ _)).trans (Heap.parent?_new _ _ _)
  have global : ofNamespace.2.parent? ofGlobal.1 = some ofBase.1 :=
    (last.parent? (Heap.inside_alloc _ _)).trans (Heap.parent?_new _ _ _)
  exact ⟨List.nodup_nil, .next global (.next base (.last empty)), Heap.parent?_new _ _ _, nofun⟩

theorem parent?_attach (owned : environments.Sound heap) (name : String)
    (there : env.index < heap.size) (apart : env ≠ environments.global) :
    (environments.attach heap name).2.2.parent? env = heap.parent? env := by
  cases unknown : environments.packages.get? name with
  | some env => rw [attach_known unknown]
  | none => exact (spliced_attach owned unknown).parents env there apart

theorem names_attach (environments : Environments) (heap : Heap) (name : String) :
    (environments.attach heap name).2.1.packages.names =
      addName environments.packages.names name := by
  rw [addName]
  cases unknown : environments.packages.get? name with
  | none =>
      rw [attach_unknown unknown]
      exact Mapping.names_insert _ _ _
  | some env =>
      rw [attach_known unknown, if_pos (Mapping.mem_names_of_get? unknown)]

theorem names_loadNamespace (environments : Environments) (heap : Heap) (name : String) :
    (environments.loadNamespace heap name).2.1.namespaces.names =
      addName environments.namespaces.names name := by
  rw [addName]
  cases unknown : environments.namespaces.get? name with
  | none =>
      rw [loadNamespace_unknown unknown]
      exact Mapping.names_insert _ _ _
  | some env =>
      rw [loadNamespace_known unknown, if_pos (Mapping.mem_names_of_get? unknown)]

/-- Neither call gives a context another one of its fixed environments, nor packages for namespaces
or the other way round. -/
theorem attach_rest (environments : Environments) (heap : Heap) (name : String) :
    (environments.attach heap name).2.1.global = environments.global ∧
      (environments.attach heap name).2.1.namespaces = environments.namespaces := by
  unfold Environments.attach
  split <;> exact ⟨rfl, rfl⟩

theorem loadNamespace_rest (environments : Environments) (heap : Heap) (name : String) :
    (environments.loadNamespace heap name).2.1.global = environments.global ∧
      (environments.loadNamespace heap name).2.1.packages = environments.packages := by
  unfold Environments.loadNamespace
  split <;> exact ⟨rfl, rfl⟩

end Environments

theorem eraseDups_concat (names : List String) (name : String) :
    (names ++ [name]).eraseDups = addName names.eraseDups name := by
  rw [← foldl_addName, List.foldl_append, foldl_addName]
  rfl

/-- The later heap has come of the earlier one, and every non-local environment is in the one that it
was in. -/
structure Heap.Anchors (before after : Heap) : Prop where
  develops : before.Develops after
  parents : ∀ env, (before.body env).isNamed = true → after.parent? env = before.parent? env

namespace Heap.Anchors

variable {heap after : Heap}

theorem of_spares (develops : heap.Develops after) (spares : heap.Spares after) :
    heap.Anchors after := by
  refine ⟨develops, fun env isNamed => ?_⟩
  rw [parent?, parent?, frame?, frame?, body, body, spares.named env isNamed]

theorem define (env : Ref) (name : String) {value : Ref} (known : value.index < heap.size) :
    heap.Anchors (heap.define env name value) := by
  refine ⟨(Heap.Course.define env name known).develops, fun other _ => ?_⟩
  by_cases same : other = env
  · rw [same]
    cases framed : heap.frame? env with
    | none => rw [Heap.define, modifyFrame, framed]
    | some frame =>
        have written := heap.get_define_same name value (heap.frame?_eq_some.mp framed)
        have framed' := (frame?_eq_some _).mpr (congrArg Object.body written)
        rw [parent?, parent?, framed, framed']
        rfl
  · rw [parent?, parent?, frame?, frame?, body, body, heap.get_define_other name value same]

end Heap.Anchors

namespace Exchange

/-! ### Calls -/

/-- What is done with values, by a context or on its own. -/
inductive Work where
  /-- A new value that is neither a singleton nor an environment. -/
  | make (body : Body)
  /-- A new local environment. -/
  | enclose (parent : Ref)
  | define (env : Ref) (name : String) (value : Ref)
  /-- A message is materialized as far as it can be. -/
  | materialize (index : Nat) (message : Message)
  /-- Bytes are read as far as they can be. -/
  | unserialize (index : Nat) (bytes : Bytes)

inductive Call where
  | addContext (name : String) (codec : Codec)
  | attach (index : Nat) (name : String)
  | loadNamespace (index : Nat) (name : String)
  | work (work : Work)

/-- The heap after some work. -/
def afterWork (exchange : Exchange) : Work → Heap
  | .make body => (exchange.heap.alloc body).2
  | .enclose parent => (exchange.heap.allocLocal parent).2
  | .define env name value => exchange.heap.define env name value
  | .materialize index message =>
      match exchange.contexts[index]? with
      | none => exchange.heap
      | some context => (message.toValue context exchange.heap).2
  | .unserialize index bytes =>
      match exchange.contexts[index]? with
      | none => exchange.heap
      | some context =>
          match context.codec.unserialize context.environments bytes exchange.heap with
          | .ok _ heap => heap
          | .error _ heap => heap

def perform (exchange : Exchange) : Call → Exchange
  | .addContext name codec => (exchange.addContext name codec).2
  | .attach index name => (exchange.attach index name).2
  | .loadNamespace index name => (exchange.loadNamespace index name).2
  | .work work => { exchange with heap := exchange.afterWork work }

/-- The values of a call are there, and a codec works by the operations on heaps and leaves the
environments of contexts alone. Bytes may say whatever they like. -/
def Known (exchange : Exchange) : Call → Prop
  | .addContext _ codec => codec.Lawful ∧ codec.Sparing
  | .attach _ _ => True
  | .loadNamespace _ _ => True
  | .work (.make body) => body.copiesToItself = false ∧
      ∀ child ∈ body.children, child.index < exchange.heap.size
  | .work (.enclose parent) => parent.index < exchange.heap.size
  | .work (.define _ _ value) => value.index < exchange.heap.size
  | .work (.materialize _ message) => message.Known exchange.heap
  | .work (.unserialize _ _) => True

/-- The calls, one after the other, lead from one exchange to the other. -/
inductive Leads (start : Exchange) : List Call → Exchange → Prop where
  | start : Leads start [] start
  | call {calls : List Call} {exchange : Exchange} (leads : Leads start calls exchange) (call : Call)
      (known : exchange.Known call) : Leads start (calls ++ [call]) (exchange.perform call)

/-- The heap is sound, and the contexts have environments in it and codecs that keep it so. -/
structure Settled (exchange : Exchange) : Prop where
  sound : exchange.heap.Sound
  contexts : ∀ (index : Nat) (context : Context), exchange.contexts[index]? = some context →
    (context.codec.Lawful ∧ context.codec.Sparing) ∧ context.environments.Sound exchange.heap

variable {start exchange : Exchange} {index : Nat} {context : Context} {calls : List Call}
  {call : Call}

/-- Whatever work is done, it leaves the environments of contexts where they are. -/
theorem Settled.anchors (settled : exchange.Settled) {work : Work}
    (known : exchange.Known (.work work)) : exchange.heap.Anchors (exchange.afterWork work) := by
  cases work with
  | make body => exact .of_spares (Heap.Course.alloc known.1 known.2).develops (.alloc _ body)
  | enclose parent => exact .of_spares (Heap.Course.allocLocal known).develops (.alloc _ _)
  | define env name value => exact .define env name known
  | materialize index message =>
      rw [afterWork]
      split
      · exact .of_spares (.refl _) (.refl _)
      · rename_i context found
        obtain ⟨⟨lawful, sparing⟩, owned⟩ := settled.contexts index context found
        exact .of_spares (Message.develops_toValue lawful settled.sound.room owned known)
          (Message.spares_toValue sparing _ message)
  | unserialize index bytes =>
      rw [afterWork]
      split
      · exact .of_spares (.refl _) (.refl _)
      · rename_i context found
        obtain ⟨⟨lawful, sparing⟩, owned⟩ := settled.contexts index context found
        have develops := lawful context.environments bytes _ owned settled.sound.room
        have spares := sparing context.environments bytes exchange.heap
        unfold Ends at develops spares
        cases read : context.codec.unserialize context.environments bytes exchange.heap with
        | ok ref heap =>
            rw [read] at develops spares
            exact .of_spares develops.1 spares
        | error reason heap =>
            rw [read] at develops spares
            exact .of_spares develops spares

/-! ### Contexts that come to own environments -/

section Update

variable {step : Environments → Heap → Ref × Environments × Heap}

theorem updateEnvironments_absent (absent : exchange.contexts[index]? = none) :
    exchange.updateEnvironments index step = (none, exchange) := by
  simp only [updateEnvironments, absent]

theorem updateEnvironments_found (step : Environments → Heap → Ref × Environments × Heap)
    (found : exchange.contexts[index]? = some context) :
    exchange.updateEnvironments index step = (some (step context.environments exchange.heap).1,
      { exchange with
        heap := (step context.environments exchange.heap).2.2
        contexts := exchange.contexts.modify index fun old =>
          { old with environments := (step context.environments exchange.heap).2.1 } }) := by
  simp only [updateEnvironments, found]
  rfl

theorem context_update (step : Environments → Heap → Ref × Environments × Heap)
    (found : exchange.contexts[index]? = some context) (other : Nat) :
    (exchange.updateEnvironments index step).2.contexts[other]? =
      if index = other then
        some { context with environments := (step context.environments exchange.heap).2.1 }
      else exchange.contexts[other]? := by
  rw [updateEnvironments_found _ found, Array.getElem?_modify]
  by_cases same : index = other
  · rw [if_pos same, if_pos same, ← same, found]
    rfl
  · rw [if_neg same, if_neg same]

theorem Settled.update (settled : exchange.Settled)
    (found : exchange.contexts[index]? = some context)
    (taken : exchange.heap.Develops (step context.environments exchange.heap).2.2 ∧
      (step context.environments exchange.heap).2.1.Sound
        (step context.environments exchange.heap).2.2) :
    (exchange.updateEnvironments index step).2.Settled := by
  have heap := congrArg (fun result => result.2.heap)
    (updateEnvironments_found step found)
  obtain ⟨develops, owned⟩ := taken
  constructor
  · rw [heap]
    exact develops.sound settled.sound
  · intro other context' found'
    rw [context_update step found] at found'
    rw [heap]
    split at found'
    · cases found'
      exact ⟨(settled.contexts index context found).1, owned⟩
    · exact (settled.contexts other context' found').imp_right develops.environments

end Update

theorem context_addContext (name : String) (codec : Codec) (other : Nat) :
    (exchange.addContext name codec).2.contexts[other]? =
      if other = exchange.contexts.size then some (Context.create exchange.heap name codec).1
      else exchange.contexts[other]? :=
  Array.getElem?_push

theorem Settled.perform (settled : exchange.Settled) (known : exchange.Known call) :
    (exchange.perform call).Settled := by
  have sound := settled.sound
  have unchanged {heap : Heap} (develops : exchange.heap.Develops heap) :
      Settled { exchange with heap } :=
    ⟨develops.sound sound, fun index context found =>
      (settled.contexts index context found).imp_right develops.environments⟩
  cases call with
  | addContext name codec =>
      have develops := (Environments.course_create exchange.heap).develops
      refine ⟨develops.sound sound, fun index context found => ?_⟩
      rw [Exchange.perform, context_addContext] at found
      split at found
      · cases found
        exact ⟨known, Environments.sound_create exchange.heap⟩
      · exact (settled.contexts index context found).imp_right develops.environments
  | attach index name =>
      cases found : exchange.contexts[index]? with
      | none =>
          rw [Exchange.perform, Exchange.attach, updateEnvironments_absent found]
          exact settled
      | some context =>
          have attached := (settled.contexts index context found).2.attach sound name
          exact settled.update found (attached.imp_left Heap.Course.develops)
  | loadNamespace index name =>
      cases found : exchange.contexts[index]? with
      | none =>
          rw [Exchange.perform, Exchange.loadNamespace, updateEnvironments_absent found]
          exact settled
      | some context =>
          have loaded := (settled.contexts index context found).2.loadNamespace name
          exact settled.update found (loaded.imp_left Heap.Course.develops)
  | work work => exact unchanged (settled.anchors known).develops

theorem Settled.leads (settled : start.Settled) (leads : start.Leads calls exchange) :
    exchange.Settled := by
  induction leads with
  | start => exact settled
  | call leads call known ih => exact ih.perform known

/-! ### One context among the others -/

/-- The name of a package that the context is asked for. -/
def Call.attaches? (index : Nat) : Call → Option String
  | .attach other name => if other = index then some name else none
  | _ => none

/-- The name of a namespace that the context is asked for. -/
def Call.loads? (index : Nat) : Call → Option String
  | .loadNamespace other name => if other = index then some name else none
  | _ => none

/-- The names that calls ask for, each once, in the order in which they come first. -/
def asked (of : Call → Option String) (calls : List Call) : List String :=
  (calls.filterMap of).eraseDups

theorem asked_concat (of : Call → Option String) (calls : List Call) (call : Call) :
    asked of (calls ++ [call]) =
      match of call with
      | some name => addName (asked of calls) name
      | none => asked of calls := by
  rw [asked, asked, List.filterMap_append]
  cases named : of call with
  | none =>
      rw [List.filterMap_cons_none named, List.filterMap_nil, List.append_nil]
  | some name =>
      rw [List.filterMap_cons_some named, List.filterMap_nil]
      exact eraseDups_concat _ name

/-- A context whose environments stand as they should, with the packages and namespaces that it was
asked for, and a global environment that no other context has. -/
structure Oriented (exchange : Exchange) (index : Nat) (calls : List Call) (context : Context) :
    Prop where
  found : exchange.contexts[index]? = some context
  chained : context.environments.Chained exchange.heap
  packages : context.environments.packages.names = asked (Call.attaches? index) calls
  namespaces : context.environments.namespaces.names = asked (Call.loads? index) calls
  alone : ∀ (other : Nat) (context' : Context), exchange.contexts[other]? = some context' →
    other ≠ index → context'.environments.global ≠ context.environments.global

namespace Oriented

variable (oriented : exchange.Oriented index calls context) (settled : exchange.Settled)

include oriented

section Update

variable {step : Environments → Heap → Ref × Environments × Heap} {later : List Call}

theorem update_own
    (global : (step context.environments exchange.heap).2.1.global = context.environments.global)
    (chained : (step context.environments exchange.heap).2.1.Chained
      (step context.environments exchange.heap).2.2)
    (packages : (step context.environments exchange.heap).2.1.packages.names =
      asked (Call.attaches? index) later)
    (namespaces : (step context.environments exchange.heap).2.1.namespaces.names =
      asked (Call.loads? index) later) :
    (exchange.updateEnvironments index step).2.Oriented index later
      { context with environments := (step context.environments exchange.heap).2.1 } := by
  have found := context_update step oriented.found
  have heap := congrArg (fun result => result.2.heap)
    (updateEnvironments_found step oriented.found)
  refine ⟨(found index).trans (if_pos rfl), ?_, packages, namespaces, ?_⟩
  · rw [heap]
    exact chained
  · intro other context' found' apart
    rw [found, if_neg (Ne.symm apart)] at found'
    rw [global]
    exact oriented.alone other context' found' apart

theorem update_other {other : Nat} {context' : Context}
    (found' : exchange.contexts[other]? = some context') (apart : other ≠ index)
    (global : (step context'.environments exchange.heap).2.1.global = context'.environments.global)
    (parents : ∀ env, context.environments.Owns env →
      (step context'.environments exchange.heap).2.2.parent? env = exchange.heap.parent? env)
    (attached : asked (Call.attaches? index) later = asked (Call.attaches? index) calls)
    (loaded : asked (Call.loads? index) later = asked (Call.loads? index) calls) :
    (exchange.updateEnvironments other step).2.Oriented index later context := by
  have found := context_update step found'
  have heap := congrArg (fun result => result.2.heap)
    (updateEnvironments_found step found')
  refine ⟨?_, ?_, oriented.packages.trans attached.symm, oriented.namespaces.trans loaded.symm, ?_⟩
  · rw [found, if_neg apart]
    exact oriented.found
  · rw [heap]
    exact oriented.chained.later parents
  · intro third context'' found'' apart'
    rw [found] at found''
    split at found''
    · rename_i same
      cases found''
      rw [global]
      exact oriented.alone other context' found' apart
    · exact oriented.alone third context'' found'' apart'

end Update

include settled

theorem owned : context.environments.Sound exchange.heap :=
  (settled.contexts index context oriented.found).2

theorem work {work : Work} (known : exchange.Known (.work work)) :
    (exchange.perform (.work work)).Oriented index (calls ++ [.work work]) context where
  found := oriented.found
  chained := oriented.chained.later fun env owns => (settled.anchors known).parents env
    (Environments.isNamed_of_owns (oriented.owned settled) owns)
  packages := by rw [asked_concat]; exact oriented.packages
  namespaces := by rw [asked_concat]; exact oriented.namespaces
  alone := oriented.alone

theorem addContext (name : String) (codec : Codec) :
    (exchange.perform (.addContext name codec)).Oriented index
      (calls ++ [.addContext name codec]) context := by
  have owned := oriented.owned settled
  have extend := Environments.extends_create exchange.heap
  have old : index ≠ exchange.contexts.size := by
    intro same
    have found := oriented.found
    rw [same, Array.getElem?_size] at found
    cases found
  constructor
  · rw [perform, context_addContext, if_neg old]
    exact oriented.found
  · exact oriented.chained.later fun env ⟨kind, found⟩ => extend.parent? (owned.inside found)
  · rw [asked_concat]
    exact oriented.packages
  · rw [asked_concat]
    exact oriented.namespaces
  · intro other context' found' apart
    rw [perform, context_addContext] at found'
    split at found'
    · cases found'
      exact Environments.apart_create owned
    · exact oriented.alone other context' found' apart

theorem attach (other : Nat) (name : String) : ∃ context',
    (exchange.perform (.attach other name)).Oriented index (calls ++ [.attach other name])
      context' := by
  have owned := oriented.owned settled
  have loaded : asked (Call.loads? index) (calls ++ [.attach other name]) =
      asked (Call.loads? index) calls := asked_concat _ _ _
  have attached := asked_concat (Call.attaches? index) calls (.attach other name)
  have rest := fun environments => Environments.attach_rest environments exchange.heap name
  by_cases same : other = index
  · rw [same] at loaded attached ⊢
    rw [Call.attaches?, if_pos rfl] at attached
    refine ⟨_, oriented.update_own (rest _).1 (oriented.chained.attach owned settled.sound
      name) ?_ ?_⟩
    · rw [Environments.names_attach, oriented.packages, attached]
    · rw [(rest _).2, oriented.namespaces, loaded]
  · rw [Call.attaches?, if_neg same] at attached
    cases found' : exchange.contexts[other]? with
    | none =>
        refine ⟨context, ?_⟩
        rw [perform, Exchange.attach, updateEnvironments_absent found']
        exact ⟨oriented.found, oriented.chained, oriented.packages.trans attached.symm,
          oriented.namespaces.trans loaded.symm, oriented.alone⟩
    | some context' =>
        have owned' := (settled.contexts other context' found').2
        refine ⟨context, oriented.update_other found' same (rest _).1 ?_ attached loaded⟩
        intro env owns
        obtain ⟨kind, isOwn⟩ := owns
        apply Environments.parent?_attach owned' name (owned.inside isOwn)
        by_cases isGlobal : kind = .global
        · rw [isGlobal] at isOwn
          cases isOwn
          exact (oriented.alone other context' found' same).symm
        · exact Environments.global_apart owned isOwn isGlobal owned'

theorem loadNamespace (other : Nat) (name : String) : ∃ context',
    (exchange.perform (.loadNamespace other name)).Oriented index
      (calls ++ [.loadNamespace other name]) context' := by
  have owned := oriented.owned settled
  have attached : asked (Call.attaches? index) (calls ++ [.loadNamespace other name]) =
      asked (Call.attaches? index) calls := asked_concat _ _ _
  have loaded := asked_concat (Call.loads? index) calls (.loadNamespace other name)
  have rest := fun environments => Environments.loadNamespace_rest environments exchange.heap name
  by_cases same : other = index
  · rw [same] at loaded attached ⊢
    rw [Call.loads?, if_pos rfl] at loaded
    refine ⟨_, oriented.update_own (rest _).1 (oriented.chained.loadNamespace owned name)
      ?_ ?_⟩
    · rw [(rest _).2, oriented.packages, attached]
    · rw [Environments.names_loadNamespace, oriented.namespaces, loaded]
  · rw [Call.loads?, if_neg same] at loaded
    cases found' : exchange.contexts[other]? with
    | none =>
        refine ⟨context, ?_⟩
        rw [perform, Exchange.loadNamespace, updateEnvironments_absent found']
        exact ⟨oriented.found, oriented.chained, oriented.packages.trans attached.symm,
          oriented.namespaces.trans loaded.symm, oriented.alone⟩
    | some context' =>
        refine ⟨context, oriented.update_other found' same (rest _).1 ?_ attached loaded⟩
        intro env owns
        obtain ⟨kind, isOwn⟩ := owns
        exact (Environments.extends_loadNamespace _ _ _).parent? (owned.inside isOwn)

/-- Whatever is called next, the context stays oriented. -/
theorem perform (known : exchange.Known call) :
    ∃ context', (exchange.perform call).Oriented index (calls ++ [call]) context' := by
  cases call with
  | addContext name codec => exact ⟨context, oriented.addContext settled name codec⟩
  | attach other name => exact oriented.attach settled other name
  | loadNamespace other name => exact oriented.loadNamespace settled other name
  | work work => exact ⟨context, oriented.work settled known⟩

end Oriented

theorem oriented_addContext (settled : start.Settled) (name : String) (codec : Codec) :
    (start.addContext name codec).2.Oriented start.contexts.size []
      (Context.create start.heap name codec).1 := by
  refine ⟨?_, Environments.chained_create start.heap, rfl, rfl, ?_⟩
  · rw [context_addContext, if_pos rfl]
  · intro other context found apart
    rw [context_addContext, if_neg apart] at found
    exact (Environments.apart_create (settled.contexts other context found).2).symm

theorem Oriented.leads (settled : start.Settled) (oriented : start.Oriented index [] context)
    (leads : start.Leads calls exchange) : ∃ context', exchange.Oriented index calls context' := by
  induction leads with
  | start => exact ⟨context, oriented⟩
  | call leads call known ih =>
      obtain ⟨context', oriented'⟩ := ih
      exact oriented'.perform (settled.leads leads) known

theorem updateEnvironments_same {step : Environments → Heap → Ref × Environments × Heap} {env : Ref}
    (found : exchange.contexts[index]? = some context)
    (same : step context.environments exchange.heap = (env, context.environments, exchange.heap)) :
    exchange.updateEnvironments index step = (some env, exchange) := by
  have contexts : (exchange.contexts.modify index fun old =>
      { old with environments := context.environments }) = exchange.contexts := by
    apply Array.ext_getElem?
    intro other
    rw [Array.getElem?_modify]
    split
    · rename_i here
      rw [← here, found]
      rfl
    · rfl
  rw [updateEnvironments_found _ found, same]
  simp only [contexts]

/-- From its creation on, whatever a context is asked for and whatever is done besides: around its
global environment stand the packages that it attached, each once and the latest first, then base,
then the empty environment; its base namespace is in the global environment, and every namespace in
that of base. A package or a namespace that it knows is answered and nothing changes. None of the two
calls changes what a name is found to be from an environment whose chain has an end. -/
theorem searchPath_stays (settled : start.Settled) {name : String} {codec : Codec}
    (known : start.Known (.addContext name codec))
    (leads : (start.addContext name codec).2.Leads calls exchange) :
    let index := start.contexts.size
    ∃ context, exchange.contexts[index]? = some context ∧
      (context.environments.packages.names = asked (Call.attaches? index) calls ∧
        exchange.heap.Chain context.environments.global context.environments.searchPath ∧
        context.environments.searchPath.Nodup) ∧
      (context.environments.namespaces.names = asked (Call.loads? index) calls ∧
        exchange.heap.parent? context.environments.baseNamespace =
          some context.environments.global ∧
        ∀ name env, context.environments.find? (.namespaceEnv name) = some env →
          exchange.heap.parent? env = some context.environments.baseNamespace) ∧
      (∀ name ∈ context.environments.packages.names, ∃ env,
        context.environments.find? (.packageEnv name) = some env ∧
          exchange.attach index name = (some env, exchange)) ∧
      (∀ name ∈ context.environments.namespaces.names, ∃ env,
        context.environments.find? (.namespaceEnv name) = some env ∧
          exchange.loadNamespace index name = (some env, exchange)) ∧
      ∀ env links, env.index < exchange.heap.size → exchange.heap.Chain env links →
        ∀ name sought,
          (exchange.attach index name).2.heap.lookup env sought = exchange.heap.lookup env sought ∧
            (exchange.loadNamespace index name).2.heap.lookup env sought =
              exchange.heap.lookup env sought := by
  intro index
  have created : (start.addContext name codec).2.Settled := settled.perform known
  obtain ⟨context, oriented⟩ := (oriented_addContext settled name codec).leads created leads
  have settled' := created.leads leads
  have found := oriented.found
  have owned := oriented.owned settled'
  obtain ⟨_, path, baseNamespace, namespaces⟩ := oriented.chained
  refine ⟨context, found, ⟨oriented.packages, path, path.nodup⟩,
    ⟨oriented.namespaces, baseNamespace, namespaces⟩, ?_, ?_, ?_⟩
  · intro name member
    obtain ⟨env, isKnown⟩ := Mapping.get?_of_mem_names member
    exact ⟨env, isKnown, updateEnvironments_same found (Environments.attach_known isKnown)⟩
  · intro name member
    obtain ⟨env, isKnown⟩ := Mapping.get?_of_mem_names member
    exact ⟨env, isKnown, updateEnvironments_same found (Environments.loadNamespace_known isKnown)⟩
  · intro env links there chain name sought
    rw [Exchange.attach, updateEnvironments_found _ found, Exchange.loadNamespace,
      updateEnvironments_found _ found]
    exact ⟨Environments.lookup_attach owned settled'.sound chain there name sought,
      Environments.lookup_loadNamespace owned settled'.sound chain there name sought⟩

theorem settled_initial (registry : Registry) : (initial registry).Settled :=
  ⟨Heap.sound_initial, fun _ _ => nofun⟩

/-- Two packages, one of them attached twice, with an environment made and a name defined between. -/
theorem searchPath_twoPackages :
    let main := ((initial (.ofConfig .standard)).addContext "main" Codec.packed).2
    let calls : List Call := [.attach 0 "stats", .work (.enclose ⟨4⟩), .attach 0 "utils",
      .work (.define ⟨7⟩ "x" ⟨4⟩), .work (.unserialize 0 []), .attach 0 "stats"]
    let exchange := calls.foldl perform main
    main.Leads calls exchange ∧ exchange.heap.Chain ⟨4⟩ [⟨4⟩, ⟨8⟩, ⟨6⟩, ⟨3⟩, ⟨2⟩] ∧
      exchange.attach 0 "stats" = (some ⟨6⟩, exchange) := by
  intro main calls exchange
  have began : main.Leads [] main := .start
  have first := began.call (.attach 0 "stats") trivial
  have enclosed := first.call (.work (.enclose ⟨4⟩))
    (Nat.le_of_ble_eq_true (by decide +kernel))
  have second := enclosed.call (.attach 0 "utils") trivial
  have defined := second.call (.work (.define ⟨7⟩ "x" ⟨4⟩))
    (Nat.le_of_ble_eq_true (by decide +kernel))
  have refused := defined.call (.work (.unserialize 0 [])) trivial
  have leads : main.Leads calls exchange := refused.call (.attach 0 "stats") trivial
  obtain ⟨context, found, ⟨_, path, _⟩, _, known, _⟩ :=
    searchPath_stays (settled_initial (.ofConfig .standard))
      ⟨Codec.lawful_packed, Codec.sparing_packed⟩ leads
  have global : exchange.contexts[0]?.map (fun context => context.environments.global) =
      some ⟨4⟩ := by decide +kernel
  have links : exchange.contexts[0]?.map (fun context => context.environments.searchPath) =
      some [⟨4⟩, ⟨8⟩, ⟨6⟩, ⟨3⟩, ⟨2⟩] := by decide +kernel
  have packages : exchange.contexts[0]?.map (fun context => context.environments.packages) =
      some ⟨[("stats", ⟨6⟩), ("utils", ⟨8⟩)]⟩ := by decide +kernel
  have here : exchange.contexts[0]? = some context := found
  rw [here, Option.map_some, Option.some.injEq] at global links packages
  rw [global, links] at path
  rw [packages] at known
  obtain ⟨env, isKnown, answered⟩ := known "stats" List.mem_cons_self
  rw [Environments.find?, packages] at isKnown
  cases isKnown
  exact ⟨leads, path, answered⟩

end Exchange

end ValueChannels

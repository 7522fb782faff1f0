import ValueChannels.Proofs.Transfer.Parts

/-!
Every form of message is built as it describes a value, or something in it cannot be read. Main
statements: `builds` for all messages; `received_toValue`, `unchanged_toValue` and `ok_toValue` for
whole ones.
-/

namespace ValueChannels.Message

open Rebuilding

variable {heap : Heap} {owners : Ref → Prop}
  {before : Rebuild} {sending : Sending} {start stop : Stage}

section Forms

variable {context : Context}

theorem broken_part {message : Message} {parts : List Message} {err : ChannelError}
    (some : ∃ part ∈ parts, Broken context part err) (within : ∀ part ∈ parts, part ∈ message.parts) :
    Broken context message err := by
  obtain ⟨part, member, broken⟩ := some
  exact .part (within part member) broken

/-- A private copy belongs to the message that it was made for, and nobody has written to it. -/
theorem private_copy {done : Stage} {ref copy : Ref} (copies : sending.Copies done ref copy stop)
    (copying : (sending.origin.body ref).copiesToItself = false) (forward : start.UpTo done)
    (poised : Poised sending start stop before) :
    stop.known = done.known ∧ Between start stop copy ∧ Apart (· = copy) done before ∧
      sending.final.get copy = Object.fresh (sending.origin.body ref) ∧
      before.heap.get copy = Object.fresh (sending.origin.body ref) := by
  rcases copies with ⟨itself, _⟩ | ⟨above, below, known, fresh⟩
  · rw [copying] at itself
    cases itself
  · have own : Between start stop copy := ⟨Nat.le_trans forward.size above, below⟩
    refine ⟨known, own, ?_, fresh, (poised.intact copy (Or.inr own)).trans fresh⟩
    intro other same
    rw [same]
    exact ⟨above, Nat.lt_of_lt_of_le below (Nat.le_trans poised.below poised.room)⟩

theorem constructs_list {shell : Ref} {items : List Message}
    {attributes : Option (List (String × Message))} {filled : Stage} {refs contents : List Ref}
    (ofParts : ∀ part ∈ (Message.list shell items attributes).parts,
      Builds context sending heap part)
    (elements : Threads sending.Describes start items refs filled)
    (values : Threads sending.Describes filled ((attributes.getD []).map Prod.snd) contents stop)
    (poised : Poised sending start stop before) (apart : Apart (· = shell) stop before)
    (content : before.heap.get shell = Object.fresh (.list refs)) :
    Constructs heap (· = shell) start stop before
      (Message.build context (.list shell items attributes)) (fun result _ => result = shell)
      (fun _ after => ∃ elements filled values, after.heap.body shell = .list elements ∧
        Threads (Built context sending.final heap) before.progress items elements filled ∧
        Threads (Built context sending.final heap) filled ((attributes.getD []).map Prod.snd) values
          after.progress ∧
        Installed after.heap shell attributes values)
      (Broken context (.list shell items attributes)) := by
  have forward := Sending.upTo_describes elements
  have onward := Sending.upTo_describes values
  have fill := constructs_fill items [] refs
    (fun part member => ofParts part (List.mem_append_left _ member)) elements
    (poised.first onward) (apart.first onward) content elements.length.symm
  rw [build]
  refine poised.bind apart forward onward (fill.failing fun _ broken =>
    broken_part broken fun _ member => List.mem_append_left _ member) ?_
  rintro filled' middle ⟨here, elements, content'⟩ ready still _
  have list : middle.heap.body shell = .list elements := congrArg Object.body content'
  have accepts : acceptsAttributes middle.heap shell = true := by
    rw [acceptsAttributes_eq, list]
    rfl
  have furnish := constructs_furnish attributes
    (fun part member => ofParts part (List.mem_append_right _ member)) values ready still
    content' accepts
  rw [here]
  refine furnish.mono (fun _ _ ended => ended.1) ?_
    fun _ broken => broken_part broken fun _ member => List.mem_append_right _ member
  rintro _ after ⟨_, body'⟩ ⟨values, furnished, installed⟩ entered
  exact ⟨elements, _, values, body', entered elements content', furnished, installed⟩

theorem builds_list {shell : Ref} {items : List Message}
    {attributes : Option (List (String × Message))}
    (ofParts : ∀ part ∈ (Message.list shell items attributes).parts,
      Builds context sending heap part) :
    Builds context sending heap (.list shell items attributes) := by
  intro start stop ref before describes poised
  cases describes with
  | list body elements present names values copy =>
      rename_i filled done refs
      have forward := (Sending.upTo_describes elements).trans (Sending.upTo_describes values)
      have copying : (sending.origin.body ref).copiesToItself = false := by
        rw [body]
        rfl
      obtain ⟨known, own, apart, fresh, content⟩ := private_copy copy copying forward poised
      rw [body] at content
      have inner := constructs_list ofParts elements values (poised.first copy.upTo) apart content
      refine inner.enclose (fun _ _ => True) (.refl _ before) (.refl start) copy.upTo known
        (fun ref same => ?_) (fun _ _ _ => trivial) ?_
      · rw [same]
        exact Or.inl own
      · rintro result after here _ keeps ⟨elements, filled, values, list, entered, furnished,
          installed⟩
        rw [here]
        have kept := keeps shell (Or.inl own)
        refine .list ((congrArg Object.body kept).trans list) entered furnished ?_
        exact (congrArg Object.attributes kept).trans installed

/-- What the parts of an environment are when they are built one after the other. -/
def Filled (context : Context) (sent heap : Heap) (start : Progress) (env : Ref)
    (bindings : List (String × Message)) (parent : Option Message)
    (attributes : Option (List (String × Message))) (after : Rebuild) : Prop :=
  ∃ (contents values : List Ref) (enclosing : Option Ref) (bound enclosed : Progress),
    after.heap.body env = .environment
      { kind := .localEnv, bindings := ⟨(bindings.map Prod.fst).zip contents⟩
        parent := some (enclosing.getD context.environments.empty) } ∧
    Threads (Built context sent heap) start (bindings.map Prod.snd) contents bound ∧
    Threads (Built context sent heap) bound parent.toList enclosing.toList enclosed ∧
    Threads (Built context sent heap) enclosed ((attributes.getD []).map Prod.snd) values
      after.progress ∧
    Installed after.heap env attributes values

theorem poised_entered (poised : Poised sending start stop before) (parent : Ref)
    (upTo : start.UpTo stop) :
    Poised sending { start with known := start.known + 1 } stop
      (entered parent (UInt32.ofNat start.known) before) := by
  have size := size_entered parent (UInt32.ofNat start.known) before
  have above := poised.above
  have below := poised.below
  have room := poised.room
  have last := upTo.size
  refine ⟨above, below, by omega, ?_, keyed_entered poised.keyed parent⟩
  intro ref concerned
  have inside : ref.index < before.heap.size := by
    rcases concerned with old | ⟨_, own⟩
    · omega
    · omega
  exact (get_entered_old _ _ inside).trans (poised.intact ref concerned)

theorem constructs_parent {env : Ref} {frame : Frame} {enclosing : Option Ref} {next : Building Ref}
    {done built : Ref → Rebuild → Prop} {failed : ChannelError → Prop}
    (poised : Poised sending start stop before) (apart : Apart (· = env) stop before)
    (upTo : start.UpTo stop)
    (content : before.heap.get env = Object.fresh (.environment frame))
    (rest : ∀ state : Rebuild, state.progress = before.progress →
      Poised sending start stop state → Apart (· = env) stop state →
        state.heap.get env = Object.fresh (.environment
          { frame with parent := enclosing.or frame.parent }) →
          Constructs heap (· = env) start stop state next done built failed) :
    Constructs heap (· = env) start stop before
      (match enclosing with
        | some parent => do
            Rebuilding.changeHeap fun heap => heap.setParent env parent
            next
        | none => next) done built failed := by
  cases enclosing with
  | none => exact rest before rfl poised apart content
  | some parent =>
      refine poised.bind apart (.refl _) upTo (constructs_setParent poised.keyed content) ?_
      rintro _ state ⟨same, content'⟩ ready still _
      exact (rest state same ready still content').mono (fun _ _ ended => ended)
        (fun _ _ _ value _ => value) fun _ => id

theorem constructs_filled {env : Ref} {bindings : List (String × Message)}
    {parent : Option Message} {attributes : Option (List (String × Message))}
    {contents enclosing values : List Ref} {bound enclosed : Stage}
    (ofBindings : ∀ part ∈ bindings.map Prod.snd, Builds context sending heap part)
    (ofParent : ∀ part ∈ parent.toList, Builds context sending heap part)
    (ofAttributes : ∀ part ∈ (attributes.getD []).map Prod.snd,
      Builds context sending heap part)
    (defined : Threads sending.Describes start (bindings.map Prod.snd) contents bound)
    (around : Threads sending.Describes bound parent.toList enclosing enclosed)
    (furnished : Threads sending.Describes enclosed ((attributes.getD []).map Prod.snd) values stop)
    (poised : Poised sending start stop before) (apart : Apart (· = env) stop before)
    (content : before.heap.get env = Object.fresh (.environment
      { kind := .localEnv, bindings := Mapping.empty, parent := some context.environments.empty }))
    (distinct : (bindings.map Prod.fst).Nodup) :
    Constructs heap (· = env) start stop before
      (do
        buildBindings context env bindings
        let enclosing ← buildOptional context parent
        match enclosing with
        | some parent => do
            Rebuilding.changeHeap fun heap => heap.setParent env parent
            attach context env attributes
        | none => attach context env attributes)
      (fun result _ => result = env)
      (fun _ after =>
        Filled context sending.final heap before.progress env bindings parent attributes after)
      (fun err => (∃ part ∈ bindings.map Prod.snd, Broken context part err) ∨
        (∃ part ∈ parent.toList, Broken context part err) ∨
        ∃ part ∈ (attributes.getD []).map Prod.snd, Broken context part err) := by
  have first := Sending.upTo_describes defined
  have second := Sending.upTo_describes around
  have third := Sending.upTo_describes furnished
  have bind := constructs_bindings bindings ofBindings defined
    (poised.first (second.trans third)) (apart.first (second.trans third)) content distinct
  refine poised.bind apart first (second.trans third) (bind.failing fun _ => Or.inl) ?_
  rintro _ middle ⟨contents', length, content'⟩ ready still _
  have optional := constructs_optional parent ofParent around (ready.first third)
    (still.first third)
  refine ready.bind still second third (optional.failing fun _ broken => Or.inr (Or.inl broken)) ?_
  rintro enclosing' state ⟨_, same⟩ ready' still' _
  have content'' := (same env rfl).trans content'
  refine constructs_parent ready' still' third content'' ?_
  intro settled size ready'' still'' last
  have accepts : acceptsAttributes settled.heap env = true := by
    have body : settled.heap.body env = _ := congrArg Object.body last
    rw [acceptsAttributes_eq, body]
    rfl
  have furnish := constructs_furnish attributes ofAttributes furnished ready'' still'' last accepts
  refine furnish.mono (fun _ _ ended => ended.1) ?_ fun _ broken => Or.inr (Or.inr broken)
  rintro _ after ⟨_, body⟩ ⟨values', built, installed⟩ enclosedBuilt boundBuilt
  refine ⟨contents', values', enclosing', _, _, ?_, boundBuilt contents' length content',
    enclosedBuilt, ?_, installed⟩
  · rw [body]
    cases enclosing' <;> simp [Mapping.empty]
  · rw [← size]
    exact built

theorem builds_environment {id : UInt32} {bindings : List (String × Message)}
    {parent : Option Message} {attributes : Option (List (String × Message))}
    (sound : sending.origin.Sound)
    (ofParts : ∀ part ∈ (Message.environment id bindings parent attributes).parts,
      Builds context sending heap part) :
    Builds context sending heap (.environment id bindings parent attributes) := by
  intro start stop ref before describes poised
  cases describes with
  | environment body isLocal met bindingNames bindingValues enclosing present names values =>
      rename_i _ _ frame
      have first := Sending.upTo_describes bindingValues
      have second := Sending.upTo_describes enclosing
      have third := Sending.upTo_describes values
      rw [build]
      refine Ends.bind (Ends.modifyGet (Ends.bind (Ends.modifyGet ?_)))
      let env : Ref := ⟨before.heap.size⟩
      let begun := entered context.environments.empty (UInt32.ofNat start.known) before
      have content : begun.heap.get env = Object.fresh (.environment
          { kind := .localEnv, bindings := Mapping.empty
            parent := some context.environments.empty }) := get_entered_new _ _ before
      -- The environment is known before its parts are built: they may refer back to it.
      have ready : Poised sending { start with known := start.known + 1 } stop begun :=
        poised_entered poised _ ⟨Nat.le_of_succ_le ((first.trans second).trans third).known,
          ((first.trans second).trans third).size⟩
      have apart : Apart (· = env) stop begun := by
        intro ref same
        rw [same]
        exact ⟨Nat.le_trans poised.below poised.room, before.heap.inside_alloc _⟩
      have distinct : (Mapping.names (Mapping.empty : Mapping Ref) ++
          bindings.map Prod.fst).Nodup := by
        have inside : ref.index < sending.origin.size := by
          apply sending.origin.inside_of_body
          rw [body]
          intro impossible
          cases impossible
        rw [bindingNames]
        exact ((sound.object ref inside).frame frame body).1
      have inner := constructs_filled
        (fun part member => ofParts part (List.mem_append_left _ member))
        (fun part member => ofParts part (List.mem_append_right _ (List.mem_append_left _ member)))
        (fun part member => ofParts part (List.mem_append_right _ (List.mem_append_right _ member)))
        bindingValues enclosing values ready apart content distinct
      have single : Constructs heap (· = env) _ stop begun _ _ _
          (Broken context (.environment (UInt32.ofNat start.known) bindings parent attributes)) :=
        inner.failing (by
          rintro _ (broken | broken | broken)
          · exact broken_part broken fun _ member => List.mem_append_left _ member
          · exact broken_part broken fun _ member =>
              List.mem_append_right _ (List.mem_append_left _ member)
          · exact broken_part broken fun _ member =>
              List.mem_append_right _ (List.mem_append_right _ member))
      refine single.enclose (fun _ _ => True) (advances_entered _ _ before)
        ⟨Nat.le_succ _, Nat.le_refl _⟩ (.refl stop) rfl (fun ref same => ?_)
        (fun _ _ _ => trivial) ?_
      · rw [same]
        exact Or.inr (Nat.le_refl _)
      · rintro result after same advances keeps ⟨contents, values, enclosing, bound, enclosed, body',
          defined, around, furnished, installed⟩
        have size : begun.heap.size = before.heap.size + 1 := size_entered _ _ before
        have grown := advances.size
        rw [size] at grown
        have kept : heap.get env = after.heap.get env := keeps env (Or.inr ⟨Nat.le_refl _, grown⟩)
        have defined' := defined
        rw [progress_entered] at defined'
        rw [same]
        exact .environment rfl ((congrArg Object.body kept).trans body') defined' around
          furnished ((congrArg Object.attributes kept).trans installed)

theorem builds_promise {env value : Option Message} {expr : Bytes}
    (ofParts : ∀ part ∈ (Message.promise env value expr).parts,
      Builds context sending heap part) :
    Builds context sending heap (.promise env value expr) := by
  intro start stop ref before describes poised
  have threads : ∃ refs refs' middle, Threads sending.Describes start env.toList refs middle ∧
      Threads sending.Describes middle value.toList refs' stop := by
    cases describes with
    | evaluated _ _ _ content => exact ⟨_, _, _, .nil _, .cons content (.nil _)⟩
    | delayed _ _ _ content => exact ⟨_, _, _, .cons content (.nil _), .nil _⟩
  obtain ⟨refs, refs', middle, ofEnv, ofValue⟩ := threads
  have forward := Sending.upTo_describes ofEnv
  have onward := Sending.upTo_describes ofValue
  have apart : Apart (fun _ => False) stop before := fun _ impossible => impossible.elim
  rw [build]
  cases rebuilt : rebuildExpr context.codec expr with
  | error reason => exact Ends.throw ⟨.refl _ _, .expr rebuilt⟩
  | ok expr' =>
      refine poised.bind apart forward onward
        ((constructs_optional env (fun part member => ofParts part (List.mem_append_left _ member))
          ofEnv (poised.first onward) (apart.first onward)).failing fun _ broken =>
              broken_part broken fun _ member => List.mem_append_left _ member) ?_
      intro env' state _ ready still _
      refine ready.bind still onward (.refl _)
        ((constructs_optional value (fun part member =>
          ofParts part (List.mem_append_right _ member)) ofValue ready still).failing fun _ broken =>
              broken_part broken fun _ member => List.mem_append_right _ member) ?_
      intro value' state' _ ready' _ _
      refine (constructs_alloc ready'.keyed).mono (fun _ _ ended => ended) ?_ fun _ => id
      rintro ref after _ ⟨new, size, object⟩ content around
      rw [size]
      exact .promise new object rebuilt around content

/-- A message that was made of values of a sound heap meets a context whose environments are in
that heap and whose codec reads what the sender's codec writes. -/
structure Meets (sending : Sending) (context : Context) : Prop where
  sound : sending.origin.Sound
  bare : sending.origin.attributes Ref.null = none ∧ sending.origin.attributes Ref.unbound = none
  marked : Heap.Marked sending.origin.size sending.origin sending.final
  environments : context.environments.Sound sending.origin
  codec : sending.context.codec.Restores context.codec

/-- The values that are handed over apart from their attributes are vectors: the singletons have
no attributes. -/
theorem Meets.vector (meets : Meets sending context) {ref : Ref} {mapping : Attributes}
    (isPlain : (sending.origin.body ref).isPlain = true)
    (has : sending.origin.attributes ref = some mapping) :
    ∃ data, sending.origin.body ref = .vector data := by
  have inside : ref.index < sending.origin.size := by
    refine Nat.lt_of_not_le ?_
    intro outside
    rw [Heap.attributes, sending.origin.get_outside outside] at has
    cases has
  cases body : sending.origin.body ref with
  | vector data => exact ⟨data, rfl⟩
  | null =>
      rw [(meets.sound.null ref inside).mp body, meets.bare.1] at has
      cases has
  | unbound =>
      rw [(meets.sound.unbound ref).mp body, meets.bare.2] at has
      cases has
  | _ =>
      rw [body] at isPlain
      cases isPlain

theorem Poised.body_origin (poised : Poised sending start stop before) (meets : Meets sending context)
    {ref : Ref} (old : ref.index < sending.origin.size) :
    before.heap.body ref = sending.origin.body ref := by
  have same : before.heap.body ref = sending.final.body ref :=
    congrArg Object.body (poised.intact ref (Or.inl old))
  rw [same, meets.marked.body ref old]

theorem Poised.environments (poised : Poised sending start stop before)
    (meets : Meets sending context) : context.environments.Sound before.heap := by
  intro kind ref found
  rw [poised.body_origin meets (meets.environments.inside found)]
  exact meets.environments kind ref found

/-- What is read for an encoded value is an environment of the context or a new object, since it is
of the kind of the value. -/
theorem Poised.placed (poised : Poised sending start stop before) (meets : Meets sending context)
    {ref bare result : Ref} {detached after : Heap} {blob : Bytes}
    (isEncoded : (sending.origin.body ref).isEncoded = true)
    (detaches : sending.origin.Detached ref detached bare)
    (written : sending.context.codec.serialize detached bare = .ok blob)
    (read : context.codec.unserialize context.environments blob before.heap = .ok result after)
    (extend : before.heap.Extends after)
    (offered : context.environments.Offers before.heap after result) :
    Placed context before.heap after (sending.origin.kind ref) result := by
  have grown : sending.origin.size ≤ before.heap.size :=
    Nat.le_trans meets.marked.size poised.room
  have old {other : Ref} (inside : other.index < sending.origin.size) :
      after.body other = sending.origin.body other :=
    (congrArg Object.body (extend.same other (Nat.lt_of_lt_of_le inside grown))).trans
      (poised.body_origin meets inside)
  have kind : after.kind result = sending.origin.kind ref := by
    have same := meets.codec.kind detached bare blob (by rw [detaches.body]; exact isEncoded)
      written context.environments before.heap result after (poised.environments meets) read
    rw [same, Heap.kind, detaches.body]
    rfl
  have room := meets.sound.room
  rcases offered with made | rfl | rfl | ⟨sort, found⟩
  · exact Or.inr ⟨made.1, made.2, kind⟩
  · have there : Ref.null.index < sending.origin.size := Nat.lt_of_lt_of_le Nat.zero_lt_two room
    have isNull := (meets.sound.null Ref.null there).mpr rfl
    rw [Heap.kind, old there, isNull] at kind
    exact absurd kind.symm (Body.kind_of_isEncoded isEncoded).1
  · have isUnbound := (meets.sound.unbound Ref.unbound).mpr rfl
    have there : Ref.unbound.index < sending.origin.size := Nat.lt_of_lt_of_le Nat.one_lt_two room
    rw [Heap.kind, old there, isUnbound] at kind
    exact absurd kind.symm (Body.kind_of_isEncoded isEncoded).2
  · refine Or.inl ⟨⟨sort, found⟩, ?_⟩
    obtain ⟨frame, body, _⟩ := meets.environments _ _ found
    rw [← kind, Heap.kind, old (meets.environments.inside found), body]
    rfl

theorem Poised.refuses (poised : Poised sending start stop before) (meets : Meets sending context)
    {result : Ref} {after : Heap} (extend : before.heap.Extends after)
    (owns : context.environments.Owns result) :
    result.index < sending.origin.size ∧ ¬acceptsAttributes after result = true := by
  obtain ⟨kind, found⟩ := owns
  have inside := meets.environments.inside found
  obtain ⟨frame, body, same⟩ := poised.environments meets kind result found
  have there : result.index < before.heap.size :=
    (poised.environments meets).inside found
  have body' : after.body result = .environment frame :=
    (congrArg Object.body (extend.same result there)).trans body
  refine ⟨inside, ?_⟩
  rw [acceptsAttributes_eq, body', Body.isNamed, same, Environments.isLocal_of_find? found]
  exact Bool.false_ne_true

theorem builds_encoded {kind : ValueKind} {blob : Bytes}
    {attributes : Option (List (String × Message))} (meets : Meets sending context)
    (ofParts : ∀ part ∈ (Message.encoded kind blob attributes).parts,
      Builds context sending heap part) :
    Builds context sending heap (.encoded kind blob attributes) := by
  intro start stop ref before describes poised
  cases describes with
  | encoded isEncoded detached written copies present names values =>
      rename_i later bare detachedHeap
      have onward := Sending.upTo_describes values
      have forward : start.UpTo later := ⟨Nat.le_of_eq copies.2.symm, copies.1⟩
      have reads := meets.codec.reads context.environments blob before.heap
      rw [build]
      apply Ends.bind
      unfold Building.unserialize Ends
      unfold Ends at reads
      dsimp only
      cases read : context.codec.unserialize context.environments blob before.heap with
      | error reason heap =>
          rw [read] at reads
          refine ⟨⟨reads.size, fun ref inside _ => reads.same ref inside⟩, ?_⟩
          exact .blob read
      | ok result heap' =>
          rw [read] at reads
          obtain ⟨extend, offered, _⟩ := reads
          obtain ⟨begun, ready⟩ := poised.extended forward onward copies.2 extend
          have placed := poised.placed meets isEncoded detached written read extend offered
          -- What was read is either an environment of this context, which takes no attributes, or
          -- new.
          have place := placed.imp (fun owned => poised.refuses meets extend owned.1)
            fun made => And.intro made.1 made.2.1
          have above : stop.size ≤ before.heap.size := Nat.le_trans poised.below poised.room
          have apart : Apart (Takes heap' result) stop { before with heap := heap' } := by
            rintro other ⟨same, accepts⟩
            rw [same]
            rcases place with ⟨_, refuses⟩ | ⟨new, inside⟩
            · exact absurd accepts refuses
            · exact ⟨Nat.le_trans above new, inside⟩
          have attach := constructs_attach attributes ofParts values ready apart
            (place.imp And.left fun made => ⟨Nat.le_trans above made.1, made.2⟩)
          have wrong (err : ChannelError)
              (broken : ∃ part ∈ (attributes.getD []).map Prod.snd, Broken context part err) :
              Broken context (.encoded (sending.origin.kind ref) blob attributes) err :=
            broken_part broken fun _ member => member
          refine (attach.failing wrong).enclose
            (fun _ _ => True) begun forward (.refl stop) rfl (fun other takes => ?_)
            (fun _ _ _ => trivial) ?_
          · rcases place with ⟨_, refuses⟩ | ⟨new, _⟩
            · exact absurd takes.2 refuses
            · rw [takes.1]
              exact Or.inr new
          · rintro found after ⟨same, body, nothing⟩ advances keeps ⟨values, furnished, installed⟩
            -- From here on only the attributes of what was read are written, so the rest is as the
            -- codec left it.
            have kept {other : Ref} (new : before.heap.size ≤ other.index)
                (inside : other.index < heap'.size) : heap.get other = after.heap.get other :=
              keeps other (Or.inr ⟨new, Nat.lt_of_lt_of_le inside advances.size⟩)
            have spared {other : Ref} (new : before.heap.size ≤ other.index)
                (inside : other.index < heap'.size) (different : ¬Takes heap' result other) :
                heap.get other = heap'.get other := by
              refine (kept new inside).trans (advances.same other inside ?_)
              rintro (takes | own)
              · exact different takes
              · exact Nat.not_lt_of_le (Nat.le_trans above new) own.2
            rw [same]
            refine .encoded read placed ?_ ?_ furnished ?_
            · intro other new inside
              by_cases here : other = result
              · rw [here] at new inside ⊢
                exact (congrArg Object.body (kept new inside)).trans body
              · exact congrArg Object.body (spared new inside fun takes => here takes.1)
            · rintro other new inside (different | absent | refuses)
              · exact congrArg Object.attributes
                  (spared new inside fun takes => different takes.1)
              · have same' := kept new inside
                rw [nothing absent] at same'
                exact congrArg Object.attributes same'
              · exact congrArg Object.attributes (spared new inside fun takes => refuses takes.2)
            · intro something accepts
              rcases place with ⟨_, refuses⟩ | ⟨new, inside⟩
              · exact absurd accepts refuses
              · exact (congrArg Object.attributes (kept new inside)).trans
                  (installed something accepts)

theorem builds_attributed {base : Message} {attributes : List (String × Message)}
    (meets : Meets sending context)
    (ofParts : ∀ part ∈ (Message.attributed base attributes).parts,
      Builds context sending heap part) :
    Builds context sending heap (.attributed base attributes) := by
  intro start stop ref before describes poised
  cases describes with
  | attributed isPlain has names values copy =>
      rename_i done base mapping
      obtain ⟨data, body⟩ := meets.vector isPlain has
      have copying : (sending.origin.body ref).copiesToItself = false := by
        rw [body]
        rfl
      obtain ⟨known, own, apart, fresh, content⟩ :=
        private_copy copy copying (Sending.upTo_describes values) poised
      have last := copy.upTo
      rw [body] at fresh content
      have accepts : acceptsAttributes before.heap base = true := by
        have vector : before.heap.body base = .vector data := congrArg Object.body content
        rw [acceptsAttributes_eq, vector]
        rfl
      have furnish := constructs_furnish (some attributes)
        (fun part member => ofParts part (List.mem_cons_of_mem _ member)) values
        (poised.first last) apart content accepts
      have steps : build context (.attributed (.plain base) attributes) =
          attach context base (some attributes) := by
        rw [build, build, attach]
        rfl
      have wrong (err : ChannelError) (broken : ∃ part ∈ attributes.map Prod.snd, Broken context part err) :
          Broken context (.attributed (.plain base) attributes) err :=
        broken_part broken fun _ member => List.mem_cons_of_mem _ member
      rw [steps]
      refine (furnish.failing wrong).enclose
        (fun _ _ => True) (.refl _ before) (.refl start) last known (fun other same => ?_)
        (fun _ _ _ => trivial) ?_
      · rw [same]
        exact Or.inl own
      · rintro result after ⟨same, body'⟩ _ keeps ⟨values, furnished, installed⟩
        have kept := keeps base (Or.inl own)
        have copied : sending.final.body base = .vector data := congrArg Object.body fresh
        rw [same]
        refine .attributed (.plain _ base) ?_ furnished
          ((congrArg Object.attributes kept).trans installed)
        rw [copied, ← body']
        exact congrArg Object.body kept

theorem builds_reference {id : UInt32} :
    Builds context sending heap (.environmentRef id) := by
  intro start stop ref before describes poised
  cases describes with
  | reference isLocal met earlier =>
      rw [build]
      refine (constructs_resolve poised.keyed earlier).mono (fun _ _ _ => trivial) ?_ fun _ => id
      rintro env after same found
      rw [same]
      exact .reference found

end Forms

/-- Every message that describes a value is built, unless something in it cannot be read. -/
theorem builds {context : Context} (heap : Heap)
    (meets : Meets sending context) (message : Message) :
    Builds context sending heap message := by
  induction message using Message.induct with
  | step message ofParts =>
      cases message with
      | plain value =>
          intro start stop ref before describes poised
          cases describes
          rw [build]
          exact .pure poised.keyed trivial (.plain _ _)
      | list shell items attributes => exact builds_list ofParts
      | environment id bindings parent attributes => exact builds_environment meets.sound ofParts
      | environmentRef id => exact builds_reference
      | promise env value expr => exact builds_promise ofParts
      | encoded kind blob attributes => exact builds_encoded meets ofParts
      | attributed base attributes => exact builds_attributed meets ofParts

/-! ### Whole messages -/

/-- What is left of a message that was built: the value, and the environments by their numbers. -/
structure Received (context : Context) (sending : Sending) (message : Message) (result : Ref)
    (after : Heap) (table : List (UInt32 × Ref)) : Prop where
  built : Built context sending.final after { size := sending.final.size, known := [] } message result
    { size := after.size, known := table }
  ids : table.map Prod.fst = ((List.range sending.known.length).map UInt32.ofNat).reverse
  distinct : (table.map Prod.snd).Nodup

variable {context : Context} {message : Message} {ref : Ref}

theorem poised_start (sending : Sending) :
    Poised sending { known := 0, size := sending.origin.size }
      { known := sending.known.length, size := sending.final.size }
      { heap := sending.final, environments := [] } := by
  refine ⟨Nat.le_refl _, Nat.le_refl _, Nat.le_refl _, fun _ _ => rfl, rfl, List.nodup_nil, ?_⟩
  intro entry member
  cases member

/-- The receiver changes nothing that the sender had, whether it ends with a value or not. -/
theorem unchanged_toValue (meets : Meets sending context) (whole : sending.Whole message ref)
    {old : Ref} (inside : old.index < sending.origin.size) :
    (toValue context sending.final message).2.get old = sending.final.get old := by
  have constructs := builds sending.final meets message _ _ _ _ whole
    (poised_start sending)
  have spared : ¬Beside (fun _ => False) { known := 0, size := sending.origin.size }
      { known := sending.known.length, size := sending.final.size } old := by
    rintro (impossible | ⟨above, _⟩)
    · exact impossible
    · exact Nat.not_lt_of_le above inside
  have there : old.index < sending.final.size := Nat.lt_of_lt_of_le inside meets.marked.size
  unfold Constructs Ends at constructs
  unfold toValue
  split at constructs
  · rename_i result after ended
    rw [ended]
    exact constructs.1.same old there spared
  · rename_i err after ended
    rw [ended]
    exact constructs.1.same old there spared

/-- Whatever the receiver fails with comes from something in the message that it cannot read. -/
theorem broken_toValue {err : ChannelError} (meets : Meets sending context)
    (whole : sending.Whole message ref)
    (ended : (toValue context sending.final message).1 = .error err) : Broken context message err := by
  have constructs := builds sending.final meets message _ _ _ _ whole
    (poised_start sending)
  unfold Constructs Ends at constructs
  unfold toValue at ended
  split at constructs
  · rename_i result after built
    rw [built] at ended
    cases ended
  · rename_i reason after failed
    rw [failed] at ended
    cases ended
    exact constructs.2

/-- A message whose parts can all be read gives a value. -/
theorem ok_toValue (meets : Meets sending context) (whole : sending.Whole message ref)
    (readable : ∀ err, ¬Broken context message err) :
    ∃ result, (toValue context sending.final message).1 = .ok result := by
  cases ended : (toValue context sending.final message).1 with
  | ok result => exact ⟨result, rfl⟩
  | error err => exact absurd (broken_toValue meets whole ended) (readable err)

theorem received_toValue {result : Ref} {after : Heap} (meets : Meets sending context)
    (whole : sending.Whole message ref)
    (ended : toValue context sending.final message = (.ok result, after)) :
    ∃ table, Received context sending message result after table := by
  unfold toValue at ended
  split at ended
  · rename_i result' state steps
    cases ended
    have constructs := builds state.heap meets message _ _ _ _ whole (poised_start sending)
    obtain ⟨_, keyed, _, fromKept⟩ := Ends.ok constructs steps
    exact ⟨state.environments, fromKept fun _ _ => rfl, keyed.ids, keyed.distinct⟩
  · cases ended

end ValueChannels.Message

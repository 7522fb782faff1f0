import ValueChannels.Proofs.Transfer.Crossing

/-!
Structural transfer as an isomorphism of graphs. A value that comes across is received as the same
graph, in which the environments that a context owns are those of the receiver. Main statement:
`reproduced_transfer`.
-/

namespace ValueChannels

/-- What is made of the content of an object: the expression of a promise is written out and read
again. -/
def Content.reread : Content → Content
  | .promise expr => .promise expr.reread
  | other => other

namespace Message

variable {sending : Sending} {context : Context} {heap : Heap} {table : List (UInt32 × Ref)}
  {value sent received : Ref}

/-! ### Encoded parts -/

/-- What has become of an encoded value that holds no local environment. -/
structure Rendered (sending : Sending) (context : Context) (heap : Heap) (sent received : Ref) :
    Prop where
  content : heap.content received = sending.origin.content sent
  bare : (sending.origin.body sent).isNamed = false → sending.origin.attributes sent = none →
    heap.attributes received = none
  named : ∀ frame, sending.origin.body sent = .environment frame →
    context.environments.find? frame.kind = some received
  closure : ∀ function, sending.origin.body sent = .closure function → ∃ copy frame,
    heap.body received = .closure copy ∧ sending.origin.body function.env = .environment frame ∧
      context.environments.find? frame.kind = some copy.env

theorem rendered_new {body copy : Body} (sentBody : sending.origin.body sent = body)
    (copied : heap.body received = copy)
    (bare : sending.origin.attributes sent = none → heap.attributes received = none)
    (content : copy.content = body.content) (other : ∀ frame, body ≠ .environment frame)
    (closure : ∀ function, body = .closure function → ∃ copied frame,
      copy = .closure copied ∧ sending.origin.body function.env = .environment frame ∧
        context.environments.find? frame.kind = some copied.env) :
    Rendered sending context heap sent received := by
  subst sentBody copied
  exact ⟨content, fun _ => bare, fun frame body => absurd body (other frame), closure⟩

theorem rendered_settled {item : NodeItem} {before after : Heap}
    (arrival : Arrival sending context heap table)
    (isEncoded : (sending.origin.body sent).isEncoded = true)
    (isLeaf : sending.origin.IsLeaf sent item)
    (settles : item.Settles context.environments before received after)
    (bodies : ∀ other, before.size ≤ other.index → other.index < after.size →
      heap.body other = after.body other)
    (others : ∀ other, before.size ≤ other.index → other.index < after.size →
      sending.origin.attributes sent = none → heap.attributes other = after.attributes other) :
    Rendered sending context heap sent received := by
  -- Nothing changes a new object until its attributes are installed.
  have made (body : Body) (ended : (before.alloc body).2 = after) :
      heap.body (before.alloc body).1 = body ∧
        (sending.origin.attributes sent = none →
          heap.attributes (before.alloc body).1 = none) := by
    subst ended
    have new := before.get_alloc_new body
    have inside : (before.alloc body).1.index < (before.alloc body).2.size :=
      before.inside_alloc body
    constructor
    · exact (bodies _ (Nat.le_refl _) inside).trans (congrArg Object.body new)
    · intro nothing
      exact (others _ (Nat.le_refl _) inside nothing).trans (congrArg Object.attributes new)
  cases isLeaf with
  | named named =>
      obtain ⟨original, body, rfl, _⟩ := Heap.namedKind?_eq_some named
      cases settles with
      | named found =>
          obtain ⟨copy, copied, kind⟩ := arrival.environments _ _ found
          refine ⟨?_, ?_, ?_, ?_⟩
          · rw [Heap.content, copied, Heap.content, body, Body.content, Body.content, kind]
          · intro other
            rw [Body.isNamed_of_isEncoded isEncoded (congrArg Body.kind body)] at other
            cases other
          · intro frame body'
            rw [body] at body'
            cases body'
            exact found
          · intro function body'
            rw [body] at body'
            cases body'
  | closure body named =>
      obtain ⟨frame, around, rfl, _⟩ := Heap.namedKind?_eq_some named
      cases settles with
      | closure found =>
          obtain ⟨copied, bare⟩ := made _ rfl
          refine rendered_new body copied bare rfl (fun _ => Body.noConfusion) ?_
          intro function same
          cases same
          exact ⟨_, _, rfl, around, found⟩
  | language body =>
      cases settles
      obtain ⟨copied, bare⟩ := made _ rfl
      exact rendered_new body copied bare rfl (fun _ => Body.noConfusion) fun _ => Body.noConfusion
  | connection body =>
      cases settles
      obtain ⟨copied, bare⟩ := made _ rfl
      exact rendered_new body copied bare rfl (fun _ => Body.noConfusion) fun _ => Body.noConfusion

theorem Crossing.rendered (crossing : Crossing sending.context context sending.origin value)
    (arrival : Arrival sending context heap table)
    (leads : Leads (sending.origin.edges sending.context.environments.global) value sent)
    (mirrors : Mirrors sending context heap table sent received)
    (isEncoded : (sending.origin.body sent).isEncoded = true) :
    Rendered sending context heap sent received := by
  cases mirrors with
  | encoded isEncoded taken written room read place bodies others parts furnished =>
      rename_i before after blob _
      obtain ⟨item, blob', leaf, written', reads⟩ := crossing.encodes leads isEncoded taken
      rw [written] at written'
      cases written'
      obtain ⟨received', after', read', settles⟩ := reads before
      rw [read] at read'
      cases read'
      exact rendered_settled arrival isEncoded (Heap.isLeaf leaf) settles bodies
        fun other new inside nothing => others other new inside (Or.inr (Or.inl nothing))
  | same inside deep =>
      have data := arrival.isData inside deep
      rw [Body.isData_of_isEncoded isEncoded] at data
      cases data
  | environment body isLocal =>
      rw [body, Body.isEncoded, isLocal] at isEncoded
      cases isEncoded
  | list body | promise body | attributed body =>
      rw [body] at isEncoded
      cases isEncoded

/-! ### Whole values -/

/-- What belongs together has the same content, with expressions of promises read again. -/
theorem Crossing.content (crossing : Crossing sending.context context sending.origin value)
    (arrival : Arrival sending context heap table)
    (leads : Leads (sending.origin.edges sending.context.environments.global) value sent)
    (mirrors : Mirrors sending context heap table sent received) :
    heap.content received = (sending.origin.content sent).reread := by
  have encoded := crossing.rendered arrival leads mirrors
  unfold Heap.content at encoded ⊢
  cases mirrors with
  | same inside deep =>
      have data := arrival.isData inside deep
      rw [arrival.spares.body inside]
      cases body : sending.origin.body sent <;> rw [body] at data <;> first | rfl | cases data
  | list body new copied =>
      rw [body, copied]
      rfl
  | attributed body new copied =>
      rw [body, copied]
      rfl
  | environment body isLocal met housed new copied =>
      rw [body, copied, Body.content, Body.content, EnvironmentKind.eq_localEnv isLocal]
      rfl
  | promise body new copied written rebuilt =>
      obtain ⟨expr, written', rebuilt'⟩ := crossing.delays leads body
      rw [written] at written'
      cases written'
      have same := Except.ok.inj (rebuilt.symm.trans rebuilt')
      have copied' := congrArg Object.body copied
      rw [body, show heap.body received = _ from copied']
      exact congrArg Content.promise same
  | encoded isEncoded =>
      refine (encoded isEncoded).content.trans ?_
      show (sending.origin.body sent).content = (sending.origin.body sent).content.reread
      cases body : sending.origin.body sent <;> rw [body] at isEncoded <;>
        first | rfl | cases isEncoded

theorem Mirrors.bare_promise (arrival : Arrival sending context heap table)
    (mirrors : Mirrors sending context heap table sent received)
    (isPromise : (heap.body received).isPromise = true) : heap.attributes received = none := by
  have sentPromise : (sending.origin.body sent).isPromise = true := by
    rw [Body.isPromise_iff_kind] at isPromise ⊢
    exact (mirrors.kind arrival).symm.trans isPromise
  cases mirrors with
  | promise body new copied => exact congrArg Object.attributes copied
  | same inside deep =>
      rw [Body.isPromise_of_isData (arrival.isData inside deep)] at sentPromise
      cases sentPromise
  | encoded isEncoded =>
      rw [Body.isPromise_of_isEncoded isEncoded] at sentPromise
      cases sentPromise
  | list body | environment body | attributed body =>
      rw [body] at sentPromise
      cases sentPromise

theorem Crossing.owned (crossing : Crossing sending.context context sending.origin value)
    (arrival : Arrival sending context heap table)
    (leads : Leads (sending.origin.edges sending.context.environments.global) value sent)
    (mirrors : Mirrors sending context heap table sent received) {frame : Frame}
    (body : sending.origin.body sent = .environment frame) (other : frame.kind.isLocal = false) :
    context.environments.find? frame.kind = some received := by
  have isEncoded : (sending.origin.body sent).isEncoded = true := by
    rw [body, Body.isEncoded, other]
    rfl
  exact (crossing.rendered arrival leads mirrors isEncoded).named frame body

/-- Ways out of what belongs together belong together, and the value leads to where they go. -/
theorem Crossing.parallel (crossing : Crossing sending.context context sending.origin value)
    (arrival : Arrival sending context heap table)
    (leads : Leads (sending.origin.edges sending.context.environments.global) value sent)
    (mirrors : Mirrors sending context heap table sent received) :
    Parallel
      (fun first second =>
        Leads (sending.origin.edges sending.context.environments.global) value first ∧
          Mirrors sending context heap table first second)
      (sending.origin.edges sending.context.environments.global sent)
      (heap.edges context.environments.global received) := by
  have described := mirrors.parallel arrival fun isEncoded other =>
    (crossing.rendered arrival leads mirrors isEncoded).bare other
  rw [Heap.described_eq_edges fun isPromise => crossing.bare sent leads (Or.inl isPromise),
    Heap.described_eq_edges (mirrors.bare_promise arrival)] at described
  have onward : ∀ way ∈ sending.origin.edges sending.context.environments.global sent,
      Leads (sending.origin.edges sending.context.environments.global) value way.2 := by
    intro way member
    exact crossing.next leads (Heap.conveyed_of_edges (List.mem_map_of_mem member))
  refine ((List.forall₂_and_left _ _).mpr ⟨onward, described⟩).imp ?_
  rintro first second ⟨leads', same, mirrors'⟩
  exact ⟨same, leads', mirrors'⟩

theorem Crossing.arrives {sender receiver : Context} {heap : Heap}
    (crossing : Crossing sender receiver heap value) :
    ∃ message sent copy after known table, ofValue sender heap value = (.ok message, sent) ∧
      toValue receiver sent message = (.ok copy, after) ∧
      Arrival { context := sender, origin := heap, final := sent, known } receiver after table ∧
      Mirrors { context := sender, origin := heap, final := sent, known } receiver after table
        value copy := by
  obtain ⟨message, sent, prepared⟩ := crossing.prepares
  obtain ⟨known, converted⟩ :=
    sent_ofValue crossing.clean.sound crossing.global crossing.inside prepared
  let sending : Sending := { context := sender, origin := heap, final := sent, known }
  have crossing' : Crossing sending.context receiver sending.origin value := crossing
  have readable : ∀ err, ¬Broken receiver message err := crossing'.readable converted.whole (.refl _ _)
  obtain ⟨copy, done⟩ := ok_toValue (crossing.meets known converted.marked) converted.whole readable
  have ended : toValue receiver sent message = (.ok copy, (toValue receiver sent message).2) :=
    Prod.ext done rfl
  obtain ⟨known', table, arrival, mirrors⟩ := crossing.toTransit.arrives prepared ended
  exact ⟨message, sent, copy, _, known', table, prepared, ended, arrival, mirrors⟩

/-- Everything that the value leads to comes across: the same graph is received, and the environment
of every function is the one that the receiver owns. -/
theorem reproduced_transfer {sender receiver : Context} {heap : Heap} {value : Ref}
    (crossing : Crossing sender receiver heap value) :
    ∃ message sent copy after, ofValue sender heap value = (.ok message, sent) ∧
      toValue receiver sent message = (.ok copy, after) ∧
      Reproduced (fun first second => second = first.reread) receiver.environments heap after
        (heap.edges sender.environments.global) (after.edges receiver.environments.global)
        value copy ∧
      ∀ path first second function,
        follow? (heap.edges sender.environments.global) value path = some first →
          follow? (after.edges receiver.environments.global) copy path = some second →
            heap.body first = .closure function → ∃ function' frame,
              after.body second = .closure function' ∧
                heap.body function.env = .environment frame ∧
                  receiver.environments.find? frame.kind = some function'.env := by
  obtain ⟨message, sent, copy, after, known, table, prepared, ended, arrival, mirrors⟩ :=
    crossing.arrives
  let sending : Sending := { context := sender, origin := heap, final := sent, known }
  have crossing' : Crossing sending.context receiver sending.origin value := crossing
  -- What belongs together, as far as paths from the value get.
  let Pair (first second : Ref) : Prop :=
    Leads (heap.edges sender.environments.global) value first ∧
      Mirrors sending receiver after table first second
  have start : Pair value copy := ⟨.refl _ _, mirrors⟩
  have parallel (first second : Ref) (pair : Pair first second) :=
    crossing'.parallel arrival pair.1 pair.2
  refine ⟨message, sent, copy, after, prepared, ended, ?_, ?_⟩
  · apply reproduced_of_rel start _ parallel
    · intro first first' second second' pair pair' isLocal
      exact pair.2.same_iff arrival pair'.2 isLocal
    · intro first second frame pair body other
      exact crossing'.owned arrival pair.1 pair.2 body other
    · intro first second pair
      exact crossing'.content arrival pair.1 pair.2
  · intro path first second function here there body
    have pair : Pair first second := related_of_follow? start parallel here there
    have isEncoded : (sending.origin.body first).isEncoded = true := by
      rw [show sending.origin.body first = .closure function from body]
      rfl
    exact (crossing'.rendered arrival pair.1 pair.2 isEncoded).closure function body

/-- What the list leads to. -/
def TwicePart (ref : Ref) : Prop :=
  ref = ⟨12⟩ ∨ ref = ⟨11⟩ ∨ ref = ⟨10⟩ ∨ ref = ⟨4⟩

theorem closed_twicePart : ∀ ref, TwicePart ref →
    ∀ child ∈ (twiceHeap.edges sampleSender.environments.global ref).map Prod.snd,
      TwicePart child := by
  unfold TwicePart
  rintro ref (rfl | rfl | rfl | rfl)
  · decide
  · decide
  · decide
  · decide

theorem crossing_twice : Crossing sampleSender sampleReceiver twiceHeap ⟨12⟩ := by
  have parts (ref : Ref)
      (leads : Leads (twiceHeap.edges sampleSender.environments.global) ⟨12⟩ ref) : TwicePart ref :=
    leads.induct (Or.inl rfl) closed_twicePart
  refine ⟨transit_twice, ?_, ?_, ?_, ?_, ?_, ?_⟩
  · refine Heap.grounded_of_rank TwicePart Ref.index (Or.inl rfl) closed_twicePart ?_
    rintro ref (rfl | rfl | rfl | rfl)
    · decide
    · decide
    · decide
    · decide
  · intro ref leads _
    rcases parts ref leads with rfl | rfl | rfl | rfl
    · rfl
    · rfl
    · rfl
    · rfl
  · intro ref function leads body
    rcases parts ref leads with rfl | rfl | rfl | rfl
    · cases body
    · cases body
      rfl
    · cases body
    · cases body
  · intro ref kind leads names
    rcases parts ref leads with rfl | rfl | rfl | rfl
    · rcases names with named | ⟨_, body, _⟩
      · cases named
      · cases body
    · rcases names with named | ⟨_, body, named⟩
      · cases named
      · cases body
        cases named
        exact ⟨_, rfl⟩
    · rcases names with named | ⟨_, body, _⟩
      · cases named
      · cases body
    · rcases names with named | ⟨_, body, _⟩
      · cases named
        exact ⟨_, rfl⟩
      · cases body
  · intro ref item leads leaf
    rcases parts ref leads with rfl | rfl | rfl | rfl
    · cases leaf
    · cases leaf
      decide +kernel
    · cases leaf
    · cases leaf
      decide +kernel
  · intro ref delayed leads body
    rcases parts ref leads with rfl | rfl | rfl | rfl
    · cases body
    · cases body
    · cases body
    · cases body

theorem reproduced_twice : ∃ message sent copy after,
    ofValue sampleSender twiceHeap ⟨12⟩ = (.ok message, sent) ∧
      toValue sampleReceiver sent message = (.ok copy, after) ∧
      Reproduced (fun first second => second = first.reread) sampleReceiver.environments twiceHeap
        after (twiceHeap.edges sampleSender.environments.global)
        (after.edges sampleReceiver.environments.global) ⟨12⟩ copy := by
  obtain ⟨message, sent, copy, after, prepared, ended, reproduced, _⟩ :=
    reproduced_transfer crossing_twice
  exact ⟨message, sent, copy, after, prepared, ended, reproduced⟩

end Message

end ValueChannels

import ValueChannels.Proofs.Transfer.Footprint
import ValueChannels.Proofs.Transfer.Refusal
import ValueChannels.Proofs.Transfer.Sharing

/-!
Functions that lead back to themselves. The attributes of a function are taken off while it is
written, so wherever the function comes up again inside its own environment it is written without
them; every other object there keeps its own. Main statement: `reentry_transfer`, with
`bare_reentry` for a function that is bound in its own environment.
-/

namespace ValueChannels

open Pack

/-! ### The copy of a function is made last -/

theorem Environments.Sound.inside_old {environments : Environments} {heap : Heap} {ref : Ref}
    (owned : environments.Sound heap) (room : 2 ≤ heap.size)
    (old : ref = Ref.null ∨ ref = Ref.unbound ∨ environments.Owns ref) :
    ref.index < heap.size := by
  rcases old with rfl | rfl | ⟨kind, found⟩
  · exact Nat.lt_of_lt_of_le Nat.zero_lt_two room
  · exact Nat.lt_of_lt_of_le Nat.one_lt_two room
  · exact owned.inside found

theorem Node.ofValue_closure {heap : Heap} {ref : Ref} {function : Closure} {node : Node}
    (body : heap.body ref = .closure function) (bare : heap.attributes ref = none)
    (made : Node.ofValue heap ref = .ok node) :
    ∃ env, node = .bare (.closure function.formals function.body env) := by
  have body' : (heap.get ref).body = .closure function := body
  have bare' : (heap.get ref).attributes = none := bare
  obtain ⟨depth, positive⟩ := depthBound_eq_succ heap
  unfold ofValue at made
  cases ran : encodeWithin heap (depthBound heap) ref [] with
  | error reason =>
      rw [ran] at made
      cases made
  | ok result =>
      rw [ran] at made
      cases made
      obtain ⟨node, known⟩ := result
      rw [positive, encodeWithin] at ran
      obtain ⟨item, middle, first, second⟩ := stateT_bind_ok ran
      rw [body', encodeBody] at first
      obtain ⟨env, _, _, last⟩ := stateT_bind_ok first
      obtain ⟨same, _⟩ := stateT_pure_ok last
      rw [same, bare'] at second
      obtain ⟨attributes, _, third, last'⟩ := stateT_bind_ok second
      obtain ⟨same', _⟩ := stateT_pure_ok last'
      obtain ⟨nothing, _⟩ := stateT_pure_ok third
      rw [same', nothing]
      exact ⟨env, rfl⟩

/-- A function without attributes is the last object that the reader makes, and none of the new
objects refers to it. -/
theorem Node.ends_closure {environments : Environments} {target : Heap} (sound : target.Sound)
    (owned : environments.Sound target) (formals : List String) (body : Expr) (env : Node) :
    Ends ((Node.bare (.closure formals body env)).decode environments)
      { heap := target, environments := [] }
      (fun copy after => target.size ≤ copy.index ∧ copy.index < after.heap.size ∧
        ∀ new, target.size ≤ new.index → new.index < after.heap.size →
          copy ∉ (after.heap.get new).children)
      (fun _ _ => True) := by
  rw [bare, decode, NodeItem.decode]
  refine Ends.bind (Ends.bind (((unpacks environments env) target _
    (.start environments target)).mono ?_ fun _ _ _ => trivial))
  rintro env middle ⟨unpacked, offered⟩
  refine Ends.modifyGet (Ends.pure ?_)
  have extend := unpacked.unpacking.extend
  have below {child : Ref} (offers : environments.Offers target middle.heap child) :
      child.index < middle.heap.size := by
    rcases offers with made | old
    · exact made.2
    · exact Nat.lt_of_lt_of_le (owned.inside_old sound.room old) extend.size
  refine ⟨extend.size, ?_, ?_⟩
  · exact middle.heap.inside_alloc _
  · intro new above inside member
    rcases middle.heap.inside_alloc_cases (.closure { formals, body, env }) inside with here | same
    · have old : (middle.heap.alloc (.closure { formals, body, env })).2.get new =
          middle.heap.get new := middle.heap.get_alloc_old _ here
      rw [old] at member
      exact Nat.lt_irrefl _ (below (unpacked.unpacking.closed new above here _ member))
    · rw [same, Heap.get_alloc_new, Heap.children_fresh] at member
      have last : middle.heap.size = env.index := congrArg Ref.index (List.mem_singleton.mp member)
      exact Nat.lt_irrefl _ (last ▸ below offered)

theorem Codec.carries_closure {source target : Heap} {value : Ref} {environments : Environments}
    {function : Closure} (passage : Passage source value target environments)
    (grounded : source.Grounded source.links value) (fits : source.Fits value)
    (body : source.body value = .closure function) (bare : source.attributes value = none) :
    ∃ bytes copy after, packed.serialize source value = .ok bytes ∧
      packed.unserialize environments bytes target = .ok copy after ∧
      Reproduced Eq environments source after source.links after.links value copy ∧
      target.size ≤ copy.index ∧ copy.index < after.size ∧
      ∀ new, target.size ≤ new.index → new.index < after.size →
        copy ∉ (after.get new).children := by
  obtain ⟨node, known, made, met, depicts⟩ :=
    Node.depicts_ofValue passage.written.sound passage.inside grounded
  have few : known.length ≤ UInt32.size := by
    apply fits.numbers known met.distinct
    intro env member
    obtain ⟨leads, _, isLocal⟩ := met.among env member
    exact ⟨leads, isLocal⟩
  obtain ⟨copy, after, decoded, _, keyed, depicts'⟩ := Node.decode_depicts passage depicts few
  have packable : node.toItem.Packable :=
    node.packable ⟨fits.lengths node made, fits.shallow node made⟩
  have read : readPacked Node.decoder node.toItem.write = .ok node :=
    readPacked_write packable (Node.decodes _ node)
  refine ⟨node.toItem.write, copy, after.heap, ?_, ?_, ?_, ?_⟩
  · simp only [packed, made]
    rfl
  · simp only [packed, unserializePacked, read, decoded]
  · have numbered : after.environments.reverse.map Prod.snd =
        (after.environments.map Prod.snd).reverse := List.map_reverse
    have distinct : (after.environments.reverse.map Prod.snd).Nodup := by
      rw [numbered, List.nodup_reverse]
      exact keyed.distinct
    have length : (after.environments.reverse.map Prod.snd).length ≤ UInt32.size := by
      rw [numbered, List.length_reverse, List.length_map, keyed.length]
      exact few
    exact depicts.reproduced depicts' ⟨met.distinct, few⟩ ⟨distinct, length⟩ fun _ _ owns => owns
  · obtain ⟨env, same⟩ := Node.ofValue_closure body bare made
    rw [same] at decoded
    exact (Node.ends_closure passage.read.sound passage.owned function.formals function.body
      env).ok decoded

/-! ### What is read stays as it is -/

theorem Heap.links_congr {before after : Heap} {ref : Ref} (same : after.get ref = before.get ref) :
    after.links ref = before.links ref := by
  unfold links body attributes
  rw [same]

theorem follow?_kept {ways others : Ref → List (Edge × Ref)} {inner : Ref → Prop}
    (same : ∀ ref, inner ref → others ref = ways ref)
    (closed : ∀ ref, inner ref → ∀ child ∈ (ways ref).map Prod.snd, inner child) {start last : Ref}
    {path : List Edge} (here : inner start) (walked : follow? ways start path = some last) :
    follow? others start path = some last ∧ inner last := by
  have step : ∀ first second edge next, (first = second ∧ inner first) →
      (ways first).lookup edge = some next →
        ∃ other, (others second).lookup edge = some other ∧ next = other ∧ inner next := by
    rintro first second edge next ⟨rfl, among⟩ found
    refine ⟨next, ?_, rfl, closed first among next (List.mem_map_of_mem (mem_of_lookup found))⟩
    rw [same first among]
    exact found
  obtain ⟨other, walked', rfl, among⟩ := follow?_forward step path ⟨rfl, here⟩ walked
  exact ⟨walked', among⟩

namespace Message

variable {context : Context} {heap sent after : Heap} {ref copy : Ref} {message : Message}

theorem written_closure {function : Closure} (sound : heap.Sound)
    (body : heap.body ref = .closure function)
    (prepared : ofValue context heap ref = (.ok message, sent)) :
    ∃ blob attributes, context.codec.serialize (heap.replaceAttributes ref none) ref = .ok blob ∧
      message = .encoded .closure blob attributes := by
  have inside : ref.index < heap.size := by
    apply heap.inside_of_body
    rw [body]
    exact fun impossible => nomatch impossible
  -- A function is never shared, so it is written with its attributes taken off and not from a copy.
  have unshared : heap.isShared ref = false := by
    cases shared : heap.isShared ref with
    | false => rfl
    | true =>
        have shareable : (heap.body ref).isShareable = true := (sound.object ref inside).shared shared
        rw [body] at shareable
        cases shareable
  have encoded : (heap.body ref).isEncoded = true := by
    rw [body]
    rfl
  have accepted : (ofValue context heap ref).1 = .ok message → ∃ blob attributes,
      context.codec.serialize (heap.replaceAttributes ref none) ref = .ok blob ∧
        message = .encoded .closure blob attributes := by
    refine ofValue_encoded (fun outcome => outcome = .ok message → _) encoded fun convert => ?_
    have refused {err : ChannelError} (same : Except.error err = Except.ok message) :
        ∃ blob attributes,
          context.codec.serialize (heap.replaceAttributes ref none) ref = .ok blob ∧
            message = .encoded .closure blob attributes := by
      cases same
    unfold convertEncoded
    refine Ends.bind (ends_heap (Ends.bind (ends_onHeap ?_)))
    simp only [blobOf, unshared, Bool.false_eq_true, if_false]
    split
    · exact Ends.throw refused
    · exact Ends.throw refused
    · rename_i blob written
      refine Ends.bind (Ends.any.mono ?_ fun _ _ _ => refused)
      intro attributes _ _
      have kind : heap.kind ref = .closure := congrArg Body.kind body
      refine Ends.pure fun same => ⟨blob, attributes, written, ?_⟩
      rw [← Except.ok.inj same, kind]
  exact accepted (congrArg Prod.fst prepared)

/-- The attributes of a value that was read are put on the value itself, and nothing else that was
read is written to. -/
theorem attached_encoded {sending : Sending} {kind : ValueKind} {blob : Bytes}
    {attributes : Option (List (String × Message))} {result : Ref} {read : Heap}
    (meets : Meets sending context) (whole : sending.Whole (.encoded kind blob attributes) ref)
    (ran : context.codec.unserialize context.environments blob sending.final = .ok result read)
    (new : sending.final.size ≤ result.index) (made : result.index < read.size)
    (ended : toValue context sending.final (.encoded kind blob attributes) = (.ok copy, after)) :
    copy = result ∧ after.body result = read.body result ∧
      ∀ other, sending.final.size ≤ other.index → other.index < read.size → other ≠ result →
        after.get other = read.get other := by
  have steps : Ends (Message.build context (.encoded kind blob attributes))
      { heap := sending.final, environments := [] }
      (fun found after => found = result ∧ after.heap.body result = read.body result ∧
        ∀ other, sending.final.size ≤ other.index → other.index < read.size → other ≠ result →
          after.heap.get other = read.get other)
      (fun _ _ => True) := by
    cases whole with
    | encoded isEncoded detached written copies present names values =>
        rename_i later bare detachedHeap
        have extend := (Ends.ok (meets.codec.reads context.environments blob sending.final) ran).extend
        obtain ⟨_, ready⟩ := (poised_start sending).extended
          ⟨Nat.le_of_eq copies.2.symm, copies.1⟩
          (Sending.upTo_describes values) copies.2 extend
        have apart : Rebuilding.Apart (Takes read result)
            { known := sending.known.length, size := sending.final.size }
            { heap := read, environments := [] } := by
          rintro other ⟨same, _⟩
          rw [same]
          exact ⟨new, made⟩
        have attach := constructs_attach attributes (fun part _ => builds read meets part) values
          ready apart (Or.inr ⟨new, made⟩)
        rw [build]
        apply Ends.bind
        unfold Building.unserialize Ends
        simp only [ran]
        refine Ends.mono attach ?_ fun _ _ _ => trivial
        rintro found after ⟨advances, _, ⟨same, body, _⟩, _⟩
        refine ⟨same, body, ?_⟩
        intro other above inside different
        refine advances.same other inside ?_
        rintro (takes | own)
        · exact different takes.1
        · exact Nat.not_lt_of_le above own.2
  unfold toValue at ended
  split at ended
  · rename_i found state built
    cases ended
    exact steps.ok built
  · cases ended

/-! ### Ways back to a function -/

/-- What a value that was read leads to, other than the value itself. -/
def Inner (context : Context) (sent read : Heap) (result ref : Ref) : Prop :=
  ref ≠ result ∧ context.environments.Offers sent read ref

section Inner

variable {read : Heap} {result : Ref}

theorem links_old (clean : sent.Clean) (owned : context.environments.Sound sent)
    (extend : sent.Extends read)
    (old : ref = Ref.null ∨ ref = Ref.unbound ∨ context.environments.Owns ref) :
    read.links ref = [] := by
  have inside := owned.inside_old clean.sound.room old
  rw [Heap.links_congr (extend.same _ inside)]
  rcases old with rfl | rfl | ⟨kind, found⟩
  · exact clean.links_of_null ((clean.sound.null _ inside).mpr rfl) inside
  · exact clean.links_of_unbound ((clean.sound.unbound _).mpr rfl)
  · exact Heap.links_named (owned.isNamed found)

theorem Inner.child (clean : sent.Clean) (owned : context.environments.Sound sent)
    (reads : context.environments.Reads sent result read)
    (last : ∀ new, sent.size ≤ new.index → new.index < read.size →
      result ∉ (read.get new).children)
    (inner : Inner context sent read result ref) {child : Ref}
    (member : child ∈ (read.links ref).map Prod.snd) : Inner context sent read result child := by
  rcases inner.2 with made | old
  · have held := Heap.children_of_links member
    refine ⟨?_, reads.closed ref made.1 made.2 child held⟩
    intro same
    exact last ref made.1 made.2 (same ▸ held)
  · rw [links_old clean owned reads.extend old] at member
    cases member

end Inner

/-- A function on its way from one context to another by the packed codec, which has room for it and
for all that its environment leads to. -/
structure Homing (sender receiver : Context) (heap : Heap) (ref : Ref) : Prop where
  transit : Transit sender receiver heap ref
  isFunction : ∃ function, heap.body ref = .closure function
  available : ∀ other frame, Leads (heap.replaceAttributes ref none).links ref other →
    heap.body other = .environment frame → frame.kind.isLocal = false →
      ∃ env, receiver.environments.find? frame.kind = some env
  grounded : (heap.replaceAttributes ref none).Grounded (heap.replaceAttributes ref none).links ref
  fits : (heap.replaceAttributes ref none).Fits ref

namespace Homing

variable {sender receiver : Context}

theorem ne_singleton (homing : Homing sender receiver heap ref) :
    ref ≠ Ref.null ∧ ref ≠ Ref.unbound := by
  obtain ⟨function, body⟩ := homing.isFunction
  have clean := homing.transit.clean
  constructor
  · intro same
    have isNull := (clean.sound.null ref homing.transit.inside).mpr same
    rw [body] at isNull
    cases isNull
  · intro same
    have isUnbound := (clean.sound.unbound ref).mpr same
    rw [body] at isUnbound
    cases isUnbound

theorem leftAlone (homing : Homing sender receiver heap ref)
    (prepared : ofValue sender heap ref = (.ok message, sent)) :
    Heap.LeftAlone ((wholeCall heap ref).HandsOver sender) heap sent := by
  have leftAlone := leftAlone_ofValue sender homing.transit.clean.sound ref
  rwa [prepared] at leftAlone

theorem passage (homing : Homing sender receiver heap ref)
    (prepared : ofValue sender heap ref = (.ok message, sent)) :
    Passage (heap.replaceAttributes ref none) ref sent receiver.environments := by
  have transit := homing.transit
  have clean := transit.clean
  have room := clean.sound.room
  have leftAlone := homing.leftAlone prepared
  have apart := homing.ne_singleton
  have bare {other : Ref} (different : ref ≠ other) :
      (heap.replaceAttributes ref none).attributes other = heap.attributes other :=
    congrArg Object.attributes (heap.get_replaceAttributes_other _ different.symm)
  constructor
  · refine ⟨clean.sound.replaceAttributes ref (fun _ impossible => nomatch impossible)
      fun _ member => (nomatch member), ?_, ?_⟩
    · rw [bare apart.1, clean.null]
    · rw [bare apart.2, clean.unbound]
  · rw [Heap.size_replaceAttributes]
    exact transit.inside
  · refine ⟨leftAlone.sound clean.sound, ?_, ?_⟩
    · exact (leftAlone.attributes _ (Nat.lt_of_lt_of_le Nat.zero_lt_two room)).trans clean.null
    · exact (leftAlone.attributes _ (Nat.lt_of_lt_of_le Nat.one_lt_two room)).trans clean.unbound
  · intro kind env found
    rw [leftAlone.body env (transit.receivers.inside found)]
    exact transit.receivers kind env found
  · intro other frame leads body
    rw [Heap.body_replaceAttributes] at body
    exact homing.available other frame leads body

end Homing

section Returning

variable {sender receiver : Context}

theorem links_closure {function : Closure} (body : heap.body ref = .closure function) :
    heap.links ref = (.environment, function.env) :: attributeLinks (heap.attributes ref) := by
  rw [Heap.links_other (by rw [body]; rfl), body]
  rfl

theorem follow?_environment {function : Closure} (body : heap.body ref = .closure function)
    (path : List Edge) : follow? heap.links ref (.environment :: path) =
      follow? heap.links function.env path := by
  rw [follow?, links_closure body]
  rfl

theorem closure_of_content {formals : List String} {expr : Expr}
    (content : heap.content ref = .closure formals expr) :
    ∃ function, heap.body ref = .closure function := by
  unfold Heap.content at content
  cases body : heap.body ref with
  | closure function => exact ⟨function, rfl⟩
  | _ =>
      rw [body] at content
      cases content

theorem described_closure {function : Closure} (body : heap.body ref = .closure function)
    (global : Ref) : heap.described global ref = attributeLinks (heap.attributes ref) := by
  rw [Heap.described_other (by rw [body]; rfl) (by rw [body]; rfl), Heap.carried, body]
  rfl

/-- How a function without its attributes was read and then given them: what was read is the same
graph, and the writing went to the copy of the function alone. -/
structure Homecoming (receiver : Context) (bare sent read after : Heap) (ref copy : Ref) :
    Prop where
  reproduced : Reproduced Eq receiver.environments bare read bare.links read.links ref copy
  reads : receiver.environments.Reads sent copy read
  new : sent.size ≤ copy.index
  made : copy.index < read.size
  last : ∀ new, sent.size ≤ new.index → new.index < read.size → copy ∉ (read.get new).children
  body : after.body copy = read.body copy
  kept : ∀ other, Inner receiver sent read copy other → after.get other = read.get other

theorem Homing.homecoming (homing : Homing sender receiver heap ref)
    (prepared : ofValue sender heap ref = (.ok message, sent))
    (ended : toValue receiver sent message = (.ok copy, after)) :
    ∃ read, Homecoming receiver (heap.replaceAttributes ref none) sent read after ref copy := by
  have transit := homing.transit
  have clean := transit.clean
  obtain ⟨function, body⟩ := homing.isFunction
  obtain ⟨blob, attributes, written, rfl⟩ := written_closure clean.sound body prepared
  have passage := homing.passage prepared
  obtain ⟨bytes, result, read, written', ran, reproduced, new, made, last⟩ :=
    Codec.carries_closure passage homing.grounded homing.fits
      ((heap.body_replaceAttributes ref ref none).trans body)
      (congrArg Object.attributes (heap.get_replaceAttributes_same none transit.inside))
  have reads := Ends.ok (Codec.reads_packed receiver.environments bytes sent) ran
  rw [transit.codecs.1, written'] at written
  cases written
  obtain ⟨known, converted⟩ := sent_ofValue clean.sound transit.global transit.inside prepared
  have meets := transit.meets known converted.marked
  rw [← transit.codecs.2] at ran
  obtain ⟨rfl, body', others⟩ := attached_encoded meets converted.whole ran new made ended
  refine ⟨read, reproduced, reads, new, made, last, body', ?_⟩
  intro other inner
  rcases inner.2 with between | old
  · exact others other between.1 between.2 inner.1
  · have inside := transit.receivers.inside_old clean.sound.room old
    have spared := unchanged_toValue meets converted.whole inside
    rw [ended] at spared
    have larger : heap.size ≤ sent.size := converted.marked.size
    exact spared.trans (reads.extend.same other (Nat.lt_of_lt_of_le inside larger)).symm

namespace Homecoming

variable {bare read : Heap}

theorem isFunction (homecoming : Homecoming receiver bare sent read after ref copy)
    {function : Closure} (body : bare.body ref = .closure function) :
    ∃ function', read.body copy = .closure function' := by
  cases homecoming.reproduced.paths [] with
  | some alike =>
      apply closure_of_content
      rw [← alike.1, Heap.content, body]
      rfl

/-- Where the environment of the function leads, the copy leads to what was read there. -/
theorem along (homecoming : Homecoming receiver bare sent read after ref copy)
    (clean : sent.Clean) (owned : receiver.environments.Sound sent) {function : Closure}
    (body : bare.body ref = .closure function) {path : List Edge} {found : Ref}
    (walked : follow? bare.links ref (.environment :: path) = some found) :
    ∃ inner, follow? after.links copy (.environment :: path) = some inner ∧ inner ≠ copy ∧
      after.get inner = read.get inner ∧ read.content inner = bare.content found ∧
      (read.links inner).map Prod.fst = (bare.links found).map Prod.fst := by
  obtain ⟨function', inRead⟩ := homecoming.isFunction body
  have rel := homecoming.reproduced.paths (.environment :: path)
  rw [walked] at rel
  cases there : follow? read.links copy (.environment :: path) with
  | none =>
      rw [there] at rel
      cases rel
  | some inner =>
      rw [there] at rel
      rw [follow?_environment inRead] at there
      have held : function'.env ∈ (read.get copy).children := by
        apply Heap.children_of_links
        rw [links_closure inRead]
        exact List.mem_cons_self
      have first : Inner receiver sent read copy function'.env :=
        ⟨fun itself => homecoming.last copy homecoming.new homecoming.made (itself ▸ held),
          homecoming.reads.closed copy homecoming.new homecoming.made _ held⟩
      obtain ⟨there', among⟩ := follow?_kept
        (fun other inner => Heap.links_congr (homecoming.kept other inner))
        (fun other inner child => inner.child clean owned homecoming.reads homecoming.last)
        first there
      cases rel with
      | some alike =>
          refine ⟨inner, ?_, among.1, homecoming.kept inner among, alike.1.symm, alike.2.symm⟩
          rw [follow?_environment (homecoming.body.trans inRead)]
          exact there'

end Homecoming

/-- A function arrives with its attributes. Where its environment leads, the copy leads to objects
with the same content and the same ways out, attributes included; but where it leads back to the
function, the object there has no attributes. -/
theorem reentry_transfer (homing : Homing sender receiver heap ref)
    (attributed : heap.attributes ref ≠ none)
    (prepared : ofValue sender heap ref = (.ok message, sent))
    (ended : toValue receiver sent message = (.ok copy, after)) :
    (attributeLinks (after.attributes copy)).map Prod.fst =
        (attributeLinks (heap.attributes ref)).map Prod.fst ∧
      ∀ path found,
        follow? (heap.replaceAttributes ref none).links ref (.environment :: path) = some found →
          ∃ inner, follow? after.links copy (.environment :: path) = some inner ∧ inner ≠ copy ∧
            after.content inner = heap.content found ∧
            (found ≠ ref → (after.links inner).map Prod.fst = (heap.links found).map Prod.fst) ∧
            (found = ref → attributeEntries (after.attributes inner) = []) := by
  obtain ⟨function, body⟩ := homing.isFunction
  have bared : (heap.replaceAttributes ref none).body ref = .closure function :=
    (heap.body_replaceAttributes ref ref none).trans body
  have nothing : (heap.replaceAttributes ref none).attributes ref = none :=
    congrArg Object.attributes (heap.get_replaceAttributes_same none homing.transit.inside)
  have passage := homing.passage prepared
  obtain ⟨read, homecoming⟩ := homing.homecoming prepared ended
  constructor
  · obtain ⟨known, table, arrival, mirrors⟩ := homing.transit.arrives prepared ended
    have parallel := mirrors.parallel arrival fun _ _ none => absurd none attributed
    obtain ⟨function', inRead⟩ := homecoming.isFunction bared
    rw [described_closure body, described_closure (homecoming.body.trans inRead)] at parallel
    exact parallel.labels.symm
  · intro path found walked
    obtain ⟨inner, there, different, kept, content, labels⟩ :=
      homecoming.along passage.read passage.owned bared walked
    have body' : after.body inner = read.body inner := congrArg Object.body kept
    have links : after.links inner = read.links inner := Heap.links_congr kept
    refine ⟨inner, there, different, ?_, ?_, ?_⟩
    · rw [Heap.content, body', Heap.content, ← heap.body_replaceAttributes ref found none]
      exact content
    · intro other
      rw [links, labels]
      exact congrArg _ (Heap.links_congr (heap.get_replaceAttributes_other none other))
    -- The function met again below itself was read without attributes: it has one link, to its
    -- environment.
    · rintro rfl
      rw [Heap.content, Heap.content, bared] at content
      obtain ⟨function', isClosure⟩ := closure_of_content content
      rw [← links, links_closure (body'.trans isClosure), links_closure bared, nothing] at labels
      have none : (attributeLinks (after.attributes inner)).map Prod.fst = [] :=
        (List.cons.inj labels).2
      rw [attributeLinks, Edge.labels_named, List.map_map, List.map_eq_nil_iff] at none
      exact none

end Returning

/-- A function that is bound in its own environment and has a vector as its attribute. -/
def notedHeap : Heap :=
  let (vector, heap) := Codec.functionHeap.alloc (.vector (.integer [1]))
  heap.replaceAttributes ⟨11⟩ (some ⟨[("note", vector)]⟩)

theorem sound_notedHeap : notedHeap.Sound := by
  refine (Codec.sound_functionHeap.allocVector (.integer [1])).replaceAttributes ⟨11⟩ ?_ (by decide)
  intro mapping same
  cases same
  decide

theorem closed_bareNoted : ∀ ref, Codec.FunctionPart ref →
    ∀ child ∈ ((notedHeap.replaceAttributes ⟨11⟩ none).links ref).map Prod.snd,
      Codec.FunctionPart child := by
  unfold Codec.FunctionPart
  rintro ref (rfl | rfl | rfl)
  · decide
  · decide
  · decide

theorem homing_noted : Homing sampleSender sampleReceiver notedHeap ⟨11⟩ where
  transit := {
    clean := ⟨sound_notedHeap, rfl, rfl⟩
    inside := by decide
    senders := Environments.sound_fixed ⟨rfl, rfl⟩ ⟨_, rfl, rfl⟩ ⟨_, rfl, rfl⟩ ⟨_, rfl, rfl⟩
      ⟨_, rfl, rfl⟩
    receivers := Environments.sound_fixed ⟨rfl, rfl⟩ ⟨_, rfl, rfl⟩ ⟨_, rfl, rfl⟩ ⟨_, rfl, rfl⟩
      ⟨_, rfl, rfl⟩
    codecs := ⟨rfl, rfl⟩
    few := by
      intro envs distinct each
      have most := Heap.locals_le_size distinct fun env member => (each env member).2
      exact Nat.le_trans most (by decide) }
  isFunction := ⟨_, rfl⟩
  available := by
    intro other frame leads body isNamed
    have part : Codec.FunctionPart other := leads.induct (Or.inl rfl) closed_bareNoted
    rcases part with rfl | rfl | rfl
    · cases body
    · cases body
      cases isNamed
    · cases body
      exact ⟨_, rfl⟩
  grounded := by
    refine Heap.grounded_of_rank Codec.FunctionPart Ref.index (Or.inl rfl) closed_bareNoted ?_
    rintro ref (rfl | rfl | rfl)
    · decide
    · decide
    · decide
  fits := {
    numbers := by
      intro envs distinct each
      have most := Heap.locals_le_size distinct fun env member => (each env member).2
      exact Nat.le_trans most (by decide)
    lengths := by
      intro node made
      cases made
      decide +kernel
    shallow := by
      intro node made
      cases made
      decide +kernel }

def notedMessage : Message :=
  .encoded .closure (Node.bare (.closure ["x"] (.symbol "x") (.bare (.environment 0
      [("f", .bare (.closure ["x"] (.symbol "x") (.bare (.environmentRef 0))))]
      (some (.bare (.named .global))))))).toItem.write (some [("note", .plain ⟨12⟩)])

/-- The function that is bound in the environment of the copy is bare. -/
theorem reentry_noted : ∃ sent copy after inner,
    ofValue sampleSender notedHeap ⟨11⟩ = (.ok notedMessage, sent) ∧
      toValue sampleReceiver sent notedMessage = (.ok copy, after) ∧
      follow? after.links copy [.environment, .binding "f"] = some inner ∧ inner ≠ copy ∧
      attributeEntries (after.attributes inner) = [] := by
  have built : (toValue sampleReceiver (ofValue sampleSender notedHeap ⟨11⟩).2
      notedMessage).1.toOption = some ⟨15⟩ := by decide +kernel
  have ended := run_of_toOption built
  have attributed : notedHeap.attributes ⟨11⟩ ≠ none := fun impossible => nomatch impossible
  obtain ⟨inner, there, different, _, _, bare⟩ :=
    (reentry_transfer homing_noted attributed rfl ended).2 [.binding "f"] ⟨11⟩ rfl
  exact ⟨_, ⟨15⟩, _, inner, rfl, ended, there, different, bare rfl⟩

/-- The copy of the function has the attribute, and the function that is bound in its environment,
where the function itself was bound, has none. -/
theorem bare_reentry : ∃ message sent copy after inner,
    ofValue sampleSender notedHeap ⟨11⟩ = (.ok message, sent) ∧
      toValue sampleReceiver sent message = (.ok copy, after) ∧
      follow? notedHeap.links ⟨11⟩ [.environment, .binding "f"] = some ⟨11⟩ ∧
      follow? after.links copy [.environment, .binding "f"] = some inner ∧
      (attributeEntries (notedHeap.attributes ⟨11⟩)).map Prod.fst = ["note"] ∧
      (attributeEntries (after.attributes copy)).map Prod.fst = ["note"] ∧
      attributeEntries (after.attributes inner) = [] := by
  have built : (toValue sampleReceiver (ofValue sampleSender notedHeap ⟨11⟩).2
      notedMessage).1.toOption = some ⟨15⟩ := by decide +kernel
  have found : follow? (toValue sampleReceiver (ofValue sampleSender notedHeap ⟨11⟩).2
      notedMessage).2.links ⟨15⟩ [.environment, .binding "f"] = some ⟨14⟩ := by decide +kernel
  have outer : (attributeEntries ((toValue sampleReceiver (ofValue sampleSender notedHeap ⟨11⟩).2
      notedMessage).2.attributes ⟨15⟩)).map Prod.fst = ["note"] := by decide +kernel
  have bare : attributeEntries ((toValue sampleReceiver (ofValue sampleSender notedHeap ⟨11⟩).2
      notedMessage).2.attributes ⟨14⟩) = [] := by decide +kernel
  exact ⟨notedMessage, _, ⟨15⟩, _, ⟨14⟩, rfl, run_of_toOption built, rfl, found, rfl, outer, bare⟩

end Message

end ValueChannels

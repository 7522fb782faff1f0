import ValueChannels.Proofs.Transfer.Construction

/-!
The parts of a message are built one after the other, each entered into its owner as soon as it is
there: elements into the private copy of a list, bindings into a new environment, attributes all at
once at the end. Main statements: `constructs_fill`, `constructs_bindings`, `constructs_attach`.
-/

namespace ValueChannels.Message

open Rebuilding

variable {heap : Heap} {owners : Ref → Prop}
  {before : Rebuild} {sending : Sending} {start stop next : Stage}

/-- A message is built as it describes a value, unless something in it cannot be read. -/
def Builds (context : Context) (sending : Sending) (heap : Heap)
    (message : Message) : Prop :=
  ∀ start stop ref before, sending.Describes start message ref stop →
    Poised sending start stop before →
      Constructs heap (fun _ => False) start stop before (message.build context)
        (fun _ _ => True)
        (fun result after =>
          Built context sending.final heap before.progress message result after.progress)
        (Broken context message)

section Parts

variable {context : Context}

/-- One of the parts is built without a look at the objects that they are going to be entered
into. -/
theorem constructs_part {messages : List Message} {message : Message} {ref : Ref}
    (each : ∀ part ∈ messages, Builds context sending heap part) (member : message ∈ messages)
    (describes : sending.Describes start message ref stop) (poised : Poised sending start stop before)
    (apart : Apart owners stop before) :
    Constructs heap owners start stop before (message.build context)
      (fun _ after => Untouched owners before after)
      (fun result after => Built context sending.final heap before.progress message result after.progress)
      (fun err => ∃ part ∈ messages, Broken context part err) := by
  have part : Constructs heap _ start stop before _ _ _ _ :=
    each message member _ _ _ _ describes poised
  refine (part.among apart).mono (fun _ _ ended => ended.2) (fun _ _ _ value => value) ?_
  exact fun _ broken => ⟨message, member, broken⟩

theorem constructs_entries (entries : List (String × Message)) {refs : List Ref}
    (each : ∀ part ∈ entries.map Prod.snd, Builds context sending heap part)
    (threads : Threads sending.Describes start (entries.map Prod.snd) refs stop)
    (poised : Poised sending start stop before) (apart : Apart owners stop before) :
    Constructs heap owners start stop before (buildEntries context entries)
      (fun built after => built.map Prod.fst = entries.map Prod.fst ∧
        Untouched owners before after)
      (fun built after => Threads (Built context sending.final heap) before.progress
        (entries.map Prod.snd) (built.map Prod.snd) after.progress)
      (fun err => ∃ part ∈ entries.map Prod.snd, Broken context part err) := by
  induction entries generalizing start refs before with
  | nil =>
      cases threads
      rw [buildEntries]
      exact .pure poised.keyed ⟨rfl, fun _ _ => rfl⟩ (.nil _)
  | cons entry rest ih =>
      obtain ⟨name, message⟩ := entry
      rw [List.map_cons] at threads each
      cases threads with
      | cons head tail =>
          have forward := head.upTo
          have onward := Sending.upTo_describes tail
          have first := constructs_part each List.mem_cons_self head
            (poised.first onward) (apart.first onward)
          rw [buildEntries]
          refine poised.bind apart forward onward first ?_
          intro result middle same ready still _
          have others := ih (fun part member => each part (List.mem_cons_of_mem _ member)) tail
            ready still
          refine ready.bind still onward (.refl _) (others.failing ?_) ?_
          · rintro _ ⟨part, member, broken⟩
            exact ⟨part, List.mem_cons_of_mem _ member, broken⟩
          · rintro built after ⟨names, same'⟩ last _ _
            refine .pure last.keyed ⟨?_, ?_⟩ fun values value => .cons value values
            · simp only [List.map_cons, names]
            · intro ref owner
              rw [same' ref owner, same ref owner]

theorem constructs_optional (optional : Option Message) {refs : List Ref}
    (each : ∀ part ∈ optional.toList, Builds context sending heap part)
    (threads : Threads sending.Describes start optional.toList refs stop)
    (poised : Poised sending start stop before) (apart : Apart owners stop before) :
    Constructs heap owners start stop before (buildOptional context optional)
      (fun built after => built.isSome = optional.isSome ∧ Untouched owners before after)
      (fun built after => Threads (Built context sending.final heap) before.progress optional.toList
        built.toList after.progress)
      (fun err => ∃ part ∈ optional.toList, Broken context part err) := by
  cases optional with
  | none =>
      cases threads
      rw [buildOptional]
      exact .pure poised.keyed ⟨rfl, fun _ _ => rfl⟩ (.nil _)
  | some message =>
      cases threads with
      | cons head tail =>
          cases tail
          have first := constructs_part each List.mem_cons_self head poised apart
          rw [buildOptional]
          refine poised.bind apart head.upTo (.refl _) first ?_
          intro result middle same ready _ _
          exact .pure ready.keyed ⟨rfl, same⟩ fun value => .cons value (.nil _)

theorem enterElement_fresh {shell : Ref} {entered pending : List Ref} {old : Ref} (element : Ref)
    (content : before.heap.get shell = Object.fresh (.list (entered ++ old :: pending))) :
    Building.enterElement shell entered.length element before =
      .ok shell { before with
        heap := before.heap.setBody shell (.list (entered ++ element :: pending)) } := by
  have list : before.heap.body shell = .list (entered ++ old :: pending) :=
    congrArg Object.body content
  have unshared : before.heap.isShared shell = false := congrArg Object.shared content
  have inside : entered.length < (entered ++ old :: pending).length := by simp
  have update := before.heap.setElement_unshared element list unshared inside
  rw [List.set_append_right _ _ (Nat.le_refl _), Nat.sub_self, List.set_cons_zero] at update
  simp only [Building.enterElement, bind, EStateM.bind, Rebuilding.onHeap_eq, update, pure,
    EStateM.pure]

theorem constructs_enter {shell : Ref} {entered pending : List Ref} {old : Ref} (element : Ref)
    {failed : ChannelError → Prop} (keyed : Keyed stop.known before) (there : shell.index < before.heap.size)
    (content : before.heap.get shell = Object.fresh (.list (entered ++ old :: pending))) :
    Constructs heap (· = shell) stop stop before
      (Building.enterElement shell entered.length element)
      (fun result after => result = shell ∧
        after.heap.get shell = Object.fresh (.list ((entered ++ [element]) ++ pending)))
      (fun _ after => after.progress = before.progress) failed := by
  refine Constructs.write keyed (enterElement_fresh element content)
    (before.heap.size_setBody shell _) ?_ ⟨rfl, ?_⟩
    (progress_write (before.heap.size_setBody shell _))
  · intro ref different
    exact before.heap.get_setBody_other _ different
  · show (before.heap.setBody shell _).get shell = _
    rw [before.heap.get_setBody_same _ there, content, List.append_assoc]
    rfl

/-- The private copy of a list, on the way from the elements it was copied with to the ones that
are built. -/
theorem constructs_fill {shell : Ref} (items : List Message) {refs : List Ref}
    (entered pending : List Ref)
    (each : ∀ part ∈ items, Builds context sending heap part)
    (threads : Threads sending.Describes start items refs stop)
    (poised : Poised sending start stop before) (apart : Apart (· = shell) stop before)
    (content : before.heap.get shell = Object.fresh (.list (entered ++ pending)))
    (length : pending.length = items.length) :
    Constructs heap (· = shell) start stop before
      (fillList context shell entered.length items)
      (fun result after => result = shell ∧
        ∃ elements, after.heap.get shell = Object.fresh (.list (entered ++ elements)))
      (fun _ after => ∀ elements,
        after.heap.get shell = Object.fresh (.list (entered ++ elements)) →
          Threads (Built context sending.final heap) before.progress items elements after.progress)
      (fun err => ∃ part ∈ items, Broken context part err) := by
  induction items generalizing start refs before entered pending with
  | nil =>
      cases threads
      have none : pending = [] := List.length_eq_zero_iff.mp length
      rw [fillList]
      refine .pure poised.keyed ⟨rfl, pending, content⟩ ?_
      intro elements same
      rw [content, none] at same
      simp only [Object.fresh, Object.mk.injEq, Body.list.injEq, List.append_cancel_left_eq] at same
      rw [← same.1]
      exact .nil _
  | cons message rest ih =>
      cases threads with
      | cons head tail =>
          cases pending with
          | nil => cases length
          | cons old pending =>
              have forward := head.upTo
              have onward := Sending.upTo_describes tail
              have first := constructs_part each List.mem_cons_self head (poised.first onward)
                (apart.first onward)
              rw [fillList]
              refine poised.bind apart forward onward first ?_
              intro element middle same ready still _
              have here := (same shell rfl).trans content
              refine ready.bind still (.refl _) onward
                (constructs_enter element ready.keyed (still shell rfl).2 here) ?_
              rintro result entered' ⟨same', content'⟩ ready' still' _
              subst same'
              have index : entered.length + 1 = (entered ++ [element]).length := by simp
              rw [index]
              refine (ih (entered ++ [element]) pending (fun part member =>
                each part (List.mem_cons_of_mem _ member)) tail ready' still' content'
                (Nat.succ.inj length)).mono ?_ ?_ ?_
              · rintro result after ⟨same, elements, last⟩
                refine ⟨same, element :: elements, ?_⟩
                rw [last]
                simp
              · rintro result after ⟨_, others, known⟩ values size value elements last
                have whole : elements = element :: others := by
                  rw [last] at known
                  simpa [Object.fresh] using known
                rw [whole]
                rw [size] at values
                exact .cons value (values others known)
              · rintro _ ⟨part, member, broken⟩
                exact ⟨part, List.mem_cons_of_mem _ member, broken⟩

/-- A new environment, on the way to all its bindings. -/
theorem constructs_bindings {env : Ref} (bindings : List (String × Message)) {refs : List Ref}
    {frame : Frame}
    (each : ∀ part ∈ bindings.map Prod.snd, Builds context sending heap part)
    (threads : Threads sending.Describes start (bindings.map Prod.snd) refs stop)
    (poised : Poised sending start stop before) (apart : Apart (· = env) stop before)
    (content : before.heap.get env = Object.fresh (.environment frame))
    (distinct : (frame.bindings.names ++ bindings.map Prod.fst).Nodup) :
    Constructs heap (· = env) start stop before (buildBindings context env bindings)
      (fun _ after => ∃ contents, contents.length = bindings.length ∧
        after.heap.get env = withBindings frame (bindings.map Prod.fst) contents)
      (fun _ after => ∀ contents, contents.length = bindings.length →
        after.heap.get env = withBindings frame (bindings.map Prod.fst) contents →
          Threads (Built context sending.final heap) before.progress (bindings.map Prod.snd) contents
            after.progress)
      (fun err => ∃ part ∈ bindings.map Prod.snd, Broken context part err) := by
  induction bindings generalizing start refs before frame with
  | nil =>
      cases threads
      rw [buildBindings]
      refine .pure poised.keyed ⟨[], rfl, ?_⟩ ?_
      · rw [content, List.map_nil, withBindings_nil]
      · intro contents none _
        rw [List.length_eq_zero_iff.mp none]
        exact .nil _
  | cons entry rest ih =>
      obtain ⟨name, message⟩ := entry
      rw [List.map_cons] at threads each distinct
      cases threads with
      | cons head tail =>
          have forward := head.upTo
          have onward := Sending.upTo_describes tail
          have first := constructs_part each List.mem_cons_self head (poised.first onward)
            (apart.first onward)
          have fresh : name ∉ frame.bindings.names := by
            intro member
            exact (List.nodup_append.mp distinct).2.2 name member name List.mem_cons_self rfl
          rw [buildBindings]
          refine poised.bind apart forward onward first ?_
          intro value middle same ready still _
          have here := (same env rfl).trans content
          refine ready.bind still (.refl _) onward
            (constructs_define ready.keyed here fresh) ?_
          rintro _ defined ⟨size, content'⟩ ready' still' _
          have distinct' : ((frame.bindings.entries ++ [(name, value)]).map Prod.fst ++
              rest.map Prod.fst).Nodup := by
            simpa [Mapping.names] using distinct
          -- The frame has one binding more from here on, and the rest is bound behind it.
          refine (ih (fun part member => each part (List.mem_cons_of_mem _ member)) tail ready'
            still' content' distinct').mono ?_ ?_ ?_
          · rintro _ after ⟨contents, length, last⟩
            refine ⟨value :: contents, congrArg Nat.succ length, ?_⟩
            rw [last, withBindings_cons, List.map_cons]
          · rintro _ after ⟨others, length, known⟩ values _ built contents length' last
            rw [withBindings_cons] at known
            have same : contents = value :: others := by
              apply withBindings_inj _ _ (last.symm.trans known)
              · rw [length', List.length_map]
              · rw [List.length_cons, length, List.length_map, List.length_cons]
            rw [same]
            rw [size] at values
            exact .cons built (values others length (known.trans (withBindings_cons ..).symm))
          · rintro _ ⟨part, member, broken⟩
            exact ⟨part, List.mem_cons_of_mem _ member, broken⟩

theorem install_accepted {heap : Heap} {owner : Ref} (entries : List (String × Ref))
    (accepts : acceptsAttributes heap owner = true) :
    install heap owner entries = heap.replaceAttributes owner (some (Attributes.ofList entries)) := by
  rw [install, if_pos accepts]

theorem install_refused {heap : Heap} {owner : Ref} (entries : List (String × Ref))
    (refuses : ¬acceptsAttributes heap owner = true) : install heap owner entries = heap := by
  rw [install, if_neg refuses]

/-- Everything accepts attributes but the environments that contexts own. -/
theorem acceptsAttributes_eq (heap : Heap) (ref : Ref) :
    acceptsAttributes heap ref = !(heap.body ref).isNamed := by
  unfold acceptsAttributes Heap.frame?
  cases heap.body ref with
  | environment frame => exact (Bool.not_not _).symm
  | _ => rfl

/-- The object that attributes are installed on, if it accepts any. -/
def Takes (heap : Heap) (owner ref : Ref) : Prop :=
  ref = owner ∧ acceptsAttributes heap owner = true

theorem constructs_write {first : Heap} {owner : Ref} (entries : List (String × Ref))
    {failed : ChannelError → Prop} (keyed : Keyed stop.known before)
    (same : before.heap.body owner = first.body owner)
    (there : acceptsAttributes first owner = true → owner.index < before.heap.size) :
    Constructs heap (Takes first owner) stop stop before
      (changeHeap fun heap => install heap owner entries : Building Unit)
      (fun _ after => after.heap.body owner = first.body owner)
      (fun _ after => after.progress = before.progress ∧
        (acceptsAttributes first owner = true → after.heap.attributes owner =
          Attributes.normalize (some (Attributes.ofList entries)))) failed := by
  have accepting : acceptsAttributes before.heap owner = acceptsAttributes first owner := by
    rw [acceptsAttributes_eq, acceptsAttributes_eq, same]
  by_cases accepts : acceptsAttributes first owner = true
  · have written := install_accepted entries (accepting.trans accepts)
    have size : (install before.heap owner entries).size = before.heap.size := by
      rw [written, Heap.size_replaceAttributes]
    refine Constructs.write keyed (changeHeap_eq _ before) size ?_ ?_
      ⟨progress_write size, fun _ => ?_⟩
    · intro ref other
      rw [written]
      exact before.heap.get_replaceAttributes_other _ fun same => other ⟨same, accepts⟩
    · show (install before.heap owner entries).body owner = _
      rw [written, Heap.body_replaceAttributes, same]
    · show (install before.heap owner entries).attributes owner = _
      rw [written, Heap.attributes, before.heap.get_replaceAttributes_same _ (there accepts)]
  · have refused := install_refused entries fun accepted => accepts (accepting.symm.trans accepted)
    have size : (install before.heap owner entries).size = before.heap.size := by
      rw [refused]
    refine Constructs.write keyed (changeHeap_eq _ before) size ?_ ?_
      ⟨progress_write size, fun accepted => absurd accepted accepts⟩
    · intro ref _
      rw [refused]
    · show (install before.heap owner entries).body owner = _
      rw [refused, same]

/-- The attributes of a value are built last and installed in one step. -/
theorem constructs_install {owner : Ref} (entries : List (String × Message)) {refs : List Ref}
    (each : ∀ part ∈ entries.map Prod.snd, Builds context sending heap part)
    (threads : Threads sending.Describes start (entries.map Prod.snd) refs stop)
    (poised : Poised sending start stop before) (apart : Apart (Takes before.heap owner) stop before)
    (place : owner.index < sending.origin.size ∨
      stop.size ≤ owner.index ∧ owner.index < before.heap.size) :
    Constructs heap (Takes before.heap owner) start stop before
      (attach context owner (some entries))
      (fun result after => result = owner ∧ after.heap.body owner = before.heap.body owner)
      (fun _ after => ∃ values, Threads (Built context sending.final heap) before.progress
          (entries.map Prod.snd) values after.progress ∧
        (acceptsAttributes before.heap owner = true →
          Installed after.heap owner (some entries) values))
      (fun err => ∃ part ∈ entries.map Prod.snd, Broken context part err) := by
  have onward := Sending.upTo_describes threads
  rw [attach]
  refine poised.bind apart onward (.refl stop)
    (constructs_entries entries each threads poised apart) ?_
  rintro built middle ⟨names, same⟩ ready still advances
  have kept : middle.heap.get owner = before.heap.get owner := by
    by_cases accepts : acceptsAttributes before.heap owner = true
    · exact same owner ⟨rfl, accepts⟩
    · have above := poised.above
      have below := poised.below
      have room := poised.room
      have size := onward.size
      apply advances.same owner
      · omega
      · rintro (⟨_, accepted⟩ | ⟨first, last⟩)
        · exact accepts accepted
        · omega
  refine ready.bind still (.refl _) (.refl _) (constructs_write built ready.keyed
    (congrArg Object.body kept) fun accepts => (still owner ⟨rfl, accepts⟩).2) ?_
  intro _ after body ready' _ _
  refine .pure ready'.keyed ⟨rfl, body⟩ ?_
  rintro ⟨size, installed⟩ values
  rw [← size] at values
  refine ⟨built.map Prod.snd, values, ?_⟩
  intro accepts
  have zipped : (entries.map Prod.fst).zip (built.map Prod.snd) = built := by
    rw [← names]
    exact (List.zip_of_prod rfl rfl).symm
  show after.heap.attributes owner = Attributes.normalize
    (some (Attributes.ofList ((entries.map Prod.fst).zip (built.map Prod.snd))))
  rw [zipped]
  exact installed accepts

theorem constructs_attach {owner : Ref} (attributes : Option (List (String × Message)))
    {refs : List Ref}
    (each : ∀ part ∈ (attributes.getD []).map Prod.snd, Builds context sending heap part)
    (threads : Threads sending.Describes start ((attributes.getD []).map Prod.snd) refs stop)
    (poised : Poised sending start stop before) (apart : Apart (Takes before.heap owner) stop before)
    (place : owner.index < sending.origin.size ∨
      stop.size ≤ owner.index ∧ owner.index < before.heap.size) :
    Constructs heap (Takes before.heap owner) start stop before
      (attach context owner attributes)
      (fun result after => result = owner ∧ after.heap.body owner = before.heap.body owner ∧
        (attributes = none → after = before))
      (fun _ after => ∃ values, Threads (Built context sending.final heap) before.progress
          ((attributes.getD []).map Prod.snd) values after.progress ∧
        (attributes ≠ none → acceptsAttributes before.heap owner = true →
          Installed after.heap owner attributes values))
      (fun err => ∃ part ∈ (attributes.getD []).map Prod.snd, Broken context part err) := by
  cases attributes with
  | none =>
      cases threads
      rw [attach]
      refine .pure poised.keyed ⟨rfl, rfl, fun _ => rfl⟩ ⟨[], .nil _, ?_⟩
      intro something
      exact absurd rfl something
  | some entries =>
      refine (constructs_install entries each threads poised apart place).mono ?_ ?_ fun _ => id
      · rintro result after ⟨same, body⟩
        exact ⟨same, body, fun impossible => nomatch impossible⟩
      · rintro result after _ ⟨values, built, installed⟩
        exact ⟨values, built, fun _ => installed⟩

theorem constructs_furnish {owner : Ref} {body : Body}
    (attributes : Option (List (String × Message))) {refs : List Ref}
    (each : ∀ part ∈ (attributes.getD []).map Prod.snd, Builds context sending heap part)
    (threads : Threads sending.Describes start ((attributes.getD []).map Prod.snd) refs stop)
    (poised : Poised sending start stop before) (apart : Apart (· = owner) stop before)
    (content : before.heap.get owner = Object.fresh body)
    (accepts : acceptsAttributes before.heap owner = true) :
    Constructs heap (· = owner) start stop before (attach context owner attributes)
      (fun result after => result = owner ∧ after.heap.body owner = body)
      (fun _ after => ∃ values, Threads (Built context sending.final heap) before.progress
          ((attributes.getD []).map Prod.snd) values after.progress ∧
        Installed after.heap owner attributes values)
      (fun err => ∃ part ∈ (attributes.getD []).map Prod.snd, Broken context part err) := by
  have attach := constructs_attach attributes each threads poised
    (fun ref takes => apart ref takes.1) (Or.inr (apart owner rfl))
  have before' : before.heap.body owner = body := congrArg Object.body content
  refine (attach.widen fun _ takes => takes.1).mono
    (fun _ _ ended => ⟨ended.1, ended.2.1.trans before'⟩) ?_ fun _ => id
  rintro _ after ⟨_, _, same⟩ ⟨values, furnished, installed⟩
  refine ⟨values, furnished, ?_⟩
  by_cases something : attributes = none
  · rw [same something, something]
    exact congrArg Object.attributes content
  · exact installed something accepts

end Parts

end ValueChannels.Message

import ValueChannels.Value.Rebuild
import ValueChannels.Proofs.Heap.Access
import ValueChannels.Proofs.Transfer.Steps

/-!
What rebuilding a value part by part has in common, whether the parts are nodes or messages. A
part is built from objects that nobody else has, what was built for it stays as it is, and the
object that it is entered into is written to only in between. Main statements: `Constructs.bind`
for two parts in a row, `Constructs.enclose` for parts inside a whole.
-/

namespace ValueChannels

/-- How far the conversion of a value has come: how many local environments it has met, and the
size of its heap. -/
structure Stage where
  known : Nat
  size : Nat

/-- The first stage is the second one or lies before it. -/
structure Stage.UpTo (first second : Stage) : Prop where
  known : first.known ≤ second.known
  size : first.size ≤ second.size

theorem Stage.UpTo.refl (stage : Stage) : stage.UpTo stage :=
  ⟨Nat.le_refl _, Nat.le_refl _⟩

theorem Stage.UpTo.trans {first second third : Stage} (left : first.UpTo second)
    (right : second.UpTo third) : first.UpTo third :=
  ⟨Nat.le_trans left.known right.known, Nat.le_trans left.size right.size⟩

/-- How far the rebuilding of a value has come: the size of its heap, and the environments that are
known, the latest first. -/
structure Progress where
  size : Nat
  known : List (UInt32 × Ref)

/-- A new environment is known under a number. -/
def Progress.enter (progress : Progress) (id : UInt32) (env : Ref) : Progress :=
  { size := progress.size + 1, known := (id, env) :: progress.known }

def Rebuild.progress (state : Rebuild) : Progress :=
  { size := state.heap.size, known := state.environments }

namespace Rebuilding

/-- The private copies made between two stages of the conversion. -/
def Between (start stop : Stage) (ref : Ref) : Prop :=
  start.size ≤ ref.index ∧ ref.index < stop.size

/-- The same, and the objects that the parts are entered into. -/
def Beside (owners : Ref → Prop) (start stop : Stage) (ref : Ref) : Prop :=
  owners ref ∨ Between start stop ref

/-- Building went on, and of the objects that were there only these may have changed. -/
structure Advances (mine : Ref → Prop) (before after : Rebuild) : Prop where
  size : before.heap.size ≤ after.heap.size
  same : ∀ ref, ref.index < before.heap.size → ¬mine ref →
    after.heap.get ref = before.heap.get ref

/-- A heap keeps what was built between two states: the objects that are in question, and the ones
that were made. -/
def Keeps (heap : Heap) (mine : Ref → Prop) (before after : Rebuild) : Prop :=
  ∀ ref, mine ref ∨ (before.heap.size ≤ ref.index ∧ ref.index < after.heap.size) →
    heap.get ref = after.heap.get ref

/-- The objects are as they were. -/
def Untouched (owners : Ref → Prop) (before after : Rebuild) : Prop :=
  ∀ ref, owners ref → after.heap.get ref = before.heap.get ref

/-- The numbers under which environments are known are the first ones, and each has an environment
of its own. -/
structure Keyed (count : Nat) (state : Rebuild) : Prop where
  ids : state.environments.map Prod.fst = ((List.range count).map UInt32.ofNat).reverse
  distinct : (state.environments.map Prod.snd).Nodup
  inside : ∀ entry ∈ state.environments, entry.2.index < state.heap.size

variable {heap : Heap} {mine other owners : Ref → Prop}
  {before middle after : Rebuild} {start stop next : Stage}

namespace Advances

theorem refl (mine : Ref → Prop) (state : Rebuild) : Advances mine state state :=
  ⟨Nat.le_refl _, fun _ _ _ => rfl⟩

theorem mono (advances : Advances mine before after) (weaker : ∀ ref, mine ref → other ref) :
    Advances other before after := by
  refine ⟨advances.size, ?_⟩
  intro ref inside spared
  exact advances.same ref inside fun written => spared (weaker ref written)

theorem trans (first : Advances mine before middle) (second : Advances mine middle after) :
    Advances mine before after := by
  refine ⟨Nat.le_trans first.size second.size, ?_⟩
  intro ref inside spared
  have later : ref.index < middle.heap.size := Nat.lt_of_lt_of_le inside first.size
  rw [second.same ref later spared, first.same ref inside spared]

end Advances

theorem between_mono {first last : Stage} (left : start.UpTo first) (right : last.UpTo stop)
    {ref : Ref} (between : Between first last ref) : Between start stop ref :=
  ⟨Nat.le_trans left.size between.1, Nat.lt_of_lt_of_le between.2 right.size⟩

theorem beside_mono {first last : Stage} (left : start.UpTo first) (right : last.UpTo stop)
    {ref : Ref} (beside : Beside owners first last ref) : Beside owners start stop ref :=
  beside.imp_right (between_mono left right)

/-- What is built later writes behind the copies of what was built before, and to no object made
since. -/
theorem Keeps.first (keeps : Keeps heap mine before after)
    (earlier : ∀ ref, Between start next ref → mine ref) (room : next.size ≤ middle.heap.size)
    (second : Advances other middle after)
    (later : ∀ ref, other ref → next.size ≤ ref.index ∧ ref.index < before.heap.size) :
    Keeps heap (Between start next) before middle := by
  intro ref concerned
  rcases concerned with own | made
  · have inside : ref.index < middle.heap.size := Nat.lt_of_lt_of_le own.2 room
    have spared : ¬other ref := fun written => Nat.not_lt_of_le (later ref written).1 own.2
    rw [keeps ref (Or.inl (earlier ref own)), second.same ref inside spared]
  · have inside : ref.index < after.heap.size := Nat.lt_of_lt_of_le made.2 second.size
    have spared : ¬other ref := fun written => Nat.not_lt_of_le made.1 (later ref written).2
    rw [keeps ref (Or.inr ⟨made.1, inside⟩), second.same ref made.2 spared]

theorem Keeps.second (keeps : Keeps heap mine before after)
    (later : ∀ ref, other ref → mine ref) (size : before.heap.size ≤ middle.heap.size) :
    Keeps heap other middle after := by
  intro ref concerned
  apply keeps ref
  rcases concerned with own | made
  · exact Or.inl (later ref own)
  · exact Or.inr ⟨Nat.le_trans size made.1, made.2⟩

namespace Keyed

variable {count index : Nat} {state : Rebuild}

theorem length (keyed : Keyed count state) : state.environments.length = count := by
  simpa using congrArg List.length keyed.ids

theorem lookup (keyed : Keyed count state) (earlier : index < count) :
    ∃ env, state.environments.lookup (UInt32.ofNat index) = some env := by
  have member : UInt32.ofNat index ∈ state.environments.map Prod.fst := by
    rw [keyed.ids, List.mem_reverse]
    exact List.mem_map_of_mem (List.mem_range.mpr earlier)
  obtain ⟨entry, known, same⟩ := List.mem_map.mp member
  apply Option.isSome_iff_exists.mp
  rw [List.lookup_isSome_iff]
  exact ⟨entry, known, beq_iff_eq.mpr same.symm⟩

theorem of_lookup {entries : List (UInt32 × Ref)} {id : UInt32} {env : Ref}
    (ids : entries.map Prod.fst = ((List.range count).map UInt32.ofNat).reverse)
    (found : entries.lookup id = some env) :
    ∃ index < count, UInt32.ofNat index = id ∧ entries.reverse[index]? = some (id, env) := by
  obtain ⟨later, sooner, whole, _⟩ := List.lookup_eq_some_iff.mp found
  have member : (id, env) ∈ entries.reverse := by
    rw [List.mem_reverse, whole]
    exact List.mem_append_right _ List.mem_cons_self
  obtain ⟨index, place⟩ := List.mem_iff_getElem?.mp member
  have inside := (List.getElem?_eq_some_iff.mp place).1
  have length : entries.length = count := by
    simpa using congrArg List.length ids
  rw [List.length_reverse, length] at inside
  refine ⟨index, inside, ?_, place⟩
  have numbers : entries.reverse.map Prod.fst = (List.range count).map UInt32.ofNat := by
    rw [List.map_reverse, ids, List.reverse_reverse]
  have here : (entries.reverse.map Prod.fst)[index]? = some id := by
    rw [List.getElem?_map, place, Option.map_some]
  rw [numbers, List.getElem?_map, List.getElem?_range inside, Option.map_some] at here
  exact Option.some.inj here

theorem register (keyed : Keyed count state) {env : Ref} {heap : Heap}
    (new : state.heap.size ≤ env.index) (inside : env.index < heap.size) :
    Keyed (count + 1) { heap, environments := (UInt32.ofNat count, env) :: state.environments } := by
  refine ⟨?_, ?_, ?_⟩
  · simp only [List.map_cons, keyed.ids, List.range_succ, List.map_append, List.map_nil,
      List.reverse_append, List.reverse_cons, List.reverse_nil, List.nil_append, List.singleton_append]
  · rw [List.map_cons, List.nodup_cons]
    refine ⟨?_, keyed.distinct⟩
    intro member
    obtain ⟨entry, known, same⟩ := List.mem_map.mp member
    have old := keyed.inside entry known
    rw [same] at old
    exact Nat.not_lt_of_le new old
  · intro entry member
    rcases List.mem_cons.mp member with same | known
    · rw [same]
      exact inside
    · have old := keyed.inside entry known
      exact Nat.lt_trans old (Nat.lt_of_le_of_lt new inside)

theorem grow (keyed : Keyed count state) {heap : Heap} (size : state.heap.size ≤ heap.size) :
    Keyed count { state with heap } := by
  refine ⟨keyed.ids, keyed.distinct, ?_⟩
  intro entry member
  exact Nat.lt_of_lt_of_le (keyed.inside entry member) size

end Keyed

/-! ### Building parts one after the other -/

section Constructs

variable {ε α β : Type} {action : Rebuilding ε α} {done : α → Rebuild → Prop}
  {built : α → Rebuild → Prop} {failed : ε → Prop}

/-- A step of the construction builds the parts between two stages, and enters them into objects
of its own: it ends as `done` says, and whatever keeps what it built has the value that `built`
speaks of. It fails only when something cannot be read. -/
def Constructs (heap : Heap)
    (owners : Ref → Prop) (start stop : Stage) (before : Rebuild) (action : Rebuilding ε α)
    (done built : α → Rebuild → Prop) (failed : ε → Prop) : Prop :=
  Ends action before
    (fun result after => Advances (Beside owners start stop) before after ∧
      Keyed stop.known after ∧ done result after ∧
      (Keeps heap (Between start stop) before after → built result after))
    (fun err after => Advances (Beside owners start stop) before after ∧ failed err)

/-- Where the objects are that a step enters its parts into: behind all copies, and made before. -/
def Apart (owners : Ref → Prop) (stop : Stage) (state : Rebuild) : Prop :=
  ∀ ref, owners ref → stop.size ≤ ref.index ∧ ref.index < state.heap.size

theorem Apart.first (apart : Apart owners stop before) (onward : next.UpTo stop) :
    Apart owners next before :=
  fun ref owner => ⟨Nat.le_trans onward.size (apart ref owner).1, (apart ref owner).2⟩

theorem Apart.later (apart : Apart owners stop before) (size : before.heap.size ≤ after.heap.size) :
    Apart owners stop after :=
  fun ref owner => ⟨(apart ref owner).1, Nat.lt_of_lt_of_le (apart ref owner).2 size⟩

theorem Constructs.bind {next : α → Rebuilding ε β} {middle : Stage}
    {done' built' : β → Rebuild → Prop} (room : stop.size ≤ before.heap.size)
    (apart : Apart owners stop before) (forward : start.UpTo middle) (onward : middle.UpTo stop)
    (first : Constructs heap owners start middle before action done built failed)
    (second : ∀ result state, done result state → Keyed middle.known state →
      Advances (Beside owners start middle) before state →
        Constructs heap owners middle stop state (next result) done'
          (fun found after => built result state → built' found after) failed) :
    Constructs heap owners start stop before (action >>= next) done' built' failed := by
  have early {state : Rebuild} (advances : Advances (Beside owners start middle) before state) :=
    advances.mono fun _ => beside_mono (.refl start) onward
  refine Ends.bind (first.mono ?_ fun _ _ ⟨advances, broken⟩ => ⟨early advances, broken⟩)
  rintro result state ⟨advances, keyed, ended, fromKept⟩
  have late {after : Rebuild} (advances' : Advances (Beside owners middle stop) state after) :=
    (early advances).trans (advances'.mono fun _ => beside_mono forward (.refl stop))
  refine (second result state ended keyed advances).mono ?_
    fun _ _ ⟨advances', broken⟩ => ⟨late advances', broken⟩
  rintro found after ⟨advances', keyed', ended', fromKept'⟩
  refine ⟨late advances', keyed', ended', ?_⟩
  intro keeps
  apply fromKept' (keeps.second (fun _ => between_mono forward (.refl stop)) advances.size)
  apply fromKept
  apply keeps.first (fun _ => between_mono (.refl start) onward) _ advances'
  · rintro ref (owner | own)
    · exact ⟨Nat.le_trans onward.size (apart ref owner).1, (apart ref owner).2⟩
    · exact ⟨own.1, Nat.lt_of_lt_of_le own.2 room⟩
  · exact Nat.le_trans onward.size (Nat.le_trans room advances.size)

theorem Constructs.pure {result : α} (keyed : Keyed stop.known before) (holds : done result before)
    (value : built result before) :
    Constructs heap owners stop stop before (Pure.pure result : Rebuilding ε α) done built
      failed :=
  ⟨.refl _ _, keyed, holds, fun _ => value⟩

theorem Constructs.write {result : α} {written : Heap} (keyed : Keyed stop.known before)
    (ran : action before = .ok result { before with heap := written })
    (size : written.size = before.heap.size)
    (others : ∀ ref, ¬owners ref → written.get ref = before.heap.get ref)
    (holds : done result { before with heap := written })
    (value : built result { before with heap := written }) :
    Constructs heap owners stop stop before action done built failed := by
  unfold Constructs Ends
  rw [ran]
  refine ⟨⟨Nat.le_of_eq size.symm, ?_⟩, ?_, holds, fun _ => value⟩
  · intro ref _ spared
    exact others ref fun owner => spared (Or.inl owner)
  · refine ⟨keyed.ids, keyed.distinct, ?_⟩
    intro entry member
    show entry.2.index < written.size
    rw [size]
    exact keyed.inside entry member

theorem Constructs.mono {done' built' : α → Rebuild → Prop} {failed' : ε → Prop}
    (constructs : Constructs heap owners start stop before action done built failed)
    (ended : ∀ result after, done result after → done' result after)
    (value : ∀ result after, done result after → built result after → built' result after)
    (wrong : ∀ err, failed err → failed' err) :
    Constructs heap owners start stop before action done' built' failed' :=
  Ends.mono constructs
    (fun result after ⟨advances, keyed, holds, fromKept⟩ =>
      ⟨advances, keyed, ended result after holds, fun keeps =>
        value result after holds (fromKept keeps)⟩)
    fun err _ ⟨advances, broken⟩ => ⟨advances, wrong err broken⟩

theorem Constructs.failing {failed' : ε → Prop}
    (constructs : Constructs heap owners start stop before action done built failed)
    (wrong : ∀ err, failed err → failed' err) :
    Constructs heap owners start stop before action done built failed' :=
  constructs.mono (fun _ _ ended => ended) (fun _ _ _ value => value) wrong

theorem Constructs.widen {owners' : Ref → Prop}
    (constructs : Constructs heap owners start stop before action done built failed)
    (wider : ∀ ref, owners ref → owners' ref) :
    Constructs heap owners' start stop before action done built failed :=
  Ends.mono constructs
    (fun _ _ ⟨advances, others⟩ => ⟨advances.mono fun ref => Or.imp_left (wider ref), others⟩)
    fun _ _ ⟨advances, broken⟩ => ⟨advances.mono fun ref => Or.imp_left (wider ref), broken⟩

/-- A part is built without a look at the objects that it is going to be entered into. -/
theorem Constructs.among
    (constructs : Constructs heap (fun _ => False) start stop before action done built failed)
    (apart : Apart owners stop before) :
    Constructs heap owners start stop before action
      (fun result after => done result after ∧ Untouched owners before after) built failed := by
  refine Ends.mono constructs ?_ ?_
  · rintro result after ⟨advances, keyed, ended, value⟩
    refine ⟨advances.mono fun _ => Or.imp_left False.elim, keyed, ⟨ended, ?_⟩, value⟩
    intro owner owned
    apply advances.same owner (apart owner owned).2
    rintro (impossible | own)
    · exact impossible
    · exact Nat.not_lt_of_le (apart owner owned).1 own.2
  · rintro _ after ⟨advances, broken⟩
    exact ⟨advances.mono fun _ => Or.imp_left False.elim, broken⟩

/-- The objects that parts are entered into are new, or copies that belong to the whole. -/
theorem Constructs.enclose {first last : Stage} {state : Rebuild}
    {built' : α → Rebuild → Prop}
    (inner : Constructs heap owners first last state action done built failed)
    (done' : α → Rebuild → Prop)
    (begun : Advances (fun _ => False) before state) (forward : start.UpTo first)
    (onward : last.UpTo stop) (known : stop.known = last.known)
    (covers : ∀ ref, owners ref → Between start stop ref ∨ before.heap.size ≤ ref.index)
    (settled : ∀ result after, done result after → done' result after)
    (value : ∀ result after, done result after → Advances (Beside owners first last) state after →
      Keeps heap (Between start stop) before after →
        built result after → built' result after) :
    Ends action state
      (fun result after => Advances (Beside (fun _ => False) start stop) before after ∧
        Keyed stop.known after ∧ done' result after ∧
        (Keeps heap (Between start stop) before after → built' result after))
      (fun err after =>
        Advances (Beside (fun _ => False) start stop) before after ∧ failed err) := by
  have whole {after : Rebuild} (advances : Advances (Beside owners first last) state after) :
      Advances (Beside (fun _ => False) start stop) before after := by
    refine ⟨Nat.le_trans begun.size advances.size, ?_⟩
    intro ref inside spared
    have later : ref.index < state.heap.size := Nat.lt_of_lt_of_le inside begun.size
    rw [advances.same ref later _, begun.same ref inside id]
    rintro (owner | own)
    · rcases covers ref owner with between | new
      · exact spared (Or.inr between)
      · exact Nat.not_lt_of_le new inside
    · exact spared (Or.inr (between_mono forward onward own))
  refine Ends.mono inner ?_ fun _ _ ⟨advances, broken⟩ => ⟨whole advances, broken⟩
  rintro result after ⟨advances, keyed, ended, fromKept⟩
  rw [← known] at keyed
  refine ⟨whole advances, keyed, settled result after ended, ?_⟩
  intro keeps
  exact value result after ended advances keeps
    (fromKept (keeps.second (fun _ => between_mono forward onward) begun.size))

end Constructs

/-! ### Single steps -/

section Steps

variable {ε : Type} {failed : ε → Prop}

theorem progress_write {written : Heap} (size : written.size = before.heap.size) :
    ({ before with heap := written } : Rebuild).progress = before.progress :=
  congrArg (Progress.mk · before.environments) size

theorem changeHeap_eq (change : Heap → Heap) (state : Rebuild) :
    (changeHeap change : Rebuilding ε Unit) state =
      .ok () { state with heap := change state.heap } :=
  rfl

theorem constructs_alloc {body : Body} (keyed : Keyed stop.known before) :
    Constructs heap owners stop stop before (alloc body : Rebuilding ε Ref)
      (fun _ _ => True)
      (fun ref after => ref.index = before.progress.size ∧
        after.progress = { before.progress with size := before.progress.size + 1 } ∧
        heap.get ref = Object.fresh body) failed := by
  have size := before.heap.size_alloc body
  refine Ends.modifyGet ⟨⟨?_, ?_⟩, ?_, trivial, ?_⟩
  · exact Nat.le_of_lt (Nat.lt_of_lt_of_eq (Nat.lt_succ_self _) size.symm)
  · intro ref inside _
    exact before.heap.get_alloc_old body inside
  · apply keyed.grow
    rw [size]
    exact Nat.le_succ _
  · intro keeps
    refine ⟨rfl, congrArg (Progress.mk · before.environments) size, ?_⟩
    rw [keeps (before.heap.alloc body).1 (Or.inr ⟨Nat.le_refl _,
      Nat.lt_of_lt_of_eq (Nat.lt_succ_self _) size.symm⟩)]
    exact before.heap.get_alloc_new body

/-- A new environment whose frame got these values under these names, behind what it had. -/
def withBindings (frame : Frame) (names : List String) (values : List Ref) : Object :=
  Object.fresh (.environment
    { frame with bindings := ⟨frame.bindings.entries ++ names.zip values⟩ })

theorem withBindings_nil (frame : Frame) (values : List Ref) :
    withBindings frame [] values = Object.fresh (.environment frame) := by
  rw [withBindings, List.zip_nil_left, List.append_nil]

theorem withBindings_cons (frame : Frame) (name : String) (value : Ref) (names : List String)
    (values : List Ref) :
    withBindings { frame with bindings := ⟨frame.bindings.entries ++ [(name, value)]⟩ } names
      values = withBindings frame (name :: names) (value :: values) := by
  simp only [withBindings, List.append_assoc, List.singleton_append, List.zip_cons_cons]

theorem withBindings_inj {frame : Frame} {names : List String} {first second : List Ref}
    (length : first.length = names.length) (length' : second.length = names.length)
    (same : withBindings frame names first = withBindings frame names second) :
    first = second := by
  have zipped : names.zip first = names.zip second := by
    simpa [withBindings, Object.fresh] using same
  rw [← List.map_snd_zip (Nat.le_of_eq length), zipped,
    List.map_snd_zip (Nat.le_of_eq length')]

theorem constructs_define {env value : Ref} {name : String} {frame : Frame}
    (keyed : Keyed stop.known before)
    (content : before.heap.get env = Object.fresh (.environment frame))
    (fresh : name ∉ frame.bindings.names) :
    Constructs heap (· = env) stop stop before
      (changeHeap fun heap => heap.define env name value : Rebuilding ε Unit)
      (fun _ after => after.progress = before.progress ∧ after.heap.get env =
        Object.fresh (.environment
          { frame with bindings := ⟨frame.bindings.entries ++ [(name, value)]⟩ }))
      (fun _ _ => True) failed := by
  have size := before.heap.size_define env name value
  refine Constructs.write keyed (changeHeap_eq _ before) size ?_ ⟨progress_write size, ?_⟩ trivial
  · intro ref different
    exact before.heap.get_define_other name value different
  · have body : before.heap.body env = .environment frame := congrArg Object.body content
    have inserted : frame.bindings.insert name value =
        ⟨frame.bindings.entries ++ [(name, value)]⟩ :=
      congrArg Mapping.mk (Mapping.insertEntry_new fresh value)
    show (before.heap.define env name value).get env = _
    rw [before.heap.get_define_same name value body, content, inserted]
    rfl

theorem constructs_setParent {env parent : Ref} {frame : Frame}
    (keyed : Keyed stop.known before)
    (content : before.heap.get env = Object.fresh (.environment frame)) :
    Constructs heap (· = env) stop stop before
      (changeHeap fun heap => heap.setParent env parent : Rebuilding ε Unit)
      (fun _ after => after.progress = before.progress ∧ after.heap.get env =
        Object.fresh (.environment { frame with parent := some parent }))
      (fun _ _ => True) failed := by
  have size := before.heap.size_setParent env parent
  refine Constructs.write keyed (changeHeap_eq _ before) size ?_ ⟨progress_write size, ?_⟩ trivial
  · intro ref different
    exact before.heap.get_setParent_other parent different
  · have body : before.heap.body env = .environment frame := congrArg Object.body content
    show (before.heap.setParent env parent).get env = _
    rw [before.heap.get_setParent_same parent body, content]
    rfl

theorem constructs_resolve {unknown : UInt32 → ε} {index : Nat} (keyed : Keyed stop.known before)
    (earlier : index < stop.known) :
    Constructs heap owners stop stop before (resolve unknown (UInt32.ofNat index))
      (fun _ after => after = before)
      (fun env _ => before.environments.lookup (UInt32.ofNat index) = some env) failed := by
  obtain ⟨env, found⟩ := keyed.lookup earlier
  unfold resolve
  refine Ends.bind (Ends.get ?_)
  split
  · rename_i env' found'
    exact ⟨.refl _ _, keyed, rfl, fun _ => found'⟩
  · rename_i missing
    rw [found] at missing
    cases missing

/-- The state in which a new environment is known under its number. -/
def entered (parent : Ref) (id : UInt32) (before : Rebuild) : Rebuild :=
  { heap := (before.heap.allocLocal parent).2
    environments := (id, ⟨before.heap.size⟩) :: before.environments }

theorem size_entered (parent : Ref) (id : UInt32) (before : Rebuild) :
    (entered parent id before).heap.size = before.heap.size + 1 :=
  before.heap.size_alloc _

theorem progress_entered (parent : Ref) (id : UInt32) (before : Rebuild) :
    (entered parent id before).progress = before.progress.enter id ⟨before.heap.size⟩ :=
  congrArg (Progress.mk · _) (size_entered parent id before)

theorem get_entered_old (parent : Ref) (id : UInt32) {ref : Ref}
    (inside : ref.index < before.heap.size) :
    (entered parent id before).heap.get ref = before.heap.get ref :=
  before.heap.get_alloc_old _ inside

theorem get_entered_new (parent : Ref) (id : UInt32) (before : Rebuild) :
    (entered parent id before).heap.get ⟨before.heap.size⟩ = Object.fresh (.environment
      { kind := .localEnv, bindings := Mapping.empty, parent := some parent }) :=
  before.heap.get_alloc_new _

theorem advances_entered (parent : Ref) (id : UInt32) (before : Rebuild) :
    Advances (fun _ => False) before (entered parent id before) := by
  constructor
  · rw [size_entered]
    exact Nat.le_succ _
  · intro ref inside _
    exact get_entered_old parent id inside

theorem keyed_entered {count : Nat} (keyed : Keyed count before) (parent : Ref) :
    Keyed (count + 1) (entered parent (UInt32.ofNat count) before) := by
  apply keyed.register (Nat.le_refl _)
  exact Nat.lt_of_lt_of_eq (Nat.lt_succ_self _) (size_entered parent 0 before).symm

end Steps

end Rebuilding

end ValueChannels

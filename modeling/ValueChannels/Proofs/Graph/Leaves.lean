import ValueChannels.Proofs.Graph.Packing
import ValueChannels.Proofs.Heap.Paths

/-!
Encoded values that hold no local environments. They are written as single items, and a context that
has the environments that they name makes new objects of them. Main statement:
`Codec.settles_packed`, what becomes of such a value when it is written and read.
-/

namespace ValueChannels

namespace Heap

/-- The kind of an environment that a context owns. -/
def namedKind? (heap : Heap) (ref : Ref) : Option EnvironmentKind :=
  match heap.body ref with
  | .environment frame => if frame.kind.isLocal then none else some frame.kind
  | _ => none

/-- The item of an encoded value, unless it holds a local environment. -/
def leaf? (heap : Heap) (ref : Ref) : Option NodeItem :=
  match heap.body ref with
  | .environment _ => (heap.namedKind? ref).map .named
  | .closure function =>
      (heap.namedKind? function.env).map fun kind =>
        .closure function.formals function.body (.bare (.named kind))
  | .language expr => some (.language expr)
  | .connection connection => some (.connection connection)
  | _ => none

/-- The value names an environment of this kind, or is one itself. -/
def Names (heap : Heap) (ref : Ref) (kind : EnvironmentKind) : Prop :=
  heap.namedKind? ref = some kind ∨
    ∃ function, heap.body ref = .closure function ∧ heap.namedKind? function.env = some kind

variable {heap other : Heap} {ref place : Ref}

theorem namedKind?_eq_some {kind : EnvironmentKind} (named : heap.namedKind? ref = some kind) :
    ∃ frame, heap.body ref = .environment frame ∧ frame.kind = kind ∧ kind.isLocal = false := by
  unfold namedKind? at named
  split at named
  · rename_i frame body
    split at named
    · cases named
    · rename_i isOther
      cases named
      exact ⟨frame, body, rfl, Bool.eq_false_iff.mpr isOther⟩
  · cases named

theorem namedKind?_isSome (named : (heap.body ref).isNamed = true) :
    ∃ kind, heap.namedKind? ref = some kind := by
  unfold namedKind?
  cases body : heap.body ref with
  | environment frame =>
      rw [body] at named
      have isOther : ¬frame.kind.isLocal = true := by
        simpa [Body.isNamed] using named
      exact ⟨frame.kind, if_neg isOther⟩
  | _ =>
      rw [body] at named
      cases named

theorem leaf?_congr (body : other.body place = heap.body ref)
    (around : ∀ function, heap.body ref = .closure function →
      other.body function.env = heap.body function.env) :
    other.leaf? place = heap.leaf? ref := by
  have here : other.namedKind? place = heap.namedKind? ref := by
    rw [namedKind?, namedKind?, body]
  unfold leaf?
  rw [body, here]
  cases content : heap.body ref with
  | closure function =>
      have behind : other.namedKind? function.env = heap.namedKind? function.env := by
        rw [namedKind?, namedKind?, around function content]
      simp only [behind]
  | _ => rfl

/-- What a value is that has such an item. -/
inductive IsLeaf (heap : Heap) (ref : Ref) : NodeItem → Prop where
  | named {kind : EnvironmentKind} (named : heap.namedKind? ref = some kind) :
      IsLeaf heap ref (.named kind)
  | closure {function : Closure} {kind : EnvironmentKind}
      (body : heap.body ref = .closure function)
      (around : heap.namedKind? function.env = some kind) :
      IsLeaf heap ref (.closure function.formals function.body (.bare (.named kind)))
  | language {expr : Expr} (body : heap.body ref = .language expr) :
      IsLeaf heap ref (.language expr)
  | connection {connection : Connection} (body : heap.body ref = .connection connection) :
      IsLeaf heap ref (.connection connection)

theorem isLeaf {item : NodeItem} (leaf : heap.leaf? ref = some item) : heap.IsLeaf ref item := by
  unfold leaf? at leaf
  split at leaf
  · obtain ⟨kind, named, rfl⟩ := Option.map_eq_some_iff.mp leaf
    exact .named named
  · rename_i function body
    obtain ⟨kind, around, rfl⟩ := Option.map_eq_some_iff.mp leaf
    exact .closure body around
  · rename_i expr body
    cases leaf
    exact .language body
  · rename_i connection body
    cases leaf
    exact .connection body
  · cases leaf

theorem names_congr {kind : EnvironmentKind} (body : other.body place = heap.body ref)
    (around : ∀ function, heap.body ref = .closure function →
      other.body function.env = heap.body function.env)
    (names : other.Names place kind) : heap.Names ref kind := by
  rcases names with itself | ⟨function, content, named⟩
  · rw [namedKind?, body] at itself
    exact Or.inl itself
  · rw [body] at content
    rw [namedKind?, around function content] at named
    exact Or.inr ⟨function, content, named⟩

end Heap

/-! ### Writing -/

namespace Node

variable {heap : Heap} {ref : Ref}

theorem encode_named {kind : EnvironmentKind} (named : heap.namedKind? ref = some kind)
    (depth : Nat) (known : List Ref) :
    encodeWithin heap (depth + 1) ref known = .ok (.bare (.named kind), known) := by
  obtain ⟨frame, body, same, isOther⟩ := Heap.namedKind?_eq_some named
  have content : (heap.get ref).body = .environment frame := body
  subst same
  simp only [encodeWithin, content, encodeBody, if_neg (Bool.eq_false_iff.mp isOther)]
  rfl

theorem encode_leaf {item : NodeItem} (leaf : heap.leaf? ref = some item)
    (bare : heap.attributes ref = none) (depth : Nat) (known : List Ref) :
    encodeWithin heap (depth + 2) ref known = .ok (.bare item, known) := by
  have attributes : (heap.get ref).attributes = none := bare
  cases Heap.isLeaf leaf with
  | named named => exact encode_named named (depth + 1) known
  | closure body around =>
      have content : (heap.get ref).body = .closure _ := body
      have behind := encode_named around depth known
      rw [encodeWithin]
      simp only [content, encodeBody, attributes, bind, StateT.bind, Except.bind, behind]
      rfl
  | language body =>
      have content : (heap.get ref).body = .language _ := body
      rw [encodeWithin]
      simp only [content, encodeBody, attributes]
      rfl
  | connection body =>
      have content : (heap.get ref).body = .connection _ := body
      rw [encodeWithin]
      simp only [content, encodeBody, attributes]
      rfl

theorem ofValue_leaf {item : NodeItem} (leaf : heap.leaf? ref = some item)
    (bare : heap.attributes ref = none) (room : 0 < heap.size) :
    ofValue heap ref = .ok (.bare item) := by
  have deep : 2 ≤ depthBound heap := by
    have square : 2 * 2 ≤ (heap.size + 1) * (heap.size + 1) :=
      Nat.mul_le_mul (by omega) (by omega)
    rw [depthBound]
    omega
  obtain ⟨depth, bound⟩ := Nat.exists_eq_add_of_le' deep
  rw [ofValue, bound, encode_leaf leaf bare depth []]
  rfl

end Node

/-! ### Reading -/

/-- What a context makes of the item of such a value. -/
inductive NodeItem.Settles (environments : Environments) (before : Heap) :
    NodeItem → Ref → Heap → Prop where
  | named {kind : EnvironmentKind} {env : Ref} (found : environments.find? kind = some env) :
      Settles environments before (.named kind) env before
  | closure {formals : List String} {body : Expr} {kind : EnvironmentKind} {env : Ref}
      (found : environments.find? kind = some env) :
      Settles environments before (.closure formals body (.bare (.named kind)))
        (before.alloc (.closure { formals, body, env })).1
        (before.alloc (.closure { formals, body, env })).2
  | language (expr : Expr) :
      Settles environments before (.language expr) (before.alloc (.language expr)).1
        (before.alloc (.language expr)).2
  | connection (connection : Connection) :
      Settles environments before (.connection connection)
        (before.alloc (.connection connection)).1 (before.alloc (.connection connection)).2

theorem Node.decode_leaf {heap : Heap} {ref : Ref} {item : NodeItem} {environments : Environments}
    (leaf : heap.leaf? ref = some item)
    (known : ∀ kind, heap.Names ref kind → ∃ env, environments.find? kind = some env)
    (before : Heap) :
    ∃ received after, (Node.bare item).decode environments { heap := before, environments := [] } =
        .ok received { heap := after, environments := [] } ∧
      item.Settles environments before received after := by
  cases Heap.isLeaf leaf with
  | named named =>
      obtain ⟨env, found⟩ := known _ (Or.inl named)
      refine ⟨env, before, ?_, .named found⟩
      simp only [Node.bare, Node.decode, NodeItem.decode, found]
      rfl
  | closure body around =>
      obtain ⟨env, found⟩ := known _ (Or.inr ⟨_, body, around⟩)
      refine ⟨_, _, ?_, .closure found⟩
      simp only [Node.bare, Node.decode, NodeItem.decode, found]
      rfl
  | language body =>
      refine ⟨_, _, ?_, .language _⟩
      simp only [Node.bare, Node.decode, NodeItem.decode]
      rfl
  | connection body =>
      refine ⟨_, _, ?_, .connection _⟩
      simp only [Node.bare, Node.decode, NodeItem.decode]
      rfl

namespace Codec

variable {heap : Heap} {ref : Ref} {item : NodeItem}

theorem serialize_leaf (leaf : heap.leaf? ref = some item) (bare : heap.attributes ref = none)
    (room : 0 < heap.size) : packed.serialize heap ref = .ok (Node.bare item).toItem.write := by
  have written := Node.ofValue_leaf leaf bare room
  show (do
    let node ← Node.ofValue heap ref
    pure node.toItem.write) = _
  rw [written]
  rfl

/-- The bytes of an encoded value without local environments are read in every heap, by a context
that has the environments that the value names. -/
theorem settles_packed {environments : Environments} (leaf : heap.leaf? ref = some item)
    (packable : (Node.bare item).toItem.Packable)
    (known : ∀ kind, heap.Names ref kind → ∃ env, environments.find? kind = some env)
    (before : Heap) :
    ∃ received after, packed.unserialize environments (Node.bare item).toItem.write before =
        .ok received after ∧ item.Settles environments before received after := by
  obtain ⟨received, after, decoded, settles⟩ := Node.decode_leaf leaf known before
  refine ⟨received, after, ?_, settles⟩
  have read : readPacked Node.decoder (Node.bare item).toItem.write = .ok (Node.bare item) :=
    readPacked_write packable (Node.decodes _ _)
  simp only [packed, unserializePacked, read, decoded]

end Codec

end ValueChannels

import ValueChannels.Proofs.Graph.Lossless
import ValueChannels.Proofs.Graph.Reviving
import ValueChannels.Proofs.Graph.Writing

/-!
Whole values through the packed codec. The node of a value depicts it, the bytes of the node are read
back as the node, and the reader makes a value that the node depicts as well, so both values are the
same graph. Main statement: `Codec.reproduces`.
-/

namespace ValueChannels

open Pack Rebuilding

/-- The format has room for the value: its environments can be told apart by numbers of 32 bits, no
length takes more, and the arrays of its encoding nest no deeper than the reader goes. -/
structure Heap.Fits (heap : Heap) (value : Ref) : Prop where
  numbers : ∀ envs : List Ref, envs.Nodup →
    (∀ env ∈ envs, Leads heap.links value env ∧ (heap.body env).isLocal = true) →
      envs.length ≤ UInt32.size
  lengths : ∀ node, Node.ofValue heap value = .ok node → node.toItem.longest < Pack.capacity 4
  shallow : ∀ node, Node.ofValue heap value = .ok node → node.toItem.levels ≤ nestingLimit

namespace Node

variable {source target : Heap} {value : Ref} {environments : Environments} {node : Node}
  {known : List Ref}

theorem keyed_start (heap : Heap) : Keyed 0 { heap, environments := [] } :=
  ⟨rfl, List.nodup_nil, fun _ member => nomatch member⟩

/-- A node that depicts a value is read into a heap without changing what was there, and depicts
what it is read as. -/
theorem decode_depicts (passage : Passage source value target environments)
    (depicts : Scene.Depicts { heap := source, numbered := known, owns := fun _ _ => True } 0 node
      value known.length) (few : known.length ≤ UInt32.size) :
    ∃ copy after, node.decode environments { heap := target, environments := [] } =
        .ok copy after ∧
      target.Extends after.heap ∧ Keyed known.length after ∧
      (Scene.revived environments after.heap after.environments).Depicts 0 node copy
        known.length := by
  let first : Scene := { heap := source, numbered := known, owns := fun _ _ => True }
  have toHere : Passage first.heap value target environments := passage
  have revived {final : Heap} {table : List (UInt32 × Ref)}
      (aftermath : Aftermath target final table) :=
    revives toHere aftermath node 0 known.length value { heap := target, environments := [] } depicts
      (.refl _ _) few (keyed_start target)
  have unpacked := unpacks environments node target _ (.start environments target)
  cases ended : node.decode environments { heap := target, environments := [] } with
  | error reason after =>
      have nothing : Aftermath target target [] := ⟨.refl target, fun _ member => nomatch member⟩
      exact (Ends.error (revived nothing) ended).2.elim
  | ok copy after =>
      have unpacking := (Ends.ok unpacked ended).1.unpacking
      have aftermath : Aftermath target after.heap after.environments :=
        ⟨unpacking.extend, fun entry member => (unpacking.known entry member).1⟩
      obtain ⟨_, keyed, _, value⟩ := Ends.ok (revived aftermath) ended
      exact ⟨copy, after, rfl, unpacking.extend, keyed, value (fun _ _ => rfl) List.suffix_rfl⟩

end Node

namespace Codec

variable {source target : Heap} {value : Ref} {environments : Environments}

/-- The codec reproduces the whole graph of a value. -/
theorem reproduces (passage : Passage source value target environments)
    (grounded : source.Grounded source.links value) (fits : source.Fits value) :
    ∃ bytes copy after, packed.serialize source value = .ok bytes ∧
      packed.unserialize environments bytes target = .ok copy after ∧ target.Extends after ∧
      Reproduced Eq environments source after source.links after.links value copy := by
  obtain ⟨node, known, made, met, depicts⟩ :=
    Node.depicts_ofValue passage.written.sound passage.inside grounded
  have few : known.length ≤ UInt32.size := by
    apply fits.numbers known met.distinct
    intro env member
    obtain ⟨leads, _, isLocal⟩ := met.among env member
    exact ⟨leads, isLocal⟩
  have packable : node.toItem.Packable :=
    node.packable ⟨fits.lengths node made, fits.shallow node made⟩
  obtain ⟨copy, after, decoded, extend, keyed, depicts'⟩ :=
    Node.decode_depicts passage depicts few
  refine ⟨node.toItem.write, copy, after.heap, ?_, ?_, extend, ?_⟩
  · simp only [packed, made]
    rfl
  · have read : readPacked Node.decoder node.toItem.write = .ok node :=
      readPacked_write packable (Node.decodes _ node)
    simp only [packed, unserializePacked, read, decoded]
  · refine depicts.reproduced depicts' ⟨met.distinct, few⟩ ⟨?_, ?_⟩ fun _ _ owns => owns
    · show (after.environments.reverse.map Prod.snd).Nodup
      rw [List.map_reverse, List.nodup_reverse]
      exact keyed.distinct
    · show (after.environments.reverse.map Prod.snd).length ≤ UInt32.size
      rw [List.length_map, List.length_reverse, keyed.length]
      exact few

/-- Two contexts in one heap, and a function of the first that is bound in the environment which it
was made in. -/
def twoContexts : Heap :=
  (Environments.create (Environments.create Heap.initial).2).2

def functionHeap : Heap :=
  let (env, heap) := twoContexts.allocLocal (Environments.create Heap.initial).1.global
  let (function, heap) := heap.alloc (.closure { formals := ["x"], body := .symbol "x", env })
  heap.define env "f" function

def functionReader : Environments :=
  (Environments.create (Environments.create Heap.initial).2).1

theorem sound_functionHeap : functionHeap.Sound := by
  have contexts := Environments.heap_create (Environments.heap_create Heap.sound_initial)
  have env := contexts.allocLocal
    (show (Environments.create Heap.initial).1.global.index < _ by decide)
  have function : (Heap.alloc _ (.closure
      { formals := ["x"], body := .symbol "x", env := ⟨10⟩ })).2.Sound :=
    env.alloc (fun impossible => nomatch impossible) (fun impossible => nomatch impossible)
      (fun _ impossible => nomatch impossible) (by decide)
  exact function.define "f" (by decide) (by decide)

theorem sound_functionReader : functionReader.Sound functionHeap :=
  Environments.sound_fixed ⟨rfl, rfl⟩ ⟨_, rfl, rfl⟩ ⟨_, rfl, rfl⟩ ⟨_, rfl, rfl⟩ ⟨_, rfl, rfl⟩

/-- What the function leads to. -/
def FunctionPart (ref : Ref) : Prop :=
  ref = ⟨11⟩ ∨ ref = ⟨10⟩ ∨ ref = ⟨4⟩

theorem closed_functionPart : ∀ ref, FunctionPart ref →
    ∀ child ∈ (functionHeap.links ref).map Prod.snd, FunctionPart child := by
  unfold FunctionPart
  rintro ref (rfl | rfl | rfl)
  · decide
  · decide
  · decide

theorem passage_function : Passage functionHeap ⟨11⟩ functionHeap functionReader where
  written := ⟨sound_functionHeap, rfl, rfl⟩
  inside := by decide
  read := ⟨sound_functionHeap, rfl, rfl⟩
  owned := sound_functionReader
  available := by
    intro ref frame leads body isNamed
    have part : FunctionPart ref := leads.induct (Or.inl rfl) closed_functionPart
    rcases part with rfl | rfl | rfl
    · cases body
    · cases body
      cases isNamed
    · cases body
      exact ⟨_, rfl⟩

theorem grounded_function : functionHeap.Grounded functionHeap.links ⟨11⟩ := by
  refine Heap.grounded_of_rank FunctionPart Ref.index (Or.inl rfl) closed_functionPart ?_
  rintro ref (rfl | rfl | rfl)
  · decide
  · decide
  · decide

theorem fits_function : functionHeap.Fits ⟨11⟩ where
  numbers := by
    intro envs distinct each
    have most := Heap.locals_le_size distinct fun env member => (each env member).2
    exact Nat.le_trans most (by decide)
  lengths := by
    intro node made
    cases made
    decide +kernel
  shallow := by
    intro node made
    cases made
    decide +kernel

theorem reproduces_function : ∃ bytes copy after,
    packed.serialize functionHeap ⟨11⟩ = .ok bytes ∧
      packed.unserialize functionReader bytes functionHeap = .ok copy after ∧
      functionHeap.Extends after ∧
      Reproduced Eq functionReader functionHeap after functionHeap.links after.links ⟨11⟩ copy :=
  reproduces passage_function grounded_function fits_function

end Codec

end ValueChannels

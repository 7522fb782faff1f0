import ValueChannels.Builtin.Table
import ValueChannels.Proofs.Heap.Access
import ValueChannels.Proofs.Number.Exact

/-!
How builtin functions read numbers and ids of channels. A value denotes a whole number if it is an
integer vector of length one that holds it, or a double vector of length one whose double stands
for exactly that number, within 64 bits; the limits of both kinds of numbers are met exactly.
Main statement: `numbers_read_exactly`.
-/

namespace ValueChannels

namespace Heap

variable {heap : Heap} {ref : Ref} {n : Int}

/-- What it is for a value to denote a whole number, in the arithmetic of the rationals. -/
inductive Denotes (heap : Heap) (ref : Ref) (n : Int) : Prop where
  | integer (k : Int32) (found : heap.body ref = .vector (.integer [k])) (same : k.toInt = n)
  | double (x : Double) (found : heap.body ref = .vector (.double [x]))
      (stands : x.value? = some (n : ℚ)) (low : -2 ^ 63 ≤ n) (high : n < 2 ^ 63)

theorem Denotes.bounds (denotes : heap.Denotes ref n) : -2 ^ 63 ≤ n ∧ n < 2 ^ 63 := by
  cases denotes with
  | integer k found same =>
      have low := k.le_toInt
      have high := k.toInt_lt
      omega
  | double x found stands low high => exact ⟨low, high⟩

theorem Denotes.readInteger (denotes : heap.Denotes ref n) : heap.readInteger ref = .ok n := by
  cases denotes with
  | integer k found same =>
      rw [Heap.readInteger, vector?, found]
      exact congrArg _ same
  | double x found stands low high =>
      have whole : x.whole? = some n := Double.whole?_eq_some.mpr stands
      rw [Heap.readInteger, vector?, found]
      simp only [whole]
      exact if_pos ⟨low, high⟩

/-- What is read is denoted, and nothing else is said when nothing is read. -/
theorem readInteger_cases (heap : Heap) (ref : Ref) :
    (∃ n, heap.readInteger ref = .ok n ∧ heap.Denotes ref n) ∨
      heap.readInteger ref = .error (.expectedInteger (heap.kind ref)) := by
  unfold Heap.readInteger vector?
  dsimp only
  split
  · rename_i k found
    split at found
    · rename_i data body
      cases found
      exact Or.inl ⟨k.toInt, rfl, .integer k body rfl⟩
    · cases found
  · rename_i x found
    split at found
    · rename_i data body
      cases found
      cases whole : x.whole? with
      | none => exact Or.inr rfl
      | some n =>
          by_cases fits : -0x8000000000000000 ≤ n ∧ n < 0x8000000000000000
          · refine Or.inl ⟨n, if_pos fits, ?_⟩
            exact .double x body (Double.whole?_eq_some.mp whole) fits.1 fits.2
          · exact Or.inr (if_neg fits)
    · cases found
  · exact Or.inr rfl

theorem readInteger_eq_ok : heap.readInteger ref = .ok n ↔ heap.Denotes ref n := by
  refine ⟨fun read => ?_, Denotes.readInteger⟩
  rcases heap.readInteger_cases ref with ⟨m, found, denotes⟩ | refused
  · rw [found] at read
    cases read
    exact denotes
  · rw [refused] at read
    cases read

theorem Denotes.readHandle_zero (denotes : heap.Denotes ref 0) :
    heap.readHandle ref = .error (.invalidId 0) := by
  rw [readHandle, denotes.readInteger]
  rfl

theorem denotes_of_readHandle {handle : Handle} (read : heap.readHandle ref = .ok handle) :
    heap.Denotes ref handle.toRaw := by
  rcases heap.readInteger_cases ref with ⟨raw, found, denotes⟩ | refused
  · rw [readHandle, found] at read
    dsimp only at read
    cases known : Handle.ofRaw? raw with
    | none =>
        rw [known] at read
        cases read
    | some handle =>
        rw [known] at read
        cases read
        have forms : Handle.rawForms = 2 ^ 64 := rfl
        have bounds := denotes.bounds
        rw [Handle.toRaw_of_ofRaw? (by omega) (by omega) known]
        exact denotes
  · rw [readHandle, refused] at read
    cases read

/-- How the number that a value may denote is read from it. -/
structure ReadsExactly (heap : Heap) (ref : Ref) : Prop where
  /-- A number is read if and only if the value denotes it. -/
  number : ∀ n, heap.readInteger ref = .ok n ↔ heap.Denotes ref n
  /-- Every other value is refused, with the kind that it has instead. -/
  refusal : (∀ n, ¬heap.Denotes ref n) →
    heap.readInteger ref = .error (.expectedInteger (heap.kind ref))
  /-- No number beyond 64 bits is ever read. -/
  bounds : ∀ n, heap.readInteger ref = .ok n → -2 ^ 63 ≤ n ∧ n < 2 ^ 63
  /-- No number is read as the id of another channel. -/
  handle : ∀ handle, heap.readHandle ref = .ok handle → heap.Denotes ref handle.toRaw
  /-- No channel has the id zero. -/
  zero : heap.Denotes ref 0 → heap.readHandle ref = .error (.invalidId 0)

theorem reads_exactly (heap : Heap) (ref : Ref) : heap.ReadsExactly ref := by
  constructor
  · exact fun n => readInteger_eq_ok
  · intro nothing
    rcases heap.readInteger_cases ref with ⟨n, found, denotes⟩ | refused
    · exact absurd denotes (nothing n)
    · exact refused
  · intro n read
    exact (readInteger_eq_ok.mp read).bounds
  · exact fun handle => denotes_of_readHandle
  · exact Denotes.readHandle_zero

end Heap

namespace Handle

variable {handle : Handle}

/-- The raw form is an id: a channel in use has it, it did not wrap around, and it fits the 32 bits
of an integer value. -/
structure Numbered (handle : Handle) : Prop where
  used : 0 < handle.slot
  unwrapped : handle.slot < 2 ^ 63
  low : -2 ^ 31 ≤ handle.toRaw
  high : handle.toRaw < 2 ^ 31

theorem Numbered.ofRaw? (numbered : handle.Numbered) :
    Handle.ofRaw? handle.toRaw = some handle := by
  have forms : rawForms = 2 ^ 64 := rfl
  have unwrapped := numbered.unwrapped
  exact ofRaw?_toRaw (Nat.ne_of_gt numbered.used) (by omega)

theorem Numbered.readHandle (numbered : handle.Numbered) {heap : Heap} {ref : Ref}
    (denotes : heap.Denotes ref handle.toRaw) : heap.readHandle ref = .ok handle := by
  rw [Heap.readHandle, denotes.readInteger]
  simp only [numbered.ofRaw?]

theorem Numbered.toInt (numbered : handle.Numbered) :
    (Int32.ofInt handle.toRaw).toInt = handle.toRaw := by
  exact Int32.toInt_ofInt_of_le numbered.low numbered.high

theorem Numbered.allocHandle (numbered : handle.Numbered) (exchange : Exchange) :
    ∃ id heap, exchange.allocHandle handle = (.ok id, { exchange with heap }) ∧
      heap.body id = .vector (.integer [Int32.ofInt handle.toRaw]) := by
  refine ⟨_, _, if_pos ⟨numbered.low, numbered.high⟩, ?_⟩
  exact congrArg Object.body (exchange.heap.get_alloc_new _)

/-- How the id of a handle is read back, in each of the forms in which it can be given. -/
structure ReadsBack (handle : Handle) : Prop where
  integer : ∀ (heap : Heap) (ref : Ref),
    heap.body ref = .vector (.integer [Int32.ofInt handle.toRaw]) →
    heap.readHandle ref = .ok handle
  double : ∀ (heap : Heap) (ref : Ref) (x : Double), heap.body ref = .vector (.double [x]) →
    x.value? = some (handle.toRaw : ℚ) → heap.readHandle ref = .ok handle
  /-- There is such a double. -/
  rounded : (Double.ofInt handle.toRaw).value? = some (handle.toRaw : ℚ)
  /-- The id that a function answers for the handle is one of these. -/
  answered : ∀ exchange : Exchange, ∃ id heap,
    exchange.allocHandle handle = (.ok id, { exchange with heap }) ∧
      heap.readHandle id = .ok handle

theorem Numbered.readsBack (numbered : handle.Numbered) : handle.ReadsBack := by
  have low := numbered.low
  have high := numbered.high
  have integer (heap : Heap) (ref : Ref)
      (found : heap.body ref = .vector (.integer [Int32.ofInt handle.toRaw])) :
      heap.readHandle ref = .ok handle :=
    numbered.readHandle (.integer _ found numbered.toInt)
  constructor
  · exact integer
  · intro heap ref x found stands
    exact numbered.readHandle (.double x found stands (by omega) (by omega))
  · exact Double.value?_ofInt (by omega)
  · intro exchange
    obtain ⟨id, heap, allocated, found⟩ := numbered.allocHandle exchange
    exact ⟨id, heap, allocated, integer heap id found⟩

end Handle

theorem Builtins.handleArgument_of_readHandle {heap : Heap} {id : Ref} {handle : Handle}
    (read : heap.readHandle id = .ok handle) (function : String) (further : List Ref) :
    handleArgument function heap (id :: further) (further.length + 1) = .ok handle := by
  simp only [handleArgument, Arguments.checkCount, List.length_cons, if_true,
    Arguments.handleAt, Arguments.readAt, List.getElem?_cons_zero, read]

/-- Numbers are read exactly, from all values, and ids are read back as the handles that they are
the ids of. -/
theorem numbers_read_exactly :
    (∀ (heap : Heap) (ref : Ref), heap.ReadsExactly ref) ∧
      ∀ handle : Handle, handle.Numbered → handle.ReadsBack :=
  ⟨Heap.reads_exactly, fun _ => Handle.Numbered.readsBack⟩

/-- The last worker whose id still fits an integer value. -/
theorem numbers_read_exactly_last :
    (Handle.mk (2 ^ 31) .worker).Numbered ∧ (Handle.mk (2 ^ 31) .worker).ReadsBack := by
  have numbered : (Handle.mk (2 ^ 31) .worker).Numbered := by
    constructor <;> decide
  exact ⟨numbered, numbers_read_exactly.2 _ numbered⟩

/-- A heap with the ids of two handles that no channel in use has: slot 0, and a slot so large that
its number wraps around. -/
def strayIds : Heap :=
  ⟨#[Object.fresh (.vector (.integer [0])), Object.fresh (.vector (.integer [-1]))]⟩

/-- An id of 32 bits alone does not make a handle: slot 0 is never in use and its id is refused, and
a slot that wraps around has the id of another one. -/
theorem stray_ids_are_not_read_back :
    ((Handle.mk 0 .master).toRaw = 0 ∧ strayIds.readHandle ⟨0⟩ = .error (.invalidId 0)) ∧
      ((Handle.mk (2 ^ 64 - 1) .master).toRaw = -1 ∧
        strayIds.readHandle ⟨1⟩ = .ok ⟨1, .worker⟩) ∧
      ¬∀ handle : Handle, -2 ^ 31 ≤ handle.toRaw → handle.toRaw < 2 ^ 31 →
        ∀ (heap : Heap) (ref : Ref),
          heap.body ref = .vector (.integer [Int32.ofInt handle.toRaw]) →
          heap.readHandle ref = .ok handle := by
  refine ⟨⟨rfl, rfl⟩, ⟨rfl, rfl⟩, fun every => ?_⟩
  have read := every ⟨0, .master⟩ (by decide) (by decide) strayIds ⟨0⟩ rfl
  cases read

end ValueChannels

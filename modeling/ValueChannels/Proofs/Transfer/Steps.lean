import Mathlib.Data.List.Forall2

/-!
Computations that read and write a state, by what they end with, and lists that are worked off
one step behind the other. Main statements: what a sequence of two computations ends with, and
what the steps over a list have in common.
-/

namespace ValueChannels

section Ends

variable {ε σ α β : Type}

/-- A computation ends with a result and a state that are right, or with an error and a state that
are right for an error. -/
def Ends (action : EStateM ε σ α) (state : σ) (done : α → σ → Prop) (failed : ε → σ → Prop) :
    Prop :=
  match action state with
  | .ok result after => done result after
  | .error err after => failed err after

variable {action : EStateM ε σ α} {state : σ} {done : α → σ → Prop} {failed : ε → σ → Prop}

theorem Ends.pure {result : α} (holds : done result state) :
    Ends (Pure.pure result : EStateM ε σ α) state done failed :=
  holds

theorem Ends.throw {err : ε} (holds : failed err state) :
    Ends (MonadExcept.throw err : EStateM ε σ α) state done failed :=
  holds

theorem Ends.bind {next : α → EStateM ε σ β} {done : β → σ → Prop}
    (first : Ends action state (fun result after => Ends (next result) after done failed) failed) :
    Ends (action >>= next) state done failed := by
  unfold Ends at first ⊢
  simp only [Bind.bind, EStateM.bind]
  cases ended : action state with
  | ok result after =>
      rw [ended] at first
      exact first
  | error err after =>
      rw [ended] at first
      exact first

theorem Ends.map {change : α → β} {done : β → σ → Prop}
    (first : Ends action state (fun result after => done (change result) after) failed) :
    Ends (change <$> action) state done failed := by
  unfold Ends at first ⊢
  simp only [Functor.map, EStateM.map]
  cases ended : action state with
  | ok result after =>
      rw [ended] at first
      exact first
  | error err after =>
      rw [ended] at first
      exact first

theorem Ends.get {done : σ → σ → Prop} (holds : done state state) :
    Ends (MonadState.get : EStateM ε σ σ) state done failed :=
  holds

theorem Ends.modifyGet {step : σ → α × σ} (holds : done (step state).1 (step state).2) :
    Ends (MonadState.modifyGet step : EStateM ε σ α) state done failed :=
  holds

theorem Ends.mono {done' : α → σ → Prop} {failed' : ε → σ → Prop}
    (ends : Ends action state done failed) (right : ∀ result after, done result after →
      done' result after) (wrong : ∀ err after, failed err after → failed' err after) :
    Ends action state done' failed' := by
  unfold Ends at ends ⊢
  cases ended : action state with
  | ok result after =>
      rw [ended] at ends
      exact right result after ends
  | error err after =>
      rw [ended] at ends
      exact wrong err after ends

theorem Ends.and {done' : α → σ → Prop} {failed' : ε → σ → Prop}
    (first : Ends action state done failed) (second : Ends action state done' failed') :
    Ends action state (fun result after => done result after ∧ done' result after)
      (fun err after => failed err after ∧ failed' err after) := by
  unfold Ends at first second ⊢
  cases ended : action state with
  | ok result after =>
      rw [ended] at first second
      exact ⟨first, second⟩
  | error err after =>
      rw [ended] at first second
      exact ⟨first, second⟩

theorem Ends.ran : Ends action state (fun result after => action state = .ok result after)
    (fun err after => action state = .error err after) := by
  unfold Ends
  cases action state with
  | ok _ _ => rfl
  | error _ _ => rfl

theorem Ends.any : Ends action state (fun _ _ => True) (fun _ _ => True) := by
  unfold Ends
  cases action state with
  | ok _ _ => trivial
  | error _ _ => trivial

theorem Ends.ok (ends : Ends action state done failed) {result : α} {after : σ}
    (ended : action state = .ok result after) : done result after := by
  unfold Ends at ends
  rw [ended] at ends
  exact ends

theorem Ends.error (ends : Ends action state done failed) {err : ε} {after : σ}
    (ended : action state = .error err after) : failed err after := by
  unfold Ends at ends
  rw [ended] at ends
  exact ends

end Ends

theorem run_of_toOption {ε σ α : Type} {run : Except ε α × σ} {result : α}
    (built : run.1.toOption = some result) : run = (.ok result, run.2) := by
  obtain ⟨outcome, after⟩ := run
  cases outcome with
  | error reason => cases built
  | ok found =>
      cases built
      rfl

theorem stateT_bind_ok {ε σ α β : Type} {first : StateT σ (Except ε) α}
    {next : α → StateT σ (Except ε) β} {start stop : σ} {result : β}
    (ran : (first >>= next) start = .ok (result, stop)) :
    ∃ value middle, first start = .ok (value, middle) ∧ next value middle = .ok (result, stop) := by
  simp only [bind, StateT.bind, Except.bind] at ran
  cases ended : first start with
  | error reason =>
      rw [ended] at ran
      cases ran
  | ok pair =>
      rw [ended] at ran
      exact ⟨pair.1, pair.2, rfl, ran⟩

theorem stateT_pure_ok {ε σ α : Type} {value result : α} {start stop : σ}
    (ran : (pure value : StateT σ (Except ε) α) start = .ok (result, stop)) :
    result = value ∧ stop = start := by
  cases ran
  exact ⟨rfl, rfl⟩

section Succeeds

variable {ε σ α β : Type} {action : StateT σ (Except ε) α} {state : σ} {done : α → σ → Prop}

/-- A computation gives a result, which is right together with the state that it ends with. -/
def Succeeds (action : StateT σ (Except ε) α) (state : σ) (done : α → σ → Prop) : Prop :=
  ∃ result after, action state = .ok (result, after) ∧ done result after

theorem Succeeds.pure {result : α} (holds : done result state) :
    Succeeds (Pure.pure result : StateT σ (Except ε) α) state done :=
  ⟨result, state, rfl, holds⟩

theorem Succeeds.get {done : σ → σ → Prop} (holds : done state state) :
    Succeeds (MonadState.get : StateT σ (Except ε) σ) state done :=
  ⟨state, state, rfl, holds⟩

theorem Succeeds.set {done : PUnit → σ → Prop} {next : σ} (holds : done ⟨⟩ next) :
    Succeeds (MonadStateOf.set next : StateT σ (Except ε) PUnit) state done :=
  ⟨⟨⟩, next, rfl, holds⟩

theorem Succeeds.bind {next : α → StateT σ (Except ε) β} {done' : β → σ → Prop}
    (first : Succeeds action state done)
    (second : ∀ result after, done result after → Succeeds (next result) after done') :
    Succeeds (action >>= next) state done' := by
  obtain ⟨result, middle, ran, holds⟩ := first
  obtain ⟨found, after, ran', holds'⟩ := second result middle holds
  refine ⟨found, after, ?_, holds'⟩
  simp only [Bind.bind, StateT.bind, Except.bind, ran]
  exact ran'

theorem Succeeds.map {change : α → β} {done' : β → σ → Prop} (first : Succeeds action state done)
    (right : ∀ result after, done result after → done' (change result) after) :
    Succeeds (change <$> action) state done' := by
  obtain ⟨result, after, ran, holds⟩ := first
  refine ⟨change result, after, ?_, right result after holds⟩
  simp only [Functor.map, StateT.map, ran]
  rfl

end Succeeds

section Threads

variable {σ α β : Type}

/-- The elements of two lists belong together in order, each pair by a step from the state where
the pair before it ended. -/
inductive Threads (step : σ → α → β → σ → Prop) : σ → List α → List β → σ → Prop where
  | nil (state : σ) : Threads step state [] [] state
  | cons {first second third : σ} {a : α} {b : β} {as : List α} {bs : List β}
      (head : step first a b second) (tail : Threads step second as bs third) :
      Threads step first (a :: as) (b :: bs) third

variable {step : σ → α → β → σ → Prop} {start stop : σ} {as : List α} {bs : List β}

theorem Threads.length (threads : Threads step start as bs stop) : as.length = bs.length := by
  induction threads with
  | nil => rfl
  | cons _ _ ih => simp [ih]

theorem Threads.append {middle : σ} {cs : List α} {ds : List β}
    (first : Threads step start as bs middle) (second : Threads step middle cs ds stop) :
    Threads step start (as ++ cs) (bs ++ ds) stop := by
  induction first with
  | nil => exact second
  | cons head _ ih => exact .cons head (ih second)

theorem Threads.split {cs : List α} (threads : Threads step start (as ++ cs) bs stop) :
    ∃ firsts seconds middle, bs = firsts ++ seconds ∧ Threads step start as firsts middle ∧
      Threads step middle cs seconds stop := by
  induction as generalizing start bs with
  | nil => exact ⟨[], bs, start, rfl, .nil _, threads⟩
  | cons a as ih =>
      cases threads with
      | cons head tail =>
          obtain ⟨firsts, seconds, middle, whole, left, right⟩ := ih tail
          exact ⟨_ :: firsts, seconds, middle, congrArg _ whole, .cons head left, right⟩

theorem Threads.of_nil (threads : Threads step start [] bs stop) : bs = [] ∧ stop = start := by
  cases threads
  exact ⟨rfl, rfl⟩

theorem Threads.forall₂ {relation : α → β → Prop} (threads : Threads step start as bs stop)
    (implies : ∀ first, ∀ a ∈ as, ∀ b second, step first a b second → relation a b) :
    List.Forall₂ relation as bs := by
  induction threads with
  | nil => exact .nil
  | cons head tail ih =>
      refine .cons (implies _ _ List.mem_cons_self _ _ head) (ih ?_)
      intro first a member
      exact implies first a (List.mem_cons_of_mem _ member)

theorem Threads.member (threads : Threads step start as bs stop) {a : α} (member : a ∈ as) :
    ∃ b ∈ bs, ∃ first second, step first a b second := by
  induction threads with
  | nil => cases member
  | cons head tail ih =>
      rcases List.mem_cons.mp member with same | later
      · rw [same]
        exact ⟨_, List.mem_cons_self, _, _, head⟩
      · obtain ⟨b, inside, taken⟩ := ih later
        exact ⟨b, List.mem_cons_of_mem _ inside, taken⟩

/-- The step at which a measure passes a number that all steps together pass. -/
theorem Threads.passes {measure : σ → Nat} {index : Nat} (threads : Threads step start as bs stop)
    (above : measure start ≤ index) (below : index < measure stop) :
    ∃ a ∈ as, ∃ b ∈ bs, ∃ first second, step first a b second ∧ measure first ≤ index ∧
      index < measure second := by
  induction threads with
  | nil => omega
  | cons head tail ih =>
      rename_i middle _ _ _ _ _
      by_cases here : index < measure middle
      · exact ⟨_, List.mem_cons_self, _, List.mem_cons_self, _, _, head, above, here⟩
      · obtain ⟨a, inside, b, inside', taken⟩ := ih (Nat.le_of_not_lt here) below
        exact ⟨a, List.mem_cons_of_mem _ inside, b, List.mem_cons_of_mem _ inside', taken⟩

theorem Threads.monotone {measure : σ → Nat} (threads : Threads step start as bs stop)
    (grows : ∀ first, ∀ a ∈ as, ∀ b second, step first a b second →
      measure first ≤ measure second) : measure start ≤ measure stop := by
  induction threads with
  | nil => exact Nat.le_refl _
  | cons head tail ih =>
      refine Nat.le_trans (grows _ _ List.mem_cons_self _ _ head) (ih ?_)
      intro first a member
      exact grows first a (List.mem_cons_of_mem _ member)

end Threads

theorem forall₂_right {α β : Type} {relation : α → β → Prop} {as : List α} {bs : List β} {b : β}
    (related : List.Forall₂ relation as bs) (member : b ∈ bs) : ∃ a ∈ as, relation a b := by
  induction related with
  | nil => cases member
  | cons head tail ih =>
      rcases List.mem_cons.mp member with same | later
      · rw [same]
        exact ⟨_, List.mem_cons_self, head⟩
      · obtain ⟨a, inside, holds⟩ := ih later
        exact ⟨a, List.mem_cons_of_mem _ inside, holds⟩

theorem number_inj {index other : Nat} (small : index < UInt32.size) (small' : other < UInt32.size)
    (same : UInt32.ofNat index = UInt32.ofNat other) : index = other := by
  have values := congrArg UInt32.toNat same
  rw [UInt32.toNat_ofNat', UInt32.toNat_ofNat'] at values
  rw [Nat.mod_eq_of_lt small, Nat.mod_eq_of_lt small'] at values
  exact values

end ValueChannels

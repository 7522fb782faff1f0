import ValueChannels.Proofs.Heap.Paths

/-!
Values that are the same graph. Main statement: `reproduced_of_rel`, that a relation which walks two
values in step and pairs their local environments one by one makes them the same graph.
-/

namespace ValueChannels

/-- A value and its copy are the same graph when their objects have these ways out: along every path
there is the same in both, and two paths lead to one local environment in the value exactly when
they do in the copy. Environments that a context owns are those of the context of the copy. -/
structure Reproduced (alike : Content → Content → Prop) (environments : Environments)
    (before after : Heap) (ways others : Ref → List (Edge × Ref)) (original copy : Ref) :
    Prop where
  /-- Paths lead somewhere in both or in neither, to objects with the same content that have the
  same ways out in the same order. -/
  paths : ∀ path, Option.Rel
    (fun first second => alike (before.content first) (after.content second) ∧
      (ways first).map Prod.fst = (others second).map Prod.fst)
    (follow? ways original path) (follow? others copy path)
  identity : ∀ path path' first first' second second',
    follow? ways original path = some first → follow? ways original path' = some first' →
      follow? others copy path = some second → follow? others copy path' = some second' →
        (before.body first).isLocal = true → (first = first' ↔ second = second')
  owned : ∀ path first second frame,
    follow? ways original path = some first → follow? others copy path = some second →
      before.body first = .environment frame → frame.kind.isLocal = false →
        environments.find? frame.kind = some second

section Reproduced

variable {alike : Content → Content → Prop} {environments : Environments} {before after : Heap}
  {ways others : Ref → List (Edge × Ref)} {original copy : Ref} {relation : Ref → Ref → Prop}

/-- Where the same path leads from related objects, there are related objects. -/
theorem related_of_follow? (related : relation original copy)
    (parallel : ∀ first second, relation first second →
      Parallel relation (ways first) (others second)) {path : List Edge} {first second : Ref}
    (here : follow? ways original path = some first)
    (there : follow? others copy path = some second) : relation first second := by
  have rel := follow?_rel parallel path related
  rw [here, there] at rel
  cases rel with
  | some related => exact related

theorem reproduced_of_rel (related : relation original copy)
    (contents : ∀ first second, relation first second →
      alike (before.content first) (after.content second))
    (parallel : ∀ first second, relation first second →
      Parallel relation (ways first) (others second))
    (single : ∀ first first' second second', relation first second → relation first' second' →
      (before.body first).isLocal = true → (first = first' ↔ second = second'))
    (owned : ∀ first second frame, relation first second → before.body first = .environment frame →
      frame.kind.isLocal = false → environments.find? frame.kind = some second) :
    Reproduced alike environments before after ways others original copy := by
  constructor
  · intro path
    have rel := follow?_rel parallel path related
    generalize follow? ways original path = here, follow? others copy path = there at rel
    cases rel with
    | none => exact .none
    | some here => exact .some ⟨contents _ _ here, (parallel _ _ here).labels⟩
  · intro path path' first first' second second' here here' there there' isLocal
    exact single first first' second second' (related_of_follow? related parallel here there)
      (related_of_follow? related parallel here' there') isLocal
  · intro path first second frame here there body named
    exact owned first second frame (related_of_follow? related parallel here there) body named

end Reproduced

end ValueChannels

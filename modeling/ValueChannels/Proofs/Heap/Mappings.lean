import ValueChannels.Proofs.Heap.Access

/-!
What a mapping says of names, and in which order. A name that is inserted again keeps its place and
a new one comes last; a name that is erased is gone. Main statements: `names_insert` and
`names_erase`, `Attributes.setting` for what the setting of one attribute does, and
`Attributes.proper_ofList` for what any number of them lead to.
-/

namespace ValueChannels

namespace Mapping

variable {α : Type} {mapping : Mapping α} {name other : String}

theorem names_insertEntry_known {entries : List (String × α)}
    (known : name ∈ entries.map Prod.fst) (value : α) :
    (insertEntry name value entries).map Prod.fst = entries.map Prod.fst := by
  induction entries with
  | nil => cases known
  | cons entry rest ih =>
      obtain ⟨key, old⟩ := entry
      by_cases here : name = key
      · simp only [insertEntry, here, if_true, List.map_cons]
      · have later : name ∈ rest.map Prod.fst := (List.mem_cons.mp known).resolve_left here
        simp only [insertEntry, here, if_false, List.map_cons, ih later]

/-- A name that is there keeps its place, and a new one comes last. -/
theorem names_insert (mapping : Mapping α) (name : String) (value : α) :
    (mapping.insert name value).names =
      if name ∈ mapping.names then mapping.names else mapping.names ++ [name] := by
  split
  · rename_i known
    exact names_insertEntry_known known value
  · rename_i fresh
    have added := insertEntry_new fresh value
    rw [names, insert, added, List.map_append]
    rfl

theorem names_erase (mapping : Mapping α) (name : String) :
    (mapping.erase name).names = mapping.names.erase name := by
  obtain ⟨entries⟩ := mapping
  simp only [names, erase]
  induction entries with
  | nil => rfl
  | cons entry rest ih =>
      obtain ⟨key, value⟩ := entry
      by_cases here : name = key
      · simp only [eraseEntry, here, if_true, List.map_cons, List.erase_cons_head]
      · have differs : ¬(key == name) = true := fun same => here (eq_of_beq same).symm
        simp only [eraseEntry, here, if_false, List.map_cons, List.erase_cons_tail differs, ih]

theorem get?_eq_none : mapping.get? name = none ↔ name ∉ mapping.names := by
  rw [get?, List.lookup_eq_none_iff, names]
  constructor
  · intro apart member
    obtain ⟨entry, present, same⟩ := List.mem_map.mp member
    simpa [same] using apart entry present
  · intro fresh entry present
    have apart : name ≠ entry.1 := by
      intro same
      rw [same] at fresh
      exact fresh (List.mem_map_of_mem present)
    exact bne_iff_ne.mpr apart

theorem mem_names_of_get? {value : α} (found : mapping.get? name = some value) :
    name ∈ mapping.names := by
  refine Decidable.byContradiction fun absent => ?_
  rw [get?_eq_none.mpr absent] at found
  cases found

theorem get?_of_mem_names (member : name ∈ mapping.names) :
    ∃ value, mapping.get? name = some value := by
  cases found : mapping.get? name with
  | some value => exact ⟨value, rfl⟩
  | none => exact absurd member (get?_eq_none.mp found)

theorem get?_erase (distinct : mapping.names.Nodup) :
    (mapping.erase name).get? other = if other = name then none else mapping.get? other := by
  by_cases same : other = name
  · rw [if_pos same, get?_eq_none, names_erase, same]
    exact distinct.not_mem_erase
  · rw [if_neg same]
    obtain ⟨entries⟩ := mapping
    simp only [get?, erase]
    clear distinct
    induction entries with
    | nil => rfl
    | cons entry rest ih =>
        obtain ⟨key, value⟩ := entry
        by_cases here : name = key
        · have apart : ¬other = key := fun found => same (found.trans here.symm)
          simp only [eraseEntry, here, if_true, lookup_cons, apart, if_false]
        · simp only [eraseEntry, here, if_false, lookup_cons, ih]

end Mapping

namespace Attributes

variable {before after : Option Attributes} {name : String} {value : Ref}

/-- The names of a mapping that may be absent. -/
def namesOf (attributes : Option Attributes) : List String :=
  (attributes.getD Mapping.empty).names

/-- The value of a name in a mapping that may be absent. -/
def find? (attributes : Option Attributes) (name : String) : Option Ref :=
  attributes.bind fun mapping => mapping.get? name

/-- One attribute was set. The others have the values and the order that they had; the attribute has
the place that it had or else the last one; and when it was set to NULL it is gone, and so is a
mapping without attributes. -/
structure Sets (before : Option Attributes) (name : String) (value : Ref)
    (after : Option Attributes) : Prop where
  found : ∀ other, find? after other =
    if other = name then (if value = Ref.null then none else some value) else find? before other
  names : namesOf after =
    if value = Ref.null then (namesOf before).erase name
    else if name ∈ namesOf before then namesOf before else namesOf before ++ [name]
  something : ∀ mapping, after = some mapping → mapping.entries ≠ []

theorem find?_getD (attributes : Option Attributes) (name : String) :
    find? attributes name = (attributes.getD Mapping.empty).get? name := by
  cases attributes <;> rfl

theorem getD_normalize (attributes : Option Attributes) :
    (normalize attributes).getD Mapping.empty = attributes.getD Mapping.empty := by
  cases attributes with
  | none => rfl
  | some mapping =>
      obtain ⟨entries⟩ := mapping
      cases entries <;> rfl

/-- Setting an attribute in a mapping whose names are distinct. -/
theorem setting (distinct : (namesOf before).Nodup) (name : String) (value : Ref) :
    Sets before name value (normalize (some (set (before.getD Mapping.empty) name value))) := by
  constructor
  · intro other
    rw [find?_getD, getD_normalize, find?_getD, Option.getD_some, set]
    by_cases null : value = Ref.null
    · simp only [null, if_true]
      exact Mapping.get?_erase distinct
    · simp only [null, if_false]
      exact Mapping.get?_insert _ name other value
  · rw [namesOf, getD_normalize, Option.getD_some, set]
    split
    · exact Mapping.names_erase _ name
    · exact Mapping.names_insert _ name value
  · intro mapping normal
    exact (eq_of_normalize normal).2

/-- The names are distinct, and none of the values is NULL. -/
def Proper (mapping : Attributes) : Prop :=
  mapping.names.Nodup ∧ ∀ entry ∈ mapping.entries, entry.2 ≠ Ref.null

theorem Proper.set {mapping : Attributes} (proper : Proper mapping) (name : String) (value : Ref) :
    Proper (Attributes.set mapping name value) := by
  unfold Attributes.set
  split
  · refine ⟨Mapping.nodup_names_erase name proper.1, fun entry member => ?_⟩
    exact proper.2 entry ((Mapping.eraseEntry_sublist name mapping.entries).subset member)
  · rename_i something
    refine ⟨Mapping.nodup_names_insert name value proper.1, fun entry member => ?_⟩
    rcases Mapping.mem_insertEntry (List.mem_map_of_mem member) with same | old
    · rw [same]
      exact something
    · obtain ⟨entry', present, same⟩ := List.mem_map.mp old
      rw [← same]
      exact proper.2 entry' present

/-- Whatever entries are set, repeated names and NULL among them. -/
theorem proper_ofList (entries : List (String × Ref)) : Proper (ofList entries) := by
  have first : Proper Mapping.empty := ⟨List.nodup_nil, List.forall_mem_nil _⟩
  rw [ofList]
  generalize Mapping.empty = mapping at first ⊢
  induction entries generalizing mapping with
  | nil => exact first
  | cons entry rest ih => exact ih _ (first.set entry.1 entry.2)

end Attributes

end ValueChannels

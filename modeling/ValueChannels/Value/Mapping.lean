/-!
Ordered mappings from names. The first entry of a name counts, and names keep the order
in which they were first inserted. Main statements: what `get?` finds after `insert` and
`erase`, and that `insert` never repeats a name.
-/

namespace ValueChannels

/-- Entries in order of first insertion. -/
structure Mapping (α : Type) where
  entries : List (String × α)
  deriving DecidableEq, Inhabited

namespace Mapping

variable {α : Type}

def empty : Mapping α := ⟨[]⟩

def names (mapping : Mapping α) : List String :=
  mapping.entries.map Prod.fst

def size (mapping : Mapping α) : Nat :=
  mapping.entries.length

def isEmpty (mapping : Mapping α) : Bool :=
  mapping.entries.isEmpty

def get? (mapping : Mapping α) (name : String) : Option α :=
  mapping.entries.lookup name

/-- The entries with the value of a name replaced, or with the name added at the end. -/
def insertEntry (name : String) (value : α) : List (String × α) → List (String × α)
  | [] => [(name, value)]
  | (key, old) :: rest =>
      if name = key then (key, value) :: rest else (key, old) :: insertEntry name value rest

def insert (mapping : Mapping α) (name : String) (value : α) : Mapping α :=
  ⟨insertEntry name value mapping.entries⟩

def eraseEntry (name : String) : List (String × α) → List (String × α)
  | [] => []
  | (key, value) :: rest => if name = key then rest else (key, value) :: eraseEntry name rest

def erase (mapping : Mapping α) (name : String) : Mapping α :=
  ⟨eraseEntry name mapping.entries⟩

theorem lookup_cons (name key : String) (value : α) (rest : List (String × α)) :
    ((key, value) :: rest).lookup name = if name = key then some value else rest.lookup name := by
  by_cases same : name = key
  · rw [same, List.lookup_cons_self, if_pos rfl]
  · have differs : (name == key) = false := beq_eq_false_iff_ne.mpr same
    simp only [List.lookup_cons, differs, if_neg same]

theorem lookup_insertEntry (name other : String) (value : α) (entries : List (String × α)) :
    (insertEntry name value entries).lookup other =
      if other = name then some value else entries.lookup other := by
  induction entries with
  | nil => rw [insertEntry, lookup_cons]
  | cons entry rest ih =>
      obtain ⟨key, old⟩ := entry
      by_cases found : name = key
      · subst found
        simp only [insertEntry, if_true, lookup_cons]
        by_cases same : other = name
        · simp only [same, if_true]
        · simp only [same, if_false]
      · simp only [insertEntry, found, if_false, lookup_cons, ih]
        by_cases here : other = key
        · subst here
          have different : ¬other = name := fun same => found same.symm
          simp only [different, if_true, if_false]
        · simp only [here, if_false]

@[simp] theorem get?_insert (mapping : Mapping α) (name other : String) (value : α) :
    (mapping.insert name value).get? other =
      if other = name then some value else mapping.get? other :=
  lookup_insertEntry name other value mapping.entries

theorem mem_names_insertEntry (name other : String) (value : α) (entries : List (String × α)) :
    other ∈ (insertEntry name value entries).map Prod.fst ↔
      other = name ∨ other ∈ entries.map Prod.fst := by
  induction entries with
  | nil => simp [insertEntry]
  | cons entry rest ih =>
      obtain ⟨key, old⟩ := entry
      by_cases found : name = key
      · subst found
        simp [insertEntry]
      · simp only [insertEntry, found, if_false, List.map_cons, List.mem_cons, ih]
        constructor
        · rintro (same | same | inside)
          · exact Or.inr (Or.inl same)
          · exact Or.inl same
          · exact Or.inr (Or.inr inside)
        · rintro (same | same | inside)
          · exact Or.inr (Or.inl same)
          · exact Or.inl same
          · exact Or.inr (Or.inr inside)

theorem nodup_names_insert {mapping : Mapping α} (name : String) (value : α)
    (distinct : mapping.names.Nodup) : (mapping.insert name value).names.Nodup := by
  obtain ⟨entries⟩ := mapping
  simp only [names, insert] at distinct ⊢
  induction entries with
  | nil => simp [insertEntry]
  | cons entry rest ih =>
      obtain ⟨key, old⟩ := entry
      simp only [List.map_cons, List.nodup_cons] at distinct
      by_cases found : name = key
      · subst found
        simpa [insertEntry] using distinct
      · simp only [insertEntry, found, if_false, List.map_cons, List.nodup_cons]
        refine ⟨?_, ih distinct.2⟩
        rw [mem_names_insertEntry]
        rintro (same | inside)
        · exact found same.symm
        · exact distinct.1 inside

theorem insertEntry_new {name : String} {entries : List (String × α)}
    (fresh : name ∉ entries.map Prod.fst) (value : α) :
    insertEntry name value entries = entries ++ [(name, value)] := by
  induction entries with
  | nil => rfl
  | cons entry rest ih =>
      obtain ⟨key, old⟩ := entry
      have apart : ¬name = key := fun same => fresh (by simp [same])
      have later : name ∉ rest.map Prod.fst := fun member => fresh (List.mem_cons_of_mem _ member)
      simp [insertEntry, apart, ih later]

/-- Every value after an insertion is the inserted one or was there before. -/
theorem mem_insertEntry {name : String} {value : α} {entries : List (String × α)} {found : α}
    (member : found ∈ (insertEntry name value entries).map Prod.snd) :
    found = value ∨ found ∈ entries.map Prod.snd := by
  induction entries with
  | nil =>
      rw [insertEntry, List.map_singleton, List.mem_singleton] at member
      exact Or.inl member
  | cons entry rest ih =>
      obtain ⟨key, old⟩ := entry
      by_cases here : name = key
      · simp only [insertEntry, here, if_true, List.map_cons, List.mem_cons] at member
        rcases member with same | inside
        · exact Or.inl same
        · exact Or.inr (List.mem_cons_of_mem _ inside)
      · simp only [insertEntry, here, if_false, List.map_cons, List.mem_cons] at member
        rcases member with same | inside
        · rw [same]
          exact Or.inr List.mem_cons_self
        · rcases ih inside with same | old'
          · exact Or.inl same
          · exact Or.inr (List.mem_cons_of_mem _ old')

theorem eraseEntry_sublist (name : String) (entries : List (String × α)) :
    (eraseEntry name entries).Sublist entries := by
  induction entries with
  | nil => exact List.Sublist.slnil
  | cons entry rest ih =>
      obtain ⟨key, old⟩ := entry
      by_cases found : name = key
      · simp [eraseEntry, found]
      · simpa [eraseEntry, found] using ih

theorem nodup_names_erase {mapping : Mapping α} (name : String)
    (distinct : mapping.names.Nodup) : (mapping.erase name).names.Nodup :=
  ((eraseEntry_sublist name mapping.entries).map Prod.fst).nodup distinct

end Mapping

end ValueChannels

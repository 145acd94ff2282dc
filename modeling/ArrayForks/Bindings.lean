/-! # Named values in order of definition

A finite map from names to values that remembers the order in which its names were first bound.
Binding a name again replaces the value and keeps the place; removing a name closes the gap.
Frames of variables and the fields of structures are such maps. What the names are is left open:
variables have texts for names, and the entries of a structure may also have numbers.

* **`find?`**, **`insert`**, **`erase`**: what is found after inserting and erasing is said by
  `find?_insert` and `find?_erase`, and the order of names by `names_insert`. -/

namespace ArrayForks

/-- Values bound to distinct names, in the order in which the names were first bound. -/
structure Bindings (ν α : Type) where
  /-- The names with their values, oldest first. -/
  entries : List (ν × α)
  /-- No name is bound twice. -/
  nodup : (entries.map Prod.fst).Nodup

namespace Bindings

variable {ν α : Type}

/-- Bindings are the same if their entries are. -/
@[ext] theorem ext {left right : Bindings ν α} (equal : left.entries = right.entries) :
    left = right := by
  cases left
  cases right
  cases equal
  rfl

/-- No bindings. -/
def empty : Bindings ν α :=
  ⟨[], .nil⟩

instance : Inhabited (Bindings ν α) :=
  ⟨empty⟩

/-- Nothing is bound. -/
@[simp] theorem entries_empty : (empty : Bindings ν α).entries = [] :=
  rfl

/-- The bound names, oldest first. -/
def names (bindings : Bindings ν α) : List ν :=
  bindings.entries.map Prod.fst

/-- No name is bound. -/
@[simp] theorem names_empty : (empty : Bindings ν α).names = [] :=
  rfl

/-- Each name is bound once. -/
theorem names_nodup (bindings : Bindings ν α) : bindings.names.Nodup :=
  bindings.nodup

/-- The values in order. -/
def values (bindings : Bindings ν α) : List α :=
  bindings.entries.map Prod.snd

/-- The number of bound names. -/
def size (bindings : Bindings ν α) : Nat :=
  bindings.entries.length

section

variable [DecidableEq ν]

/-- The value bound to a name. -/
def find? (bindings : Bindings ν α) (name : ν) : Option α :=
  bindings.entries.lookup name

/-- No name is found. -/
@[simp] theorem find?_empty (name : ν) : (empty : Bindings ν α).find? name = none :=
  rfl

/-- Whether a name is bound. -/
def contains (bindings : Bindings ν α) (name : ν) : Bool :=
  (bindings.find? name).isSome

/-- A name with a value is bound. -/
theorem contains_of_find? {bindings : Bindings ν α} {name : ν} {value : α}
    (found : bindings.find? name = some value) : bindings.contains name = true := by
  rw [contains, found, Option.isSome_some]

/-- A name without a value is not bound. -/
theorem contains_of_find?_eq_none {bindings : Bindings ν α} {name : ν}
    (missing : bindings.find? name = none) : bindings.contains name = false := by
  rw [contains, missing, Option.isSome_none]

/-- The first name has the first value. -/
theorem find?_first {bindings : Bindings ν α} {name : ν} {value : α} {others : List (ν × α)}
    (isFirst : bindings.entries = (name, value) :: others) : bindings.find? name = some value := by
  rw [find?, isFirst, List.lookup_cons_self]

/-! ### Entries of a list -/

/-- Replace the value of a name in a list of entries, or add the entry at the end. -/
def putEntry (name : ν) (value : α) : List (ν × α) → List (ν × α)
  | [] => [(name, value)]
  | entry :: rest =>
      if entry.1 = name then (name, value) :: rest else entry :: putEntry name value rest

/-- Putting an entry keeps the names, and adds the name at the end when it is new. -/
theorem map_fst_putEntry (name : ν) (value : α) (entries : List (ν × α)) :
    (putEntry name value entries).map Prod.fst =
      if name ∈ entries.map Prod.fst then entries.map Prod.fst
      else entries.map Prod.fst ++ [name] := by
  induction entries with
  | nil => simp [putEntry]
  | cons entry rest inductionHypothesis =>
      by_cases same : entry.1 = name
      · simp [putEntry, same]
      · have other : ¬ name = entry.1 := fun equal => same equal.symm
        by_cases bound : name ∈ rest.map Prod.fst
        · simp only [putEntry, same, if_false, List.map_cons, inductionHypothesis, bound,
            if_true, List.mem_cons, other, false_or]
        · simp only [putEntry, same, if_false, List.map_cons, inductionHypothesis, bound,
            List.mem_cons, other, false_or, List.cons_append]

/-- Putting an entry binds its name and leaves every other name as it was. -/
theorem lookup_putEntry (name other : ν) (value : α) (entries : List (ν × α)) :
    (putEntry name value entries).lookup other =
      if other = name then some value else entries.lookup other := by
  induction entries with
  | nil =>
      by_cases same : other = name
      · simp [putEntry, same]
      · simp [putEntry, same, List.lookup_cons, beq_false_of_ne same]
  | cons entry rest inductionHypothesis =>
      obtain ⟨key, held⟩ := entry
      by_cases same : key = name
      · by_cases asked : other = name
        · simp [putEntry, same, asked]
        · simp [putEntry, same, asked, List.lookup_cons, beq_false_of_ne asked]
      · by_cases asked : other = key
        · simp [putEntry, same, asked]
        · simp [putEntry, same, List.lookup_cons, beq_false_of_ne asked, inductionHypothesis]

/-- A name is found exactly when it is among the names. -/
theorem lookup_isSome (name : ν) (entries : List (ν × α)) :
    (entries.lookup name).isSome = true ↔ name ∈ entries.map Prod.fst := by
  induction entries with
  | nil => simp
  | cons entry rest inductionHypothesis =>
      obtain ⟨key, held⟩ := entry
      by_cases same : name = key
      · simp [same]
      · simp [List.lookup_cons, beq_false_of_ne same, inductionHypothesis, same]

/-- A name that is kept is looked up among the entries that are kept. -/
theorem lookup_filter {name : ν} (keep : ν → Bool) (kept : keep name = true)
    (entries : List (ν × α)) :
    (entries.filter fun entry => keep entry.1).lookup name = entries.lookup name := by
  induction entries with
  | nil => rfl
  | cons entry rest inductionHypothesis =>
      obtain ⟨key, held⟩ := entry
      by_cases same : name = key
      · subst same
        simp [kept]
      · by_cases keyKept : keep key = true
        · simp [keyKept, List.lookup_cons, beq_false_of_ne same, inductionHypothesis]
        · simp [keyKept, List.lookup_cons, beq_false_of_ne same, inductionHypothesis]

/-- Among entries with distinct names, an entry is there exactly when its value is found. -/
theorem mem_iff_lookup {entries : List (ν × α)} (nodup : (entries.map Prod.fst).Nodup) (name : ν)
    (value : α) : (name, value) ∈ entries ↔ entries.lookup name = some value := by
  constructor
  · intro isIn
    obtain ⟨before, after, rfl⟩ := List.append_of_mem isIn
    refine List.lookup_eq_some_iff.mpr ⟨before, after, rfl, fun entry isBefore => ?_⟩
    rw [List.map_append, List.map_cons] at nodup
    have differ := (List.nodup_append.mp nodup).2.2 entry.1 (List.mem_map_of_mem isBefore) name
      List.mem_cons_self
    exact bne_iff_ne.mpr fun same => differ same.symm
  · intro found
    obtain ⟨before, after, rfl, -⟩ := List.lookup_eq_some_iff.mp found
    simp

/-! ### Operations -/

/-- Bind a name: its value is replaced in place, or the binding is added at the end. -/
def insert (bindings : Bindings ν α) (name : ν) (value : α) : Bindings ν α where
  entries := putEntry name value bindings.entries
  nodup := by
    rw [map_fst_putEntry]
    have nodup := bindings.nodup
    by_cases bound : name ∈ bindings.entries.map Prod.fst
    · simp only [bound, if_true, nodup]
    · simp only [bound, if_false]
      refine List.nodup_append.mpr ⟨nodup, by simp, ?_⟩
      intro left inLeft right inRight equal
      simp only [List.mem_singleton] at inRight
      exact bound (inRight ▸ equal ▸ inLeft)

/-- Remove a name. -/
def erase (bindings : Bindings ν α) (name : ν) : Bindings ν α where
  entries := bindings.entries.filter fun entry => entry.1 ≠ name
  nodup := bindings.nodup.sublist (List.filter_sublist.map _)

/-- Bind the names of a list one after the other. -/
def insertAll (bindings : Bindings ν α) (entries : List (ν × α)) : Bindings ν α :=
  entries.foldl (fun bindings entry => bindings.insert entry.1 entry.2) bindings

/-- The bindings of a list; a name that comes again keeps its first place and its last value. -/
def ofList (entries : List (ν × α)) : Bindings ν α :=
  empty.insertAll entries

/-- Binding a name is seen when it is looked up, and no other look-up changes. -/
theorem find?_insert (bindings : Bindings ν α) (name other : ν) (value : α) :
    (bindings.insert name value).find? other =
      if other = name then some value else bindings.find? other :=
  lookup_putEntry name other value bindings.entries

/-- The names after binding a name. -/
theorem names_insert (bindings : Bindings ν α) (name : ν) (value : α) :
    (bindings.insert name value).names =
      if name ∈ bindings.names then bindings.names else bindings.names ++ [name] :=
  map_fst_putEntry name value bindings.entries

/-- A name is bound exactly when it is among the names. -/
theorem contains_iff (bindings : Bindings ν α) (name : ν) :
    bindings.contains name = true ↔ name ∈ bindings.names :=
  lookup_isSome name bindings.entries

/-- Removing a name is seen when it is looked up, and no other look-up changes. -/
theorem find?_erase (bindings : Bindings ν α) (name other : ν) :
    (bindings.erase name).find? other = if other = name then none else bindings.find? other := by
  by_cases asked : other = name
  · rw [if_pos asked]
    refine List.lookup_eq_none_iff.mpr fun entry isKept => ?_
    have isOther : entry.1 ≠ name := of_decide_eq_true (List.mem_filter.mp isKept).2
    exact bne_iff_ne.mpr fun same => isOther (same ▸ asked)
  · rw [if_neg asked]
    exact lookup_filter (fun key => key ≠ name) (decide_eq_true asked) bindings.entries

/-- Removing a bound name leaves fewer names. -/
theorem size_erase_lt {bindings : Bindings ν α} {name : ν}
    (bound : bindings.contains name = true) : (bindings.erase name).size < bindings.size := by
  obtain ⟨entry, isIn, isName⟩ := List.mem_map.mp ((contains_iff bindings name).mp bound)
  exact List.length_filter_lt_length_iff_exists.mpr ⟨entry, isIn, by simp [isName]⟩

/-- Binding a name keeps the names before it. -/
theorem names_grow_insert (bindings : Bindings ν α) (name : ν) (value : α) :
    bindings.names <+: (bindings.insert name value).names := by
  rw [names_insert]
  split
  · exact List.prefix_rfl
  · exact List.prefix_append _ _

/-- A value that is found is among the values. -/
theorem mem_values_of_find? {bindings : Bindings ν α} {name : ν} {value : α}
    (found : bindings.find? name = some value) : value ∈ bindings.values := by
  obtain ⟨before, after, split, _⟩ := List.lookup_eq_some_iff.mp found
  rw [values, split]
  simp

/-- Binding a name adds no value but its own. -/
theorem mem_values_insert {bindings : Bindings ν α} {name : ν} {value other : α}
    (isIn : other ∈ (bindings.insert name value).values) :
    other = value ∨ other ∈ bindings.values := by
  obtain ⟨entries, nodup⟩ := bindings
  simp only [values, insert] at isIn ⊢
  clear nodup
  induction entries with
  | nil => simpa [putEntry] using isIn
  | cons entry rest inductionHypothesis =>
      unfold putEntry at isIn
      split at isIn
      · rcases List.mem_cons.mp isIn with rfl | later
        · exact .inl rfl
        · exact .inr (List.mem_cons_of_mem _ later)
      · rcases List.mem_cons.mp isIn with rfl | later
        · exact .inr List.mem_cons_self
        · exact (inductionHypothesis later).imp_right (List.mem_cons_of_mem _)

/-- Bindings hold no values but those that they had and those that were bound. -/
theorem mem_values_insertAll {bindings : Bindings ν α} {entries : List (ν × α)} {value : α}
    (isIn : value ∈ (bindings.insertAll entries).values) :
    value ∈ bindings.values ∨ value ∈ entries.map Prod.snd := by
  induction entries generalizing bindings with
  | nil => exact .inl isIn
  | cons entry rest inductionHypothesis =>
      rcases inductionHypothesis isIn with earlier | later
      · rcases mem_values_insert earlier with rfl | before
        · exact .inr List.mem_cons_self
        · exact .inl before
      · exact .inr (List.mem_cons_of_mem _ later)

/-- The bindings of a list hold no values but those of the list. -/
theorem mem_of_mem_values_ofList {entries : List (ν × α)} {value : α}
    (isIn : value ∈ (ofList entries).values) : value ∈ entries.map Prod.snd :=
  (mem_values_insertAll isIn).resolve_left List.not_mem_nil

/-- Bindings have no names but those that they had and those that were bound. -/
theorem mem_names_insertAll {bindings : Bindings ν α} {entries : List (ν × α)} {name : ν}
    (isIn : name ∈ (bindings.insertAll entries).names) :
    name ∈ bindings.names ∨ name ∈ entries.map Prod.fst := by
  induction entries generalizing bindings with
  | nil => exact .inl isIn
  | cons entry rest inductionHypothesis =>
      rcases inductionHypothesis isIn with earlier | later
      · rw [names_insert] at earlier
        split at earlier
        · exact .inl earlier
        · rcases List.mem_append.mp earlier with before | new
          · exact .inl before
          · exact .inr (List.mem_singleton.mp new ▸ List.mem_cons_self)
      · exact .inr (List.mem_cons_of_mem _ later)

/-- The bindings of a list have no names but those of the list. -/
theorem mem_of_mem_names_ofList {entries : List (ν × α)} {name : ν}
    (isIn : name ∈ (ofList entries).names) : name ∈ entries.map Prod.fst :=
  (mem_names_insertAll isIn).resolve_left List.not_mem_nil

/-- Rebinding a bound name changes no name. -/
theorem names_insert_of_contains {bindings : Bindings ν α} {name : ν}
    (bound : bindings.contains name = true) (value : α) :
    (bindings.insert name value).names = bindings.names := by
  rw [names_insert, if_pos ((contains_iff bindings name).mp bound)]

end

end Bindings

end ArrayForks

/-!
# Maps from names to values, in the order of the names

A `SortedMap α` holds its entries in strictly ascending order of their names, so a name occurs
once and two maps with the same look-ups are equal. Names are ordered by their characters' code
points, which is also the order of their UTF-8 bytes.

Main statement: `pairwise_insertEntry`, inserting an entry keeps the order.
-/

namespace SearchJoin

/-- Puts `value` under `name` into an ascending list of entries, in place of what stood there. -/
def insertEntry {α : Type} (name : String) (value : α) : List (String × α) → List (String × α)
  | [] => [(name, value)]
  | (other, held) :: rest =>
    if name < other then (name, value) :: (other, held) :: rest
    else if name = other then (name, value) :: rest
    else (other, held) :: insertEntry name value rest

theorem fst_mem_insertEntry {α : Type} {name : String} {value : α} {entries : List (String × α)}
    {entry : String × α} (h : entry ∈ insertEntry name value entries) :
    entry.1 = name ∨ entry ∈ entries := by
  induction entries with
  | nil => exact .inl (by simp_all [insertEntry])
  | cons head rest ih =>
    obtain ⟨other, held⟩ := head
    unfold insertEntry at h
    split at h
    · cases List.mem_cons.1 h with
      | inl here => exact .inl (by rw [here])
      | inr later => exact .inr later
    · split at h
      · cases List.mem_cons.1 h with
        | inl here => exact .inl (by rw [here])
        | inr later => exact .inr (List.mem_cons_of_mem _ later)
      · cases List.mem_cons.1 h with
        | inl here => exact .inr (by rw [here]; exact List.mem_cons_self)
        | inr later =>
          cases ih later with
          | inl same => exact .inl same
          | inr old => exact .inr (List.mem_cons_of_mem _ old)

theorem pairwise_insertEntry {α : Type} (name : String) (value : α) {entries : List (String × α)}
    (sorted : entries.Pairwise (fun a b => a.1 < b.1)) :
    (insertEntry name value entries).Pairwise (fun a b => a.1 < b.1) := by
  induction entries with
  | nil => exact List.pairwise_singleton _ _
  | cons head rest ih =>
    obtain ⟨other, held⟩ := head
    obtain ⟨below, restSorted⟩ := List.pairwise_cons.1 sorted
    unfold insertEntry
    split
    · rename_i less
      refine List.pairwise_cons.2 ⟨fun entry member => ?_, sorted⟩
      cases List.mem_cons.1 member with
      | inl here => rw [here]; exact less
      | inr later => exact String.lt_trans less (below entry later)
    · split
      · rename_i same
        exact List.pairwise_cons.2 ⟨fun entry member => same ▸ below entry member, restSorted⟩
      · rename_i notLess notSame
        refine List.pairwise_cons.2 ⟨fun entry member => ?_, ih restSorted⟩
        cases fst_mem_insertEntry member with
        | inl here =>
          rw [here]
          have atMost : other ≤ name := String.not_lt.1 notLess
          refine Decidable.byContradiction fun notGreater => notSame ?_
          exact String.le_antisymm (String.not_lt.1 notGreater) atMost
        | inr later => exact below entry later

/-- A finite map from names to values. -/
structure SortedMap (α : Type) where
  /-- The entries, by name. -/
  entries : List (String × α)
  /-- Names ascend strictly. -/
  sorted : entries.Pairwise (fun a b => a.1 < b.1)

namespace SortedMap

variable {α : Type}

/-- The map with no entry. -/
def empty : SortedMap α := ⟨[], .nil⟩

instance : Inhabited (SortedMap α) := ⟨empty⟩

/-- Puts `value` under `name`, in place of what stood there. -/
def insert (map : SortedMap α) (name : String) (value : α) : SortedMap α :=
  ⟨insertEntry name value map.entries, pairwise_insertEntry name value map.sorted⟩

/-- The map of a list of entries; of a name that is repeated the last entry counts. -/
def ofList (entries : List (String × α)) : SortedMap α :=
  entries.foldl (fun map entry => map.insert entry.1 entry.2) empty

/-- The value under `name`. -/
def get? (map : SortedMap α) (name : String) : Option α := map.entries.lookup name

@[ext] theorem ext {a b : SortedMap α} (h : a.entries = b.entries) : a = b := by
  cases a; cases b; cases h; rfl

end SortedMap

end SearchJoin

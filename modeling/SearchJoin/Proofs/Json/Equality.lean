import SearchJoin.Json.Basic
import Mathlib.Data.List.Forall2
import Mathlib.Data.Option.Basic

/-!
# Equality of trees

Two equalities of trees are in use: being the same tree, and being the same value, for which the two zeros of
binary64 are one. What is true of both is proved for every relation that goes by the parts of a tree.

Main statement: `Json.IsEquality.ofPresent_iff`, fields that are left out stay apart from fields that are there.
-/

namespace SearchJoin.Json

variable {rel : Json → Json → Prop}

/-- Two fields of one name with values that are related. -/
def SameField (rel : Json → Json → Prop) (a b : String × Json) : Prop := a.1 = b.1 ∧ rel a.2 b.2

/-- The relation goes by the parts of a tree. -/
structure IsEquality (rel : Json → Json → Prop) : Prop where
  str : ∀ {s t : String}, rel (.str s) (.str t) ↔ s = t
  ofUInt64 : ∀ {m n : UInt64}, rel (.ofUInt64 m) (.ofUInt64 n) ↔ m = n
  arr : ∀ {xs ys : List Json}, rel (.arr xs) (.arr ys) ↔ List.Forall₂ rel xs ys
  obj : ∀ {xs ys : List (String × Json)}, rel (.obj xs) (.obj ys) ↔ List.Forall₂ (SameField rel) xs ys

/-! ## The two equalities -/

theorem sameField_eq : SameField (· = ·) = (· = ·) := by
  funext a b
  exact propext Prod.ext_iff.symm

theorem ofUInt64_inj {m n : UInt64} : Json.ofUInt64 m = .ofUInt64 n ↔ m = n := by
  refine ⟨?_, congrArg _⟩
  intro h
  injection h with h
  injection h with h
  exact UInt64.toNat_inj.1 (Int.ofNat.inj (congrArg WordInt.value h))

theorem isEquality_eq : IsEquality (· = ·) where
  str := by simp
  ofUInt64 := ofUInt64_inj
  arr := by simp
  obj := by simp [sameField_eq]

theorem sameItems_iff {xs ys : List Json} :
    sameItems xs ys = true ↔ List.Forall₂ (fun x y => x.same y = true) xs ys := by
  induction xs generalizing ys with
  | nil => cases ys <;> simp [sameItems]
  | cons x xs ih => cases ys <;> simp [sameItems, ih]

theorem sameFields_iff {xs ys : List (String × Json)} :
    sameFields xs ys = true ↔ List.Forall₂ (SameField fun x y => x.same y = true) xs ys := by
  induction xs generalizing ys with
  | nil => cases ys <;> simp [sameFields]
  | cons x xs ih => cases ys <;> simp [sameFields, SameField, ih]

theorem same_ofUInt64 {m n : UInt64} : (Json.ofUInt64 m).same (.ofUInt64 n) = true ↔ m = n := by
  have hsame : (Json.ofUInt64 m).same (.ofUInt64 n) = ((m.toNat : Int) == (n.toNat : Int)) := rfl
  rw [hsame, beq_iff_eq, Int.ofNat_inj, UInt64.toNat_inj]

theorem isEquality_same : IsEquality fun x y => x.same y = true where
  str := by simp [same]
  ofUInt64 := same_ofUInt64
  arr := by simp [same, sameItems_iff]
  obj := by simp [same, sameFields_iff]

/-! ## Objects -/

theorem names_eq_of_forall₂ {xs ys : List (String × Json)} (h : List.Forall₂ (SameField rel) xs ys) :
    xs.map Prod.fst = ys.map Prod.fst := by
  rw [← List.forall₂_eq_eq_eq, List.forall₂_map_left_iff, List.forall₂_map_right_iff]
  exact h.imp fun _ _ hfield => hfield.1

/-- The fields that are there. -/
def present (fields : List (String × Option Json)) : List (String × Json) :=
  fields.filterMap fun field => field.2.map fun value => (field.1, value)

theorem present_none (name : String) (fields : List (String × Option Json)) :
    present ((name, none) :: fields) = present fields := rfl

theorem present_some (name : String) (value : Json) (fields : List (String × Option Json)) :
    present ((name, some value) :: fields) = (name, value) :: present fields := rfl

theorem notMem_present {name : String} {fields : List (String × Option Json)} (h : name ∉ fields.map Prod.fst) :
    name ∉ (present fields).map Prod.fst := by
  intro hmem
  obtain ⟨_, hpresent, rfl⟩ := List.mem_map.1 hmem
  obtain ⟨field, hfield, hsome⟩ := List.mem_filterMap.1 hpresent
  obtain ⟨value, -, rfl⟩ := Option.map_eq_some_iff.1 hsome
  exact h (List.mem_map_of_mem hfield)

/-- A list that is left out when it is empty. -/
theorem rel_nonempty_iff {α : Type} {agree : α → α → Prop} {xs ys : List α} {encoded encoded' : Json}
    (hencode : rel encoded encoded' ↔ List.Forall₂ agree xs ys) :
    Option.Rel rel (if xs.isEmpty then none else some encoded)
      (if ys.isEmpty then none else some encoded') ↔ List.Forall₂ agree xs ys := by
  cases xs with
  | nil =>
    cases ys with
    | nil => exact iff_of_true .none .nil
    | cons y ys => exact iff_of_false nofun nofun
  | cons x xs =>
    cases ys with
    | nil => exact iff_of_false nofun nofun
    | cons y ys =>
      show Option.Rel rel (some encoded) (some encoded') ↔ _
      rw [Option.rel_some_some, hencode]

namespace IsEquality

variable (heq : IsEquality rel)
include heq

theorem obj_singleton {m n : String} {a b : Json} : rel (.obj [(m, a)]) (.obj [(n, b)]) ↔ m = n ∧ rel a b := by
  rw [heq.obj, List.forall₂_cons]
  exact and_iff_left .nil

theorem obj_pair {m m' n n' : String} {a a' b b' : Json} :
    rel (.obj [(m, a), (m', a')]) (.obj [(n, b), (n', b')]) ↔ (m = n ∧ rel a b) ∧ m' = n' ∧ rel a' b' := by
  rw [heq.obj, List.forall₂_cons, List.forall₂_cons]
  exact and_congr_right fun _ => and_iff_left .nil

theorem arr_map {α β : Type} {f : α → Json} {g : β → Json} {xs : List α} {ys : List β} :
    rel (.arr (xs.map f)) (.arr (ys.map g)) ↔ List.Forall₂ (fun x y => rel (f x) (g y)) xs ys := by
  rw [heq.arr, List.forall₂_map_left_iff, List.forall₂_map_right_iff]

theorem ofStrings {xs ys : List String} : rel (.ofStrings xs) (.ofStrings ys) ↔ xs = ys := by
  rw [Json.ofStrings, Json.ofStrings, heq.arr_map]
  simp only [heq.str, List.forall₂_eq_eq_eq]

/-- Objects with the same fields at choice are related when each field is there in both or in neither, with
related values. -/
theorem ofPresent_iff {xs ys : List (String × Option Json)} (hnames : xs.map Prod.fst = ys.map Prod.fst)
    (hnodup : (xs.map Prod.fst).Nodup) :
    rel (.ofPresent xs) (.ofPresent ys) ↔ List.Forall₂ (Option.Rel rel) (xs.map Prod.snd) (ys.map Prod.snd) := by
  show rel (.obj (present xs)) (.obj (present ys)) ↔ _
  rw [heq.obj]
  induction xs generalizing ys with
  | nil =>
    rw [List.map_eq_nil_iff.1 hnames.symm]
    exact iff_of_true .nil .nil
  | cons x xs ih =>
    obtain ⟨y, ys, rfl⟩ : ∃ y ys', ys = y :: ys' := by
      cases ys with
      | nil => cases hnames
      | cons y ys => exact ⟨y, ys, rfl⟩
    obtain ⟨name, x⟩ := x
    obtain ⟨name', y⟩ := y
    obtain ⟨rfl, hrest⟩ := List.cons.inj hnames
    obtain ⟨hname, hnodup⟩ := List.nodup_cons.1 hnodup
    rw [List.map_cons, List.map_cons, List.forall₂_cons, ← ih hrest hnodup]
    -- A field that is there on one side only has a name that does not occur on the other.
    cases x with
    | none =>
      cases y with
      | none => simp [present_none]
      | some y =>
        refine iff_of_false ?_ (fun h => nomatch h.1)
        intro h
        rw [present_none, present_some] at h
        have hright := notMem_present hname
        rw [names_eq_of_forall₂ h] at hright
        exact hright List.mem_cons_self
    | some x =>
      cases y with
      | none =>
        refine iff_of_false ?_ (fun h => nomatch h.1)
        intro h
        rw [present_none, present_some] at h
        have hleft := notMem_present (hrest ▸ hname)
        rw [← names_eq_of_forall₂ h] at hleft
        exact hleft List.mem_cons_self
      | some y => simp [present_some, SameField]

end IsEquality

end SearchJoin.Json

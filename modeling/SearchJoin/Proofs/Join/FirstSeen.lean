import Mathlib.Data.List.Nodup
import SearchJoin.Join.Key

/-!
# The order of first occurrences

A list without repetitions can have the elements of another one in the order in which they occur there
first. It keeps this property when elements are taken in one by one, and `distinct` has it.

Main statement: `firstSeen_distinct`.
-/

namespace SearchJoin

/-- The list has the elements of `source`, in the order in which they are first seen there. -/
structure FirstSeen {α : Type} [DecidableEq α] (listed source : List α) : Prop where
  /-- Nothing is missing, and nothing else is listed. -/
  mem_iff : ∀ x, x ∈ listed ↔ x ∈ source
  /-- What stands earlier is first seen earlier, so nothing is listed twice. -/
  ordered : listed.Pairwise fun a b => source.idxOf a < source.idxOf b

namespace FirstSeen

variable {α : Type} [DecidableEq α] {listed source : List α} {x : α}

theorem nodup (h : FirstSeen listed source) : listed.Nodup := by
  refine h.ordered.imp fun {a b} hlt heq => ?_
  rw [heq] at hlt
  exact Nat.lt_irrefl _ hlt

theorem nil : FirstSeen ([] : List α) [] := ⟨fun _ => Iff.rfl, .nil⟩

/-- What stands behind an element that is listed does not move it. -/
theorem ordered_append (h : FirstSeen listed source) (more : List α) :
    listed.Pairwise fun a b => (source ++ more).idxOf a < (source ++ more).idxOf b := by
  refine h.ordered.imp_of_mem fun {a b} ha hb hlt => ?_
  rwa [List.idxOf_append_of_mem ((h.mem_iff a).1 ha), List.idxOf_append_of_mem ((h.mem_iff b).1 hb)]

/-- An element that was seen before is not listed again. -/
theorem append_seen (h : FirstSeen listed source) (hx : x ∈ source) :
    FirstSeen listed (source ++ [x]) where
  mem_iff y := by
    rw [h.mem_iff, List.mem_append, List.mem_singleton]
    exact ⟨.inl, fun hy => hy.elim id fun heq => heq ▸ hx⟩
  ordered := h.ordered_append [x]

/-- A new element is listed behind the others. -/
theorem append_new (h : FirstSeen listed source) (hx : x ∉ source) :
    FirstSeen (listed ++ [x]) (source ++ [x]) where
  mem_iff y := by rw [List.mem_append, List.mem_append, h.mem_iff]
  ordered := by
    refine List.pairwise_append.2 ⟨h.ordered_append [x], List.pairwise_singleton _ _, ?_⟩
    intro a ha b hb
    rw [List.mem_singleton.1 hb, List.idxOf_append_of_mem ((h.mem_iff a).1 ha),
      List.idxOf_append_of_notMem hx]
    exact Nat.lt_add_right _ (List.idxOf_lt_length_of_mem ((h.mem_iff a).1 ha))

end FirstSeen

theorem mem_distinct {α : Type} [DecidableEq α] {x : α} {xs : List α} : x ∈ distinct xs ↔ x ∈ xs := by
  induction xs with
  | nil => rfl
  | cons y ys ih =>
    rw [distinct, List.mem_cons, List.mem_filter, ih, List.mem_cons, decide_eq_true_iff]
    tauto

theorem firstSeen_distinct {α : Type} [DecidableEq α] (xs : List α) : FirstSeen (distinct xs) xs where
  mem_iff _ := mem_distinct
  ordered := by
    induction xs with
    | nil => exact .nil
    | cons x xs ih =>
      refine List.pairwise_cons.2 ⟨fun y hy => ?_, (ih.filter _).imp_of_mem fun {y z} hy hz hlt => ?_⟩
      · have hne : y ≠ x := of_decide_eq_true (List.mem_filter.1 hy).2
        rw [List.idxOf_cons_self, List.idxOf_cons_ne xs hne.symm]
        exact Nat.succ_pos _
      · have hne : y ≠ x := of_decide_eq_true (List.mem_filter.1 hy).2
        have hne' : z ≠ x := of_decide_eq_true (List.mem_filter.1 hz).2
        rw [List.idxOf_cons_ne xs hne.symm, List.idxOf_cons_ne xs hne'.symm]
        exact Nat.succ_lt_succ hlt

end SearchJoin

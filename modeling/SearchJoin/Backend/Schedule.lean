/-!
# Schedules of batches

Batches that are sent together wait for one of a number of permits. A batch that has a permit runs
until it completes and gives its permit back then, so no more batches run at once than there are
permits. Which of the waiting batches is next, and which of the running ones completes first, is open.

Main statements: `Schedule.perm`, every batch completes once; `Schedule.of_perm`, as long as there is
a permit the batches can complete in any order.
-/

namespace SearchJoin

/-- `Schedule permits waiting running order`: from these waiting and running batches on, the batches
can complete in the order `order`. -/
inductive Schedule (permits : Nat) : (waiting running order : List Nat) → Prop where
  /-- No batch is left. -/
  | done : Schedule permits [] [] []
  /-- A waiting batch takes a free permit. -/
  | start {waiting running order : List Nat} (batch : Nat) (hwaiting : batch ∈ waiting)
      (hfree : running.length < permits)
      (rest : Schedule permits (waiting.erase batch) (batch :: running) order) :
      Schedule permits waiting running order
  /-- A running batch completes. -/
  | complete {waiting running order : List Nat} (batch : Nat) (hrunning : batch ∈ running)
      (rest : Schedule permits waiting (running.erase batch) order) :
      Schedule permits waiting running (batch :: order)

namespace Schedule

variable {permits : Nat} {waiting running order : List Nat}

/-- Every batch completes once. -/
theorem perm (h : Schedule permits waiting running order) :
    order.Perm (waiting ++ running) := by
  induction h with
  | done => exact .refl _
  | start batch hwaiting _ _ ih =>
    refine ih.trans (List.perm_middle.trans ?_)
    exact (List.perm_cons_erase hwaiting).symm.append_right _
  | complete batch hrunning _ ih =>
    refine (ih.cons batch).trans (List.perm_middle.symm.trans ?_)
    exact (List.perm_cons_erase hrunning).symm.append_left _

/-- Batches can complete in any order, one after the other. -/
theorem of_perm (hpermits : 0 < permits) (h : order.Perm waiting) :
    Schedule permits waiting [] order := by
  induction order generalizing waiting with
  | nil => rw [h.symm.eq_nil]; exact .done
  | cons batch order ih =>
    have hmem : batch ∈ waiting := h.subset List.mem_cons_self
    have hrest : order.Perm (waiting.erase batch) :=
      List.Perm.cons_inv (h.trans (List.perm_cons_erase hmem))
    refine .start batch hmem hpermits (.complete batch List.mem_cons_self ?_)
    rw [List.erase_cons_head]
    exact ih hrest

end Schedule

end SearchJoin

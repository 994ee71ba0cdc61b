import SearchJoin.Predicate.Evaluate

/-!
# Tests of values

What the comparisons say when their sides are swapped, and which tests only scalars can pass.

Main statements: `Value.order?_swap`, the order of two values turns around with them;
`Value.equal_comm`, so does not whether a scalar equals a value.
-/

namespace SearchJoin

theorem Number.order_swap (a b : Number) : (a.order b).swap = b.order a := by
  unfold Number.order
  -- Both directions compare in the same way: exactly, or after rounding.
  cases a.toSigned? <;> cases b.toSigned? <;> exact (Std.OrientedOrd.eq_swap (α := Int)).symm

namespace Value

theorem order?_swap (a b : Value) : (a.order? b).map Ordering.swap = b.order? a := by
  obtain ⟨x, hx⟩ := a
  obtain ⟨y, hy⟩ := b
  cases x with
  | num n => cases y with
    | num m => exact congrArg some (n.order_swap m)
    | _ => rfl
  | str s => cases y with
    | str t => exact congrArg some Std.OrientedOrd.eq_swap.symm
    | _ => rfl
  | bool b => cases y with
    | bool c => exact congrArg some Std.OrientedOrd.eq_swap.symm
    | _ => rfl
  | _ => cases y <;> rfl

theorem isLt_swap (a b : Value) : b.isLt a = a.isGt b := by
  unfold isLt isGt
  rw [← order?_swap a b]
  rcases a.order? b with _ | _ | _ | _ <;> rfl

theorem isLe_swap (a b : Value) : b.isLe a = a.isGe b := by
  unfold isLe isGe
  rw [← order?_swap a b]
  rcases a.order? b with _ | _ | _ | _ <;> rfl

/-- Only scalars compare. -/
theorem order?_eq_none {v : Value} (hv : v.isScalar = false) (x : Value) : v.order? x = none := by
  obtain ⟨json, normal⟩ := v
  cases json <;> simp_all [isScalar, order?]

theorem equal_comm {a : Value} (ha : a.isScalar = true) (b : Value) : a.equal b = b.equal a := by
  obtain ⟨x, hx⟩ := a
  obtain ⟨y, hy⟩ := b
  cases x with
  | num n => cases y with
    | num m =>
      have hswap := n.order_swap m
      simp only [equal, ← hswap]
      cases n.order m <;> rfl
    | _ => rfl
  | str s => cases y with
    | str t => exact BEq.comm (a := s) (b := t)
    | _ => rfl
  | bool b => cases y with
    | bool c => exact BEq.comm (a := b) (b := c)
    | _ => rfl
  | _ => cases ha

end Value

/-- The test fails on `null`, arrays and objects. -/
def ScalarTest (test : Value → Bool) : Prop := ∀ value, value.isScalar = false → test value = false

theorem scalarTest_equal {x : Value} (hx : x.isScalar = true) : ScalarTest fun v => v.equal x := by
  intro v hv
  obtain ⟨json, normal⟩ := v
  obtain ⟨json', normal'⟩ := x
  cases json <;> cases json' <;> simp_all [Value.isScalar, Value.equal, Value.same, Json.same]

theorem scalarTest_any_equal {xs : List Value} (hxs : ∀ x ∈ xs, x.isScalar = true) :
    ScalarTest fun v => xs.any fun x => v.equal x := by
  intro v hv
  exact List.any_eq_false.2 fun x hx => by simp [scalarTest_equal (hxs x hx) v hv]

theorem scalarTest_isGt (x : Value) : ScalarTest fun v => v.isGt x := by
  intro v hv
  simp [Value.isGt, Value.order?_eq_none hv]

theorem scalarTest_isGe (x : Value) : ScalarTest fun v => v.isGe x := by
  intro v hv
  simp [Value.isGe, Value.order?_eq_none hv]

theorem scalarTest_isLt (x : Value) : ScalarTest fun v => v.isLt x := by
  intro v hv
  simp [Value.isLt, Value.order?_eq_none hv]

theorem scalarTest_isLe (x : Value) : ScalarTest fun v => v.isLe x := by
  intro v hv
  simp [Value.isLe, Value.order?_eq_none hv]

theorem scalarTest_inRange (low high : Value) : ScalarTest (Condition.inRange low high) := by
  intro v hv
  simp [Condition.inRange, scalarTest_isGe low v hv]

theorem scalarTest_matchesPattern (pattern : String) :
    ScalarTest (Condition.matchesPattern pattern) := by
  intro v hv
  obtain ⟨json, normal⟩ := v
  cases json <;> simp_all [Value.isScalar, Condition.matchesPattern, Value.string?]

end SearchJoin

import Mathlib.Data.List.Forall2

/-!
# Steps that can fail

When a chain of steps, or a step for each element of a list, has a result, and what the errors of such
a chain can be.
-/

namespace SearchJoin

variable {ε α β : Type}

/-- If this is an error, it satisfies `P`. -/
def ErrorsIn (P : ε → Prop) (x : Except ε α) : Prop := ∀ e, x = .error e → P e

/-- A chain has a result when both of its steps have one. -/
theorem bind_eq_ok {x : Except ε α} {f : α → Except ε β} {b : β} :
    x >>= f = .ok b ↔ ∃ a, x = .ok a ∧ f a = .ok b := by
  cases x <;> simp [bind, Except.bind]

theorem pure_eq_ok {a b : α} : (pure a : Except ε α) = .ok b ↔ a = b := by
  simp [pure, Except.pure]

theorem ok_bind (a : α) (f : α → Except ε β) : (Except.ok a >>= f) = f a := rfl

theorem isOk_iff {x : Except ε α} : x.isOk = true ↔ ∃ a, x = .ok a := by
  cases x <;> simp [Except.isOk, Except.toBool]

/-- A last step that only makes something of the result before does not fail. -/
theorem isOk_bind_pure (x : Except ε α) (f : α → β) :
    (do return f (← x) : Except ε β).isOk = x.isOk := by
  cases x <;> rfl

/-- The error, if there is one. -/
def errorOf? : Except ε α → Option ε
  | .ok _ => none
  | .error e => some e

theorem errorOf?_eq_some {x : Except ε α} {e : ε} : errorOf? x = some e ↔ x = .error e := by
  cases x <;> simp [errorOf?]

theorem isOk_eq_isNone_errorOf? (x : Except ε α) : x.isOk = (errorOf? x).isNone := by
  cases x <;> rfl

/-- A last step that only makes something of the result before has no error of its own. -/
theorem errorOf?_bind_pure (x : Except ε α) (f : α → β) :
    errorOf? (do return f (← x)) = errorOf? x := by
  cases x <;> rfl

/-- Of two steps the first that fails decides. -/
theorem errorOf?_bind_bind_pure {γ : Type} (x : Except ε α) (y : Except ε β) (f : α → β → γ) :
    errorOf? (do return f (← x) (← y)) = (errorOf? x).or (errorOf? y) := by
  cases x with
  | error e => rfl
  | ok a => cases y <;> rfl

/-- Every element of a list has a result, and the results are the list of them. -/
theorem mapM_eq_ok_iff {f : α → Except ε β} {xs : List α} {ys : List β} :
    xs.mapM f = .ok ys ↔ List.Forall₂ (fun x y => f x = .ok y) xs ys := by
  induction xs generalizing ys with
  | nil => cases ys <;> simp [pure, Except.pure]
  | cons x xs ih =>
    rw [List.mapM_cons, bind_eq_ok]
    constructor
    · rintro ⟨y, hy, h⟩
      obtain ⟨rest, hrest, h⟩ := bind_eq_ok.1 h
      rw [← pure_eq_ok.1 h]
      exact .cons hy (ih.1 hrest)
    · intro h
      cases h with
      | cons hy hrest => exact ⟨_, hy, bind_eq_ok.2 ⟨_, ih.2 hrest, rfl⟩⟩

theorem exists_of_mapM_eq_ok {f : α → Except ε β} {xs : List α} {ys : List β} (h : xs.mapM f = .ok ys)
    {x : α} (hx : x ∈ xs) : ∃ y, f x = .ok y := by
  have heach := mapM_eq_ok_iff.1 h
  clear h
  induction heach with
  | nil => cases hx
  | cons hy _ ih =>
    rcases List.mem_cons.1 hx with rfl | hx
    · exact ⟨_, hy⟩
    · exact ih hx

theorem exists_of_mapM_eq_ok_some {f : α → Except ε β} {x? : Option α} {y : β}
    (h : x?.mapM f = .ok (some y)) : ∃ x, x? = some x ∧ f x = .ok y := by
  cases x? with
  | none => cases h
  | some x =>
    rw [Option.mapM_some] at h
    cases hx : f x with
    | error e => rw [hx] at h; cases h
    | ok z => rw [hx] at h; cases h; exact ⟨x, rfl, hx⟩

theorem exists_mapM_eq_ok {f : α → Except ε β} {xs : List α} (h : ∀ x ∈ xs, ∃ y, f x = .ok y) :
    ∃ ys, xs.mapM f = .ok ys := by
  induction xs with
  | nil => exact ⟨[], rfl⟩
  | cons x xs ih =>
    obtain ⟨⟨y, hy⟩, hrest⟩ := List.forall_mem_cons.1 h
    obtain ⟨ys, hys⟩ := ih hrest
    exact ⟨y :: ys, mapM_eq_ok_iff.2 (.cons hy (mapM_eq_ok_iff.1 hys))⟩

/-- Lists have the same results when their elements do, place by place. -/
theorem mapM_eq_ok_of_forall₂ {γ : Type} {R : α → β → Prop} {f : α → Except ε γ} {g : β → Except ε γ}
    {xs : List α} {ys : List β} {zs : List γ} (hsame : List.Forall₂ R xs ys)
    (hstep : ∀ x y z, R x y → f x = .ok z → g y = .ok z) (h : xs.mapM f = .ok zs) :
    ys.mapM g = .ok zs := by
  have heach := mapM_eq_ok_iff.1 h
  clear h
  rw [mapM_eq_ok_iff]
  induction hsame generalizing zs with
  | nil => cases heach; exact .nil
  | cons hxy _ ih =>
    cases heach with
    | cons hx hxs => exact .cons (hstep _ _ _ hxy hx) (ih hxs)

/-- Both fail, or both have a result and these are related. -/
def SameOutcome (R : α → β → Prop) : Except ε α → Except ε β → Prop
  | .ok a, .ok b => R a b
  | .error _, .error _ => True
  | _, _ => False

theorem SameOutcome.of_imp {R : α → β → Prop} {x : Except ε α} {y : Except ε β}
    (hx : ∀ a, x = .ok a → ∃ b, y = .ok b ∧ R a b) (hy : ∀ b, y = .ok b → ∃ a, x = .ok a) :
    SameOutcome R x y := by
  cases x with
  | ok a =>
    obtain ⟨b, rfl, hab⟩ := hx a rfl
    exact hab
  | error e =>
    cases y with
    | error e' => trivial
    | ok b =>
      obtain ⟨a, ha⟩ := hy b rfl
      cases ha

namespace ErrorsIn

variable {P : ε → Prop} {x : Except ε α}

theorem ok (a : α) : ErrorsIn P (.ok a : Except ε α) := fun _ h => by cases h

theorem error {e : ε} (h : P e) : ErrorsIn P (.error e : Except ε α) := fun _ h' => by cases h'; exact h

theorem imp {Q : ε → Prop} (hx : ErrorsIn P x) (h : ∀ e, P e → Q e) : ErrorsIn Q x :=
  fun e he => h e (hx e he)

/-- A chain fails at one of its steps. -/
theorem bind {f : α → Except ε β} (hx : ErrorsIn P x) (hf : ∀ a, x = .ok a → ErrorsIn P (f a)) :
    ErrorsIn P (x >>= f) := by
  cases x with
  | error e => exact error (hx e rfl)
  | ok a => exact hf a rfl

theorem map (hx : ErrorsIn P x) (f : α → β) : ErrorsIn P (x.map f) := by
  cases x with
  | error e => exact error (hx e rfl)
  | ok a => exact ok (f a)

theorem mapM {f : α → Except ε β} {xs : List α} (hf : ∀ a ∈ xs, ErrorsIn P (f a)) :
    ErrorsIn P (xs.mapM f) := by
  induction xs with
  | nil => exact ok []
  | cons a xs ih =>
    rw [List.mapM_cons]
    refine (hf a List.mem_cons_self).bind fun b _ => ?_
    exact (ih fun a ha => hf a (List.mem_cons_of_mem _ ha)).bind fun bs _ => ok _

end ErrorsIn

/-- Every element of a list has a value, and these are the list of them. -/
theorem mapM_eq_some_iff {f : α → Option β} {xs : List α} {ys : List β} :
    xs.mapM f = some ys ↔ List.Forall₂ (fun x y => f x = some y) xs ys := by
  induction xs generalizing ys with
  | nil => cases ys <;> simp
  | cons x xs ih =>
    rw [List.mapM_cons]
    constructor
    · intro h
      obtain ⟨y, hy, h⟩ := Option.bind_eq_some_iff.1 h
      obtain ⟨rest, hrest, h⟩ := Option.bind_eq_some_iff.1 h
      cases h
      exact .cons hy (ih.1 hrest)
    · intro h
      cases h with
      | cons hy hrest => rw [hy, Option.bind_eq_bind, Option.bind_some, ih.2 hrest]; rfl

/-- Each value stands where its element does. -/
theorem getElem?_of_mapM_eq_some {f : α → Option β} {xs : List α} {ys : List β}
    (h : xs.mapM f = some ys) (position : Nat) : ys[position]? = xs[position]?.bind f := by
  have heach := mapM_eq_some_iff.1 h
  clear h
  induction heach generalizing position with
  | nil => rfl
  | cons hy _ ih =>
    cases position with
    | zero => rw [List.getElem?_cons_zero, List.getElem?_cons_zero, Option.bind_some, hy]
    | succ position => exact ih position

theorem exists_of_mapM_eq_none {f : α → Option β} {xs : List α} (h : xs.mapM f = none) :
    ∃ x ∈ xs, f x = none := by
  induction xs with
  | nil => cases h
  | cons x xs ih =>
    cases hx : f x with
    | none => exact ⟨x, List.mem_cons_self, hx⟩
    | some y =>
      rw [List.mapM_cons, hx] at h
      cases hrest : xs.mapM f with
      | none =>
        obtain ⟨other, hmem, hother⟩ := ih hrest
        exact ⟨other, List.mem_cons_of_mem _ hmem, hother⟩
      | some rest => rw [hrest] at h; cases h

end SearchJoin

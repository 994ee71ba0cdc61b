import SearchJoin.Proofs.Except
import SearchJoin.Query.Compile

/-!
# Conditions that have a query

What the operands of a condition are when its query can be made from them.
-/

namespace SearchJoin.Condition

theorem operands_of_literals_eq_ok {c : Condition} {values : List Value}
    (h : c.literals = .ok values) : c.operands = values.map .literal := by
  have heach := mapM_eq_ok_iff.1 h
  clear h
  generalize c.operands = operands at heach
  induction heach with
  | nil => rfl
  | @cons operand value _ _ hvalue _ ih =>
    rw [List.map_cons, ← ih]
    cases operand with
    | literal held => cases hvalue; rfl
    | field name => cases hvalue

theorem eq_of_scalar_eq_ok {c : Condition} {value x : Value} (h : c.scalar value = .ok x) :
    value = x ∧ x.isScalar = true := by
  unfold scalar at h
  split at h
  · cases h; exact ⟨rfl, ‹_›⟩
  · cases h

theorem eq_of_oneScalar_eq_ok {c : Condition} {values : List Value} {x : Value}
    (h : c.oneScalar values = .ok x) : values = [x] ∧ x.isScalar = true := by
  unfold oneScalar at h
  split at h
  · obtain ⟨rfl, hx⟩ := eq_of_scalar_eq_ok h
    exact ⟨rfl, hx⟩
  · cases h

theorem eq_of_twoScalars_eq_ok {c : Condition} {values : List Value} {bounds : Value × Value}
    (h : c.twoScalars values = .ok bounds) : values = [bounds.1, bounds.2] := by
  unfold twoScalars at h
  split at h
  · obtain ⟨low, hlow, h⟩ := bind_eq_ok.1 h
    obtain ⟨high, hhigh, h⟩ := bind_eq_ok.1 h
    rw [← pure_eq_ok.1 h, (eq_of_scalar_eq_ok hlow).1, (eq_of_scalar_eq_ok hhigh).1]
  · cases h

theorem eq_of_someScalars_eq_ok {c : Condition} {values xs : List Value}
    (h : c.someScalars values = .ok xs) : values = xs ∧ ∀ x ∈ xs, x.isScalar = true := by
  cases values with
  | nil => cases h
  | cons first rest =>
    have hmapM : (first :: rest).mapM c.scalar = .ok xs := h
    have heach := (mapM_eq_ok_iff.1 hmapM).imp fun _ _ => eq_of_scalar_eq_ok
    clear h hmapM
    generalize first :: rest = values at heach ⊢
    induction heach with
    | nil => simp
    | cons hvalue _ ih =>
      obtain ⟨rfl, hscalar⟩ := hvalue
      obtain ⟨rfl, hscalars⟩ := ih
      exact ⟨rfl, List.forall_mem_cons.2 ⟨hscalar, hscalars⟩⟩

theorem eq_of_oneString_eq_ok {c : Condition} {values : List Value} {s : String}
    (h : c.oneString values = .ok s) : values = [.str s] := by
  unfold oneString at h
  split at h
  · cases h
    rename_i hvalues
    obtain ⟨value, rest, rfl, hvalue, hrest⟩ := List.map_eq_cons_iff.1 hvalues
    rw [List.map_eq_nil_iff] at hrest
    obtain ⟨json, normal⟩ := value
    cases json <;> simp_all [Value.string?, Value.str]
  · cases h

theorem eq_of_noValues_eq_ok {c : Condition} {values : List Value} (h : c.noValues values = .ok ()) :
    values = [] := by
  unfold noValues at h
  split at h
  · rfl
  · cases h

/-- The query of a condition is made from the values of its operands and stands in its scope. -/
theorem exists_wrap_of_query_eq_ok {c : Condition} {query : Query} (h : c.query = .ok query) :
    ∃ values primitive, c.literals = .ok values ∧ c.primitiveOf values = .ok primitive ∧
      query = c.scope.wrap primitive := by
  obtain ⟨primitive, hprimitive, h⟩ := bind_eq_ok.1 h
  unfold Condition.primitive at hprimitive
  split at hprimitive
  · cases hprimitive
  · obtain ⟨values, hvalues, hof⟩ := bind_eq_ok.1 hprimitive
    exact ⟨values, primitive, hvalues, hof, (pure_eq_ok.1 h).symm⟩

/-- The query of a condition on documents is made from the values of its operands. -/
theorem exists_primitiveOf_of_query_eq_ok {c : Condition} {query : Query}
    (hscope : c.scope = .document) (h : c.query = .ok query) :
    ∃ values, c.literals = .ok values ∧ c.primitiveOf values = .ok query := by
  obtain ⟨values, primitive, hvalues, hof, hwrap⟩ := exists_wrap_of_query_eq_ok h
  rw [hscope] at hwrap
  exact ⟨values, hvalues, hwrap ▸ hof⟩

/-- The query of an equality with a value, in whichever scope. -/
theorem eq_wrap_term_of_query_eq_ok {c : Condition} {value : Value} {query : Query}
    (hoperator : c.operator = .eq) (hoperands : c.operands = [.literal value])
    (h : c.query = .ok query) : query = c.scope.wrap (.term c.field value) := by
  obtain ⟨values, primitive, hvalues, hof, rfl⟩ := exists_wrap_of_query_eq_ok h
  unfold literals at hvalues
  rw [hoperands] at hvalues
  cases hvalues
  unfold primitiveOf at hof
  rw [hoperator] at hof
  obtain ⟨x, hx, hquery⟩ := bind_eq_ok.1 hof
  obtain ⟨hvalue, -⟩ := eq_of_oneScalar_eq_ok hx
  cases hvalue
  rw [← pure_eq_ok.1 hquery]

/-- The query of an equality with a value. -/
theorem eq_term_of_query_eq_ok {field : String} {value : Value} {query : Query}
    (h : (eq field value).query = .ok query) : query = .term field value :=
  eq_wrap_term_of_query_eq_ok rfl rfl h

/-- The query of a choice between values. -/
theorem eq_terms_of_query_eq_ok {field : String} {values : List Value} {query : Query}
    (h : (isIn field values).query = .ok query) : query = .terms field values := by
  obtain ⟨xs, hxs, hof⟩ := exists_primitiveOf_of_query_eq_ok rfl h
  obtain ⟨ys, hys, hquery⟩ := bind_eq_ok.1 hof
  obtain ⟨rfl, -⟩ := eq_of_someScalars_eq_ok hys
  have hoperands : values.map Operand.literal = xs.map .literal := operands_of_literals_eq_ok hxs
  have hinjective : Function.Injective Operand.literal := fun _ _ h => by cases h; rfl
  rw [← pure_eq_ok.1 hquery, List.map_injective_iff.2 hinjective hoperands]
  rfl

end SearchJoin.Condition

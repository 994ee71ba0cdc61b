import SearchJoin.Backend.Session
import SearchJoin.Proofs.Except

/-!
# Runs that have a result

What has happened when the run of a session ends with a result, and backends that answer each of
several searches by itself.
-/

namespace SearchJoin

namespace Session

variable {α β : Type} {backend : Backend} {calls : List Call}

theorem run_ofExcept_ok (a : α) (next : α → Session β) :
    (ofExcept (.ok a) next).run backend calls = (next a).run backend calls := rfl

/-- A run with a result has got past its steps that can fail. -/
theorem run_ofExcept_eq_ok {step : Except Error α} {next : α → Session β} {b : β} :
    ((ofExcept step next).run backend calls).1 = .ok b ↔
      ∃ a, step = .ok a ∧ ((next a).run backend calls).1 = .ok b := by
  cases step <;> simp [ofExcept, run]

end Session

/-- With a permit every batch completes once. -/
theorem Backend.order_perm (backend : Backend) {permits : Nat} (hpermits : 0 < permits)
    (batches : Nat) : (backend.order permits batches).Perm (List.range batches) := by
  have hperm := (backend.order_schedule permits batches hpermits).perm
  rwa [List.append_nil] at hperm

/-- Every answer to several searches has the documents that belong to its request. -/
def Backend.FindsEach (backend : Backend) (found : Request → List Document) : Prop :=
  ∀ calls batch requests, ∃ answers, backend.multiSearch calls batch requests = .ok answers ∧
    List.Forall₂ (fun request answer => ∃ total, answer = .hits ⟨total, found request⟩)
      requests answers

/-- The backend that finds `found` for each request. Batches complete last first. -/
def Backend.finding (found : Request → List Document) : Backend where
  search _ request := .ok (.ofDocuments (found request))
  multiSearch _ _ requests := .ok (requests.map fun request => .hits (.ofDocuments (found request)))
  order _ batches := (List.range batches).reverse
  order_schedule _ _ hpermits := .of_perm hpermits (List.reverse_perm _)

theorem Backend.findsEach_finding (found : Request → List Document) :
    (finding found).FindsEach found := by
  intro calls batch requests
  refine ⟨_, rfl, ?_⟩
  induction requests with
  | nil => exact .nil
  | cons request requests ih => exact .cons ⟨_, rfl⟩ ih

end SearchJoin

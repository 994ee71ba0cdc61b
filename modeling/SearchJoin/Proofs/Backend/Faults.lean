import SearchJoin.Backend.Session
import SearchJoin.Proofs.Except

/-!
# Faults of the statement

A statement is at fault when a predicate is malformed or cannot be executed. A run may find this out
before its first call, or only from what the backend has answered.

Main statements: `Session.NeverFaults.run`, `Session.FaultsEarly.calls_eq`.
-/

namespace SearchJoin

/-- The error is one of the statement: a predicate is malformed or cannot be executed. -/
def Error.isStatementFault : Error → Bool
  | .malformedPredicate _ _ | .unsupportedJoinPredicate _ => true
  | _ => false

/-- The result is no error of the statement. -/
def NoStatementFault {α : Type} (result : Except Error α) : Prop :=
  ∀ e, result = .error e → e.isStatementFault = false

namespace NoStatementFault

variable {α β : Type} {x : Except Error α}

theorem ok (a : α) : NoStatementFault (.ok a) := ErrorsIn.ok a

theorem error {e : Error} (h : e.isStatementFault = false) :
    NoStatementFault (.error e : Except Error α) := ErrorsIn.error h

theorem of_isOk (h : x.isOk = true) : NoStatementFault x := by
  obtain ⟨a, rfl⟩ := isOk_iff.1 h
  exact ok a

theorem bind {f : α → Except Error β} (hx : NoStatementFault x)
    (hf : ∀ a, x = .ok a → NoStatementFault (f a)) : NoStatementFault (x >>= f) :=
  ErrorsIn.bind hx hf

theorem map (hx : NoStatementFault x) (f : α → β) : NoStatementFault (x.map f) :=
  ErrorsIn.map hx f

theorem mapM {f : α → Except Error β} {xs : List α} (hf : ∀ a ∈ xs, NoStatementFault (f a)) :
    NoStatementFault (xs.mapM f) := ErrorsIn.mapM hf

end NoStatementFault

namespace Session

variable {α β : Type} {backend : Backend} {calls : List Call} {session : Session α}

/-- The run never finds the statement to be at fault, whatever is answered. -/
def NeverFaults : Session α → Prop
  | .done result => NoStatementFault result
  | .search _ next => ∀ answer, (next answer).NeverFaults
  | .probe _ _ next => ∀ completions, (next completions).NeverFaults

/-- The run never finds the statement to be at fault after a call. -/
def FaultsEarly : Session α → Prop
  | .done _ => True
  | session => session.NeverFaults

theorem NeverFaults.run (h : session.NeverFaults) :
    NoStatementFault (session.run backend calls).1 := by
  induction session generalizing calls with
  | done result => exact h
  | search request next ih => exact ih _ (h _)
  | probe permits batches next ih => exact ih _ (h _)

theorem FaultsEarly.calls_eq (h : session.FaultsEarly) {e : Error}
    (hrun : (session.run backend calls).1 = .error e) (he : e.isStatementFault = true) :
    (session.run backend calls).2 = calls := by
  have hlate : session.NeverFaults → (session.run backend calls).2 = calls := by
    intro hnever
    rw [hnever.run e hrun] at he
    cases he
  cases session with
  | done result => rfl
  | search request next => exact hlate h
  | probe permits batches next => exact hlate h

theorem NeverFaults.map (h : session.NeverFaults) (f : α → β) : (session.map f).NeverFaults := by
  induction session with
  | done result => exact NoStatementFault.map h f
  | search request next ih => exact fun answer => ih answer (h answer)
  | probe permits batches next ih => exact fun completions => ih completions (h completions)

theorem FaultsEarly.map (h : session.FaultsEarly) (f : α → β) : (session.map f).FaultsEarly := by
  cases session with
  | done result => trivial
  | search request next => exact fun answer => (h answer).map f
  | probe permits batches next => exact fun completions => (h completions).map f

theorem NeverFaults.ofExcept {step : Except Error α} {next : α → Session β}
    (hstep : NoStatementFault step) (hnext : ∀ a, step = .ok a → (next a).NeverFaults) :
    (Session.ofExcept step next).NeverFaults := by
  cases step with
  | error e => exact .error (hstep e rfl)
  | ok a => exact hnext a rfl

theorem FaultsEarly.ofExcept {step : Except Error α} {next : α → Session β}
    (hnext : ∀ a, step = .ok a → (next a).FaultsEarly) :
    (Session.ofExcept step next).FaultsEarly := by
  cases step with
  | error e => trivial
  | ok a => exact hnext a rfl

end Session

end SearchJoin

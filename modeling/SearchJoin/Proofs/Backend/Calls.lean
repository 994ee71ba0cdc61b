import SearchJoin.Backend.Session
import Mathlib.Data.List.Basic

/-!
# Which calls a run makes

What a session sends is seen from the session alone, whatever is answered and in whatever order batches
complete.

Main statement: `Session.Sends.run`.
-/

namespace SearchJoin.Session

variable {α β : Type} {backend : Backend} {calls : List Call} {session : Session α}
  {P : List Call → Prop}

/-- Whatever is answered, the calls of the run, from its first one on, satisfy `P`. -/
def Sends (P : List Call → Prop) : Session α → Prop
  | .done _ => P []
  | .search request next => ∀ answer, (next answer).Sends fun sent => P (.search request :: sent)
  | .probe _ batches next =>
    ∀ completions, (next completions).Sends fun sent => P (batches.map .multiSearch ++ sent)

/-- The calls of a run with a backend, behind those that have been made before. -/
theorem Sends.run (h : session.Sends P) :
    ∃ sent, (session.run backend calls).2 = calls ++ sent ∧ P sent := by
  induction session generalizing calls P with
  | done result =>
    refine ⟨[], ?_, h⟩
    rw [Session.run, List.append_nil]
  | search request next ih =>
    have hnext := h (backend.search calls request)
    have hrest : ∃ sent, ((next (backend.search calls request)).run backend
        (calls ++ [.search request])).2 = calls ++ [.search request] ++ sent ∧
          P (.search request :: sent) := ih _ hnext
    obtain ⟨sent, hsent, hP⟩ := hrest
    refine ⟨.search request :: sent, ?_, hP⟩
    rw [Session.run, hsent, List.append_assoc]
    rfl
  | probe permits batches next ih =>
    have hnext := h (backend.completions calls permits batches)
    have hrest : ∃ sent, ((next (backend.completions calls permits batches)).run backend
        (calls ++ batches.map .multiSearch)).2 = calls ++ batches.map .multiSearch ++ sent ∧
          P (batches.map .multiSearch ++ sent) := ih _ hnext
    obtain ⟨sent, hsent, hP⟩ := hrest
    refine ⟨batches.map .multiSearch ++ sent, ?_, hP⟩
    rw [Session.run, hsent, List.append_assoc]

theorem Sends.map (h : session.Sends P) (f : α → β) : (session.map f).Sends P := by
  induction session generalizing P with
  | done result => exact h
  | search request next ih =>
    intro answer
    exact ih answer (h answer)
  | probe permits batches next ih =>
    intro completions
    exact ih completions (h completions)

/-- A step that fails sends nothing. -/
theorem Sends.ofExcept {step : Except Error α} {next : α → Session β} (hnil : P [])
    (hnext : ∀ a, step = .ok a → (next a).Sends P) : (Session.ofExcept step next).Sends P := by
  cases step with
  | error e => exact hnil
  | ok a => exact hnext a rfl

end SearchJoin.Session

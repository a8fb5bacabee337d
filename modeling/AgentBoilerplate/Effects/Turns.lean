import AgentBoilerplate.Effects.Sum

namespace AgentBoilerplate.Effects

variable {I J : Interface} {σ α β : Type}

-- The answer that an event brings to a request, if it is for that request.
def Event.answerTo [DecidableEq J.Call] (event : Event J) (request : J.Call) :
    Option (J.Answer request) :=
  if h : event.call = request then some (h ▸ event.answer) else none

theorem Event.of_answerTo [DecidableEq J.Call] {event : Event J} {request : J.Call}
    {answer : J.Answer request} (h : event.answerTo request = some answer) :
    event = ⟨request, answer⟩ := by
  unfold answerTo at h
  split at h
  · rename_i heq
    subst heq
    cases h
    rfl
  · cases h

namespace Program

-- The program has ended, or waits for an answer of the second side.
def Awaits : Program (I.sum J) α → Prop
  | .call (.inl _) _ => False
  | _ => True

-- One turn of a program that is not interrupted before it waits: the first side
-- answers at once.
def settle (handler : Handler I σ) : Program (I.sum J) α → σ → Program (I.sum J) α × σ
  | .done value, s => (.done value, s)
  | .call (.inl request) next, s =>
      (next (handler request s).1).settle handler (handler request s).2
  | .call (.inr request) next, s => (.call (.inr request) next, s)

theorem settle_awaits (handler : Handler I σ) (p : Program (I.sum J) α) (s : σ) :
    (p.settle handler s).1.Awaits := by
  induction p generalizing s with
  | done value => trivial
  | call request next ih =>
      cases request with
      | inl request => exact ih _ _
      | inr request => trivial

theorem settle_of_awaits (handler : Handler I σ) {p : Program (I.sum J) α} (h : p.Awaits) (s : σ) :
    p.settle handler s = (p, s) := by
  cases p with
  | done value => rfl
  | call request next =>
      cases request with
      | inl request => exact h.elim
      | inr request => rfl

theorem Awaits.bind {p : Program (I.sum J) α} {f : α → Program (I.sum J) β} (hp : p.Awaits)
    (hf : ∀ value, (f value).Awaits) : (p >>= f).Awaits := by
  cases p with
  | done value => exact hf value
  | call request next =>
      cases request with
      | inl request => exact hp
      | inr request => trivial

end Program

end AgentBoilerplate.Effects

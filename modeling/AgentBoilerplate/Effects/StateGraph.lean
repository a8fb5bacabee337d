import AgentBoilerplate.Effects.Agreement

namespace AgentBoilerplate.Effects

-- What a node comes back with: a new state, or a value to pause on.
inductive NodeResult (σ ρ : Type) where
  | update (state : σ)
  | interrupt (value : ρ)

-- Nodes over a shared state, and the edge to follow from each of them. A node
-- that runs again after a pause is given the value it waited for.
structure StateGraph (I : Interface) (ε ν σ ρ : Type) where
  start : ν
  node : ν → Option ρ → σ → Fallible I ε (NodeResult σ ρ)
  next : ν → σ → Except ε (Option ν)

inductive Ending (ε ρ : Type) where
  | finished
  | interrupted (value : ρ)
  | raised (e : ε)
  | outOfSteps
deriving DecidableEq

-- The nodes that ran, in order, and the checkpoint that is left: the state and
-- the node that is due, none at the end.
structure Invocation (ε ν σ ρ : Type) where
  executed : List ν
  state : σ
  due : Option ν
  ending : Ending ε ρ

variable {I : Interface} {ε ν σ ρ : Type}

namespace StateGraph

-- Runs `node` and what follows it, at most `limit` nodes. The state of a node
-- that raises or pauses is not changed.
def invoke (g : StateGraph I ε ν σ ρ) : Nat → List ν → ν → Option ρ → σ →
    Program I (Invocation ε ν σ ρ)
  | 0, executed, node, _, state => .done ⟨executed, state, some node, .outOfSteps⟩
  | limit + 1, executed, node, resume, state =>
      (g.node node resume state).run >>= fun
        | .error e => .done ⟨executed ++ [node], state, some node, .raised e⟩
        | .ok (.interrupt value) =>
            .done ⟨executed ++ [node], state, some node, .interrupted value⟩
        | .ok (.update state') =>
            match g.next node state' with
            | .error e => .done ⟨executed ++ [node], state, some node, .raised e⟩
            | .ok none => .done ⟨executed ++ [node], state', none, .finished⟩
            | .ok (some node') => g.invoke limit (executed ++ [node]) node' none state'

variable {α β γ : Type} {g : StateGraph I ε ν σ ρ} {R : NodeResult σ ρ → β → Prop}
  {S : α → Except ε γ → Prop} {limit : Nat} {executed : List ν} {node : ν} {resume : Option ρ}
  {state : σ} {settle : Invocation ε ν σ ρ → Program I α} {y : Fallible I ε β}
  {f : β → Fallible I ε γ}

-- A run that stays within its limit is the run of any greater limit.
theorem invoke_run_of_le {τ : Type} (handler : Handler I τ) {limit limit' : Nat}
    (hle : limit ≤ limit') {s : τ}
    (hending : ((g.invoke limit executed node resume state).run handler s).1.ending ≠ .outOfSteps) :
    (g.invoke limit' executed node resume state).run handler s =
      (g.invoke limit executed node resume state).run handler s := by
  induction limit generalizing limit' executed node resume state s with
  | zero => exact absurd rfl hending
  | succ limit ih =>
      obtain ⟨limit', rfl⟩ := Nat.exists_eq_add_of_le' (show 1 ≤ limit' by omega)
      unfold invoke at hending ⊢
      rw [Program.run_bind] at hending
      rw [Program.run_bind, Program.run_bind]
      generalize (g.node node resume state).run.run handler s = answered at hending ⊢
      obtain ⟨result, later⟩ := answered
      rcases result with e | state' | value
      · rfl
      · dsimp only at hending ⊢
        cases hedge : g.next node state' with
        | error e => rfl
        | ok node' =>
            rw [hedge] at hending
            cases node' with
            | none => rfl
            | some node' => exact ih (by omega) hending
      · rfl

-- A graph goes on like a program when its node makes the calls of the first
-- part, and what follows the node goes on like the rest.
theorem invoke_agree (hnode : Fallible.Agree R (g.node node resume state) y)
    (hraised : ∀ e, (settle ⟨executed ++ [node], state, some node, .raised e⟩).Agree S
      (.done (.error e)))
    (hinterrupt : ∀ value b, R (.interrupt value) b →
      (settle ⟨executed ++ [node], state, some node, .interrupted value⟩).Agree S (f b).run)
    (hupdate : ∀ state' b, R (.update state') b → match g.next node state' with
      | .error e =>
          (settle ⟨executed ++ [node], state, some node, .raised e⟩).Agree S (f b).run
      | .ok none => (settle ⟨executed ++ [node], state', none, .finished⟩).Agree S (f b).run
      | .ok (some node') =>
          (g.invoke limit (executed ++ [node]) node' none state' >>= settle).Agree S (f b).run) :
    (g.invoke (limit + 1) executed node resume state >>= settle).Agree S (y >>= f).run := by
  rw [invoke, bind_assoc, ExceptT.run_bind]
  refine Program.Agree.bind hnode fun result b hresult => ?_
  rcases result with e | state' | value <;> rcases b with e' | b
  · exact hresult ▸ hraised e
  · exact hresult.elim
  · exact hresult.elim
  · have hnext := hupdate state' b hresult
    dsimp only
    cases hedge : g.next node state' with
    | error e =>
        rw [hedge] at hnext
        exact hnext
    | ok node' =>
        rw [hedge] at hnext
        cases node' <;> exact hnext
  · exact hresult.elim
  · exact hinterrupt value b hresult

end StateGraph

end AgentBoilerplate.Effects

import AgentBoilerplate.Effects.Interleaving
import Mathlib.Data.List.Induction

namespace AgentBoilerplate.Effects

variable {I : Interface} {σ τ ε ι α : Type}

-- A handler whose calls may fail, as its surroundings decide for one call after the other.
-- It counts the calls that may, and only these depend on what is decided.
structure Faulty (I : Interface) (σ ε : Type) where
  handle : Option ε → Handler I σ
  counted : I.Call → Bool
  asked : σ → Nat
  asked_handle : ∀ fault request s,
    asked (handle fault request s).2 = asked s + if counted request then 1 else 0
  unaffected : ∀ fault request s, counted request = false →
    handle fault request s = handle none request s

namespace Faulty

variable (h : Faulty I σ ε)

def under (faults : Nat → Option ε) : Handler I σ :=
  fun request s => h.handle (faults (h.asked s)) request s

-- The concrete handler answers as the abstract one does when that call fails, or does
-- not, and related states stay related.
structure SimulatedBy (R : τ → σ → Prop) (concrete : Handler I τ) : Prop where
  step : ∀ request t s, R t s → ∃ fault, (h.handle fault request s).1 = (concrete request t).1 ∧
    R (concrete request t).2 (h.handle fault request s).2

variable {h} [DecidableEq ι]

theorem run_snoc (handler : Handler I σ) (c : Config I σ ι α) (schedule : List ι) (i : ι) :
    c.run handler (schedule ++ [i]) = (c.run handler schedule).step handler i :=
  Config.run_append handler c schedule [i]

theorem asked_step (faults : Nat → Option ε) (c : Config I σ ι α) (i : ι) :
    h.asked c.store ≤ h.asked (c.step (h.under faults) i).store := by
  cases hrest : (c.threads i).rest with
  | done value =>
      have hsame := Config.step_done (h.under faults) c i value hrest
      exact Nat.le_of_eq (congrArg (fun c => h.asked c.store) hsame.symm)
  | call request next =>
      rw [Config.step_call _ c i request next hrest, Config.advance_store]
      change _ ≤ h.asked (h.handle _ request c.store).2
      rw [h.asked_handle]
      exact Nat.le_add_right _ _

-- A step depends on what is decided about its own call only.
theorem step_congr {faults faults' : Nat → Option ε} {c : Config I σ ι α} {i : ι}
    (hsame : ∀ n < h.asked (c.step (h.under faults) i).store, faults n = faults' n) :
    c.step (h.under faults') i = c.step (h.under faults) i := by
  cases hrest : (c.threads i).rest with
  | done value => rw [Config.step_done _ c i value hrest, Config.step_done _ c i value hrest]
  | call request next =>
      have hhandle : h.under faults' request c.store = h.under faults request c.store := by
        unfold under
        cases hcounted : h.counted request with
        | false =>
            rw [h.unaffected _ request _ hcounted, h.unaffected (faults _) request _ hcounted]
        | true =>
            rw [Config.step_call _ c i request next hrest, Config.advance_store] at hsame
            have hasked := h.asked_handle (faults (h.asked c.store)) request c.store
            rw [hcounted, if_pos rfl] at hasked
            have hlt : h.asked c.store <
                h.asked (h.handle (faults (h.asked c.store)) request c.store).2 := by
              omega
            rw [hsame (h.asked c.store) hlt]
      rw [Config.step_call _ c i request next hrest, Config.step_call _ c i request next hrest]
      unfold Config.advance
      rw [hhandle]

theorem run_congr (faults : Nat → Option ε) {faults' : Nat → Option ε} {c : Config I σ ι α}
    (schedule : List ι)
    (hsame : ∀ n < h.asked (c.run (h.under faults) schedule).store, faults n = faults' n) :
    c.run (h.under faults') schedule = c.run (h.under faults) schedule := by
  induction schedule using List.reverseRecOn with
  | nil => rfl
  | append_singleton schedule i ih =>
      rw [run_snoc] at hsame ⊢
      rw [run_snoc]
      have hstep := asked_step (h := h) faults (c.run (h.under faults) schedule) i
      rw [ih fun n hn => hsame n (Nat.lt_of_lt_of_le hn hstep)]
      exact step_congr hsame

-- A run against the concrete handler is one against the abstract handler, under some
-- decisions about which calls fail.
theorem SimulatedBy.run {R : τ → σ → Prop} {concrete : Handler I τ}
    (hsim : h.SimulatedBy R concrete) {c : Config I τ ι α} {a : Config I σ ι α}
    (hthreads : a.threads = c.threads) (hstore : R c.store a.store) (schedule : List ι) :
    ∃ faults, (a.run (h.under faults) schedule).threads = (c.run concrete schedule).threads ∧
      R (c.run concrete schedule).store (a.run (h.under faults) schedule).store := by
  induction schedule using List.reverseRecOn with
  | nil => exact ⟨fun _ => none, hthreads, hstore⟩
  | append_singleton schedule i ih =>
      obtain ⟨faults, hthreads, hstore⟩ := ih
      generalize hc : c.run concrete schedule = c' at hthreads hstore
      generalize ha : a.run (h.under faults) schedule = a' at hthreads hstore
      cases hrest : (c'.threads i).rest with
      | done value =>
          refine ⟨faults, ?_⟩
          have hrest' : (a'.threads i).rest = .done value := by rw [hthreads, hrest]
          rw [run_snoc, run_snoc, hc, ha, Config.step_done _ c' i value hrest,
            Config.step_done _ a' i value hrest']
          exact ⟨hthreads, hstore⟩
      | call request next =>
          obtain ⟨fault, hanswer, hnext⟩ := hsim.step request c'.store a'.store hstore
          have hrest' : (a'.threads i).rest = .call request next := by rw [hthreads, hrest]
          refine ⟨Function.update faults (h.asked a'.store) fault, ?_⟩
          have hsame : a.run (h.under (Function.update faults (h.asked a'.store) fault)) schedule =
              a' := by
            refine (run_congr faults schedule fun n hn => ?_).trans ha
            rw [ha] at hn
            exact (Function.update_of_ne (Nat.ne_of_lt hn) fault faults).symm
          have hunder : h.under (Function.update faults (h.asked a'.store) fault) request a'.store =
              h.handle fault request a'.store := by
            unfold under
            rw [Function.update_self]
          rw [run_snoc, run_snoc, hc, hsame, Config.step_call _ c' i request next hrest,
            Config.step_call _ a' i request next hrest']
          unfold Config.advance
          rw [hunder, hanswer, hthreads]
          exact ⟨rfl, hnext⟩

end Faulty

end AgentBoilerplate.Effects

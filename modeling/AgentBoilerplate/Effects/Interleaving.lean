import AgentBoilerplate.Effects.Program

namespace AgentBoilerplate.Effects

-- A running program: the calls it has made, and what is left to run.
structure Thread (I : Interface) (α : Type) where
  past : List (Event I)
  rest : Program I α

structure Config (I : Interface) (σ ι α : Type) where
  store : σ
  threads : ι → Thread I α

variable {I : Interface} {σ ι α β : Type}

-- No thread has made a call yet. A thread that never gets a turn is a call
-- that was never received, so a start configuration stands for any number of
-- calls that begin at any time.
def Config.start (store : σ) (programs : ι → Program I α) : Config I σ ι α :=
  ⟨store, fun i => ⟨[], programs i⟩⟩

section Steps

variable [DecidableEq ι]

def Config.advance (handler : Handler I σ) (c : Config I σ ι α) (i : ι) (request : I.Call)
    (next : I.Answer request → Program I α) : Config I σ ι α :=
  ⟨(handler request c.store).2,
    Function.update c.threads i
      ⟨(c.threads i).past ++ [⟨request, (handler request c.store).1⟩],
        next (handler request c.store).1⟩⟩

-- One turn of thread `i`: its next call, atomically. A finished thread idles.
def Config.step (handler : Handler I σ) (c : Config I σ ι α) (i : ι) : Config I σ ι α :=
  match (c.threads i).rest with
  | .done _ => c
  | .call request next => c.advance handler i request next

def Config.run (handler : Handler I σ) (c : Config I σ ι α) (schedule : List ι) :
    Config I σ ι α :=
  schedule.foldl (Config.step handler) c

-- The calls made along the schedule, of all the threads, in order.
def Config.history (handler : Handler I σ) (c : Config I σ ι α) : List ι → List (Event I)
  | [] => []
  | i :: rest =>
      (match (c.threads i).rest with
        | .done _ => []
        | .call request _ => [⟨request, (handler request c.store).1⟩]) ++
      (c.step handler i).history handler rest

-- The call a program is about to make, if any.
def Program.Asks (P : I.Call → Prop) : Program I α → Prop
  | .done _ => True
  | .call request _ => P request

-- Every call made along the schedule meets the guard in the state it is made in.
def Config.Respects (handler : Handler I σ)
    (guard : ι → σ → List (Event I) → I.Call → Prop) (c : Config I σ ι α) : List ι → Prop
  | [] => True
  | i :: rest =>
      (c.threads i).rest.Asks (guard i c.store (c.threads i).past) ∧
      (c.step handler i).Respects handler guard rest

instance Program.decidableAsks {P : I.Call → Prop} [∀ request, Decidable (P request)] :
    (p : Program I α) → Decidable (p.Asks P)
  | .done _ => isTrue trivial
  | .call request _ => inferInstanceAs (Decidable (P request))

instance Config.decidableRespects {handler : Handler I σ}
    {guard : ι → σ → List (Event I) → I.Call → Prop}
    [∀ i s past request, Decidable (guard i s past request)] :
    (c : Config I σ ι α) → (schedule : List ι) → Decidable (c.Respects handler guard schedule)
  | _, [] => isTrue trivial
  | c, i :: rest =>
      @instDecidableAnd _ _ (Program.decidableAsks _) (decidableRespects (c.step handler i) rest)

theorem Program.Asks.mono {P Q : I.Call → Prop} (himp : ∀ request, P request → Q request)
    {p : Program I α} (h : p.Asks P) : p.Asks Q := by
  cases p with
  | done value => trivial
  | call request next => exact himp request h

namespace Config

variable (handler : Handler I σ)

@[simp] theorem advance_store (c : Config I σ ι α) (i : ι) (request : I.Call)
    (next : I.Answer request → Program I α) :
    (c.advance handler i request next).store = (handler request c.store).2 := rfl

@[simp] theorem advance_self (c : Config I σ ι α) (i : ι) (request : I.Call)
    (next : I.Answer request → Program I α) :
    (c.advance handler i request next).threads i =
      ⟨(c.threads i).past ++ [⟨request, (handler request c.store).1⟩],
        next (handler request c.store).1⟩ := by
  simp [advance]

theorem advance_of_ne (c : Config I σ ι α) (i j : ι) (hne : j ≠ i) (request : I.Call)
    (next : I.Answer request → Program I α) :
    (c.advance handler i request next).threads j = c.threads j := by
  simp [advance, hne]

theorem mem_advance_past (c : Config I σ ι α) (i j : ι) (request : I.Call)
    (next : I.Answer request → Program I α) (event : Event I) :
    event ∈ ((c.advance handler i request next).threads j).past ↔
      event ∈ (c.threads j).past ∨ j = i ∧ event = ⟨request, (handler request c.store).1⟩ := by
  by_cases hj : j = i
  · subst hj
    simp
  · rw [advance_of_ne handler c i j hj]
    simp [hj]

theorem step_call (c : Config I σ ι α) (i : ι) (request : I.Call)
    (next : I.Answer request → Program I α) (h : (c.threads i).rest = .call request next) :
    c.step handler i = c.advance handler i request next := by
  simp [step, h]

theorem step_done (c : Config I σ ι α) (i : ι) (value : α)
    (h : (c.threads i).rest = .done value) : c.step handler i = c := by
  simp [step, h]

@[simp] theorem run_nil (c : Config I σ ι α) : c.run handler [] = c := rfl

@[simp] theorem run_cons (c : Config I σ ι α) (i : ι) (rest : List ι) :
    c.run handler (i :: rest) = (c.step handler i).run handler rest := rfl

theorem run_append (c : Config I σ ι α) (first second : List ι) :
    c.run handler (first ++ second) = (c.run handler first).run handler second :=
  List.foldl_append

theorem respects_append (guard : ι → σ → List (Event I) → I.Call → Prop)
    (c : Config I σ ι α) (first second : List ι) :
    c.Respects handler guard (first ++ second) ↔
      c.Respects handler guard first ∧ (c.run handler first).Respects handler guard second := by
  induction first generalizing c with
  | nil => simp [Respects]
  | cons i rest ih => simp only [List.cons_append, Respects, ih, run_cons, and_assoc]

theorem Respects.mono {guard guard' : ι → σ → List (Event I) → I.Call → Prop}
    (himp : ∀ i s past request, guard i s past request → guard' i s past request)
    {c : Config I σ ι α} {schedule : List ι} (h : c.Respects handler guard schedule) :
    c.Respects handler guard' schedule := by
  induction schedule generalizing c with
  | nil => trivial
  | cons i rest ih => exact ⟨h.1.mono fun request => himp _ _ _ request, ih h.2⟩

theorem respects_true (c : Config I σ ι α) (schedule : List ι) :
    c.Respects handler (fun _ _ _ _ => True) schedule := by
  induction schedule generalizing c with
  | nil => trivial
  | cons i rest ih =>
      refine ⟨?_, ih _⟩
      cases (c.threads i).rest <;> trivial

-- What every turn keeps, a whole run keeps.
theorem run_induction {handler} {guard : ι → σ → List (Event I) → I.Call → Prop}
    (P : Config I σ ι α → Prop)
    (hstep : ∀ c i request next, P c → (c.threads i).rest = .call request next →
      guard i c.store (c.threads i).past request → P (c.advance handler i request next))
    {c : Config I σ ι α} {schedule : List ι} (hc : P c)
    (hr : c.Respects handler guard schedule) : P (c.run handler schedule) := by
  induction schedule generalizing c with
  | nil => exact hc
  | cons i rest ih =>
      apply ih _ hr.2
      cases hrest : (c.threads i).rest with
      | done value => rwa [step_done handler c i value hrest]
      | call request next =>
          rw [step_call handler c i request next hrest]
          have hguard := hr.1
          rw [hrest] at hguard
          exact hstep c i request next hc hrest hguard

-- What every turn keeps of the state and the calls so far, a whole run keeps.
theorem run_history {handler} (P : Config I σ ι α → List (Event I) → Prop)
    (hstep : ∀ c past i request next, P c past → (c.threads i).rest = .call request next →
      P (c.advance handler i request next) (past ++ [⟨request, (handler request c.store).1⟩]))
    {c : Config I σ ι α} {past : List (Event I)} (schedule : List ι) (hc : P c past) :
    P (c.run handler schedule) (past ++ c.history handler schedule) := by
  induction schedule generalizing c past with
  | nil => simpa [history] using hc
  | cons i rest ih =>
      rw [run_cons, history]
      cases hrest : (c.threads i).rest with
      | done value =>
          rw [step_done handler c i value hrest]
          exact ih hc
      | call request next =>
          rw [step_call handler c i request next hrest, ← List.append_assoc]
          exact ih (hstep c past i request next hc hrest)

end Config

end Steps

-- `p.Along shape past`: at every point a run of `p` can reach from `past`,
-- `shape` holds of the calls made and of what is left to run.
def Program.Along (shape : List (Event I) → Program I α → Prop) :
    List (Event I) → Program I α → Prop
  | past, .done value => shape past (.done value)
  | past, .call request next => shape past (.call request next) ∧
      ∀ answer, (next answer).Along shape (past ++ [⟨request, answer⟩])

namespace Program

variable {shape : List (Event I) → Program I α → Prop}

@[simp] theorem along_done (past : List (Event I)) (value : α) :
    (Program.done value).Along shape past ↔ shape past (.done value) := Iff.rfl

@[simp] theorem along_call (past : List (Event I)) (request : I.Call)
    (next : I.Answer request → Program I α) :
    (Program.call request next).Along shape past ↔
      shape past (.call request next) ∧
        ∀ answer, (next answer).Along shape (past ++ [⟨request, answer⟩]) := Iff.rfl

theorem Along.here {p : Program I α} {past : List (Event I)} (h : p.Along shape past) :
    shape past p := by
  cases p with
  | done value => exact h
  | call request next => exact h.1

theorem Along.mono {shape' : List (Event I) → Program I α → Prop}
    (himp : ∀ past p, shape past p → shape' past p) {p : Program I α} {past : List (Event I)}
    (h : p.Along shape past) : p.Along shape' past := by
  induction p generalizing past with
  | done value => exact himp _ _ h
  | call request next ih => exact ⟨himp _ _ h.1, fun answer => ih answer (h.2 answer)⟩

theorem Along.bind {shape' : List (Event I) → Program I β → Prop} {p : Program I α}
    {past : List (Event I)} {f : α → Program I β} (h : p.Along shape past)
    (hcall : ∀ past request next, shape past (.call request next) →
      shape' past (.call request fun answer => next answer >>= f))
    (hdone : ∀ past value, shape past (.done value) → (f value).Along shape' past) :
    (p >>= f).Along shape' past := by
  induction p generalizing past with
  | done value => exact hdone _ _ h
  | call request next ih => exact ⟨hcall _ _ _ h.1, fun answer => ih answer (h.2 answer)⟩

theorem Along.and {shape' : List (Event I) → Program I α → Prop} {p : Program I α}
    {past : List (Event I)} (h : p.Along shape past) (h' : p.Along shape' past) :
    p.Along (fun past p => shape past p ∧ shape' past p) past := by
  induction p generalizing past with
  | done value => exact ⟨h, h'⟩
  | call request next ih => exact ⟨⟨h.1, h'.1⟩, fun answer => ih answer (h.2 answer) (h'.2 answer)⟩

theorem Ends.along {post : List (Event I) → α → Prop} {p : Program I α} {past : List (Event I)}
    (h : p.Ends post past) :
    p.Along (fun past p => ∀ value, p = .done value → post past value) past := by
  induction p generalizing past with
  | done value =>
      intro value' hvalue
      cases hvalue
      exact h
  | call request next ih =>
      refine ⟨fun value hvalue => ?_, fun answer => ih answer (h answer)⟩
      cases hvalue

-- Every call a run of `p` can make is allowed after the calls before it.
def Calls (allowed : List (Event I) → I.Call → Prop) (past : List (Event I))
    (p : Program I α) : Prop :=
  p.Along (fun past p => p.Asks (allowed past)) past

variable {allowed : List (Event I) → I.Call → Prop}

@[simp] theorem calls_done (past : List (Event I)) (value : α) :
    (Program.done value).Calls allowed past := trivial

@[simp] theorem calls_call (past : List (Event I)) (request : I.Call)
    (next : I.Answer request → Program I α) :
    (Program.call request next).Calls allowed past ↔
      allowed past request ∧ ∀ answer, (next answer).Calls allowed (past ++ [⟨request, answer⟩]) :=
  Iff.rfl

theorem calls_ite {c : Prop} [Decidable c] {p q : Program I α} {past : List (Event I)}
    (hp : c → p.Calls allowed past) (hq : ¬ c → q.Calls allowed past) :
    (if c then p else q).Calls allowed past := by
  by_cases hc : c
  · rw [if_pos hc]
    exact hp hc
  · rw [if_neg hc]
    exact hq hc

theorem Calls.mono {allowed' : List (Event I) → I.Call → Prop}
    (himp : ∀ past request, allowed past request → allowed' past request) {p : Program I α}
    {past : List (Event I)} (h : p.Calls allowed past) : p.Calls allowed' past :=
  Along.mono (fun past _ hasks => hasks.mono (himp past)) h

theorem calls_bind (p : Program I α) (f : α → Program I β) (past : List (Event I)) :
    (p >>= f).Calls allowed past ↔
      p.Calls allowed past ∧ p.Ends (fun past value => (f value).Calls allowed past) past := by
  induction p generalizing past with
  | done value => simp
  | call request next ih =>
      simp only [call_bind, calls_call, ih, ends_call, and_assoc, forall_and]

@[simp] theorem calls_bind_pure (p : Program I α) (f : α → β) (past : List (Event I)) :
    (p >>= fun value => pure (f value)).Calls allowed past ↔ p.Calls allowed past := by
  induction p generalizing past with
  | done value => simp
  | call request next ih => simp only [call_bind, calls_call, ih]

theorem Calls.bind {p : Program I α} {f : α → Program I β} {past : List (Event I)}
    (h : p.Calls allowed past)
    (hf : ∀ later value, past <+: later → (f value).Calls allowed later) :
    (p >>= f).Calls allowed past :=
  (calls_bind p f past).mpr ⟨h, (ends_extends p past).mono fun later value => hf later value⟩

end Program

theorem Fallible.calls_bind {ε : Type} {allowed : List (Event I) → I.Call → Prop}
    {x : Fallible I ε α} {f : α → Fallible I ε β} {past : List (Event I)}
    (h : x.run.Calls allowed past)
    (hf : ∀ later value, past <+: later → (f value).run.Calls allowed later) :
    (x >>= f).run.Calls allowed past := by
  rw [ExceptT.run_bind]
  refine h.bind fun later result hlater => ?_
  cases result with
  | ok value => exact hf later value hlater
  | error e => trivial

namespace Config

-- Every thread is where its program allows it to be.
def Threaded (shape : ι → List (Event I) → Program I α → Prop) (c : Config I σ ι α) : Prop :=
  ∀ i, (c.threads i).rest.Along (shape i) (c.threads i).past

-- Every answer a thread has received is admissible.
def Answered (answers : Event I → Prop) (c : Config I σ ι α) : Prop :=
  ∀ i, ∀ event ∈ (c.threads i).past, answers event

theorem threaded_start {shape : ι → List (Event I) → Program I α → Prop}
    {programs : ι → Program I α} (h : ∀ i, (programs i).Along (shape i) []) (store : σ) :
    (Config.start store programs).Threaded shape := h

theorem answered_start (answers : Event I → Prop) (store : σ) (programs : ι → Program I α) :
    (Config.start store programs).Answered answers := by
  simp [Answered, Config.start]

variable {answers : Event I → Prop} {shape : ι → List (Event I) → Program I α → Prop}

theorem Threaded.here {c : Config I σ ι α} (h : c.Threaded shape) {i : ι} {p : Program I α}
    (hp : (c.threads i).rest = p) : shape i (c.threads i).past p :=
  hp ▸ (h i).here

variable [DecidableEq ι] {handler : Handler I σ}

theorem Threaded.advance {c : Config I σ ι α} (h : c.Threaded shape) {i : ι} {request : I.Call}
    {next : I.Answer request → Program I α} (hrest : (c.threads i).rest = .call request next) :
    (c.advance handler i request next).Threaded shape := by
  intro j
  by_cases hj : j = i
  · subst hj
    have hi := h j
    rw [hrest] at hi
    simpa using hi.2 _
  · rw [advance_of_ne handler c i j hj]
    exact h j

theorem Answered.advance {c : Config I σ ι α} (h : c.Answered answers) {i : ι}
    {request : I.Call} {next : I.Answer request → Program I α}
    (ha : answers ⟨request, (handler request c.store).1⟩) :
    (c.advance handler i request next).Answered answers := by
  intro j event he
  by_cases hj : j = i
  · subst hj
    rw [advance_self, List.mem_append, List.mem_singleton] at he
    rcases he with he | rfl
    · exact h j event he
    · exact ha
  · rw [advance_of_ne handler c i j hj] at he
    exact h j event he

end Config

end AgentBoilerplate.Effects

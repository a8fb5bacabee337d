import AgentBoilerplate.Effects.Footprint
import AgentBoilerplate.Effects.Sum

namespace AgentBoilerplate.Effects

-- How a thread may use its surroundings: which calls it may make in the phase
-- it is in, and the phase that each answer brings it to.
structure Protocol (I : Interface) (τ : Type) where
  permits : τ → I.Call → Prop
  next : τ → Event I → τ

variable {I J : Interface} {α β ε ε' σ τ ι : Type} {protocol : Protocol I τ}

-- The phase after these events.
def Protocol.after (protocol : Protocol I τ) (phase : τ) (past : List (Event I)) : τ :=
  past.foldl protocol.next phase

@[simp] theorem Protocol.after_nil (phase : τ) : protocol.after phase [] = phase := rfl

@[simp] theorem Protocol.after_append (phase : τ) (past : List (Event I)) (event : Event I) :
    protocol.after phase (past ++ [event]) = protocol.next (protocol.after phase past) event :=
  List.foldl_concat ..

-- Each of these events was permitted in the phase it came in.
def Protocol.Conforms (protocol : Protocol I τ) : τ → List (Event I) → Prop
  | _, [] => True
  | phase, event :: past =>
      protocol.permits phase event.call ∧ protocol.Conforms (protocol.next phase event) past

theorem Protocol.conforms_append {phase : τ} {past : List (Event I)} {event : Event I} :
    protocol.Conforms phase (past ++ [event]) ↔
      protocol.Conforms phase past ∧ protocol.permits (protocol.after phase past) event.call := by
  induction past generalizing phase with
  | nil => simp [Conforms]
  | cons first past ih =>
      rw [List.cons_append, Conforms, Conforms, ih, and_assoc]
      rfl

-- The same protocol, for the calls of one side.
def Protocol.left (protocol : Protocol (I.sum J) τ) : Protocol I τ where
  permits phase request := protocol.permits phase (.inl request)
  next phase event := protocol.next phase ⟨.inl event.call, event.answer⟩

def Protocol.right (protocol : Protocol (I.sum J) τ) : Protocol J τ where
  permits phase request := protocol.permits phase (.inr request)
  next phase event := protocol.next phase ⟨.inr event.call, event.answer⟩

-- Whatever the answers, every call is permitted in the phase it is made in, and
-- the program stops in a phase and with a value that satisfy `post`.
def Program.Obeys (protocol : Protocol I τ) (post : τ → α → Prop) : τ → Program I α → Prop
  | phase, .done value => post phase value
  | phase, .call request next => protocol.permits phase request ∧
      ∀ answer, (next answer).Obeys protocol post (protocol.next phase ⟨request, answer⟩)

-- A program that has stopped has done so with a value that satisfies `P`.
def Program.Stops (P : α → Prop) : Program I α → Prop
  | .done value => P value
  | .call _ _ => True

namespace Program

variable {post : τ → α → Prop} {phase : τ}

theorem Obeys.stops {p : Program I α} (h : p.Obeys protocol post phase) : p.Stops (post phase) := by
  cases p with
  | done value => exact h
  | call request next => trivial

@[simp] theorem obeys_done (value : α) :
    (Program.done value).Obeys protocol post phase ↔ post phase value := Iff.rfl

@[simp] theorem obeys_call (request : I.Call) (next : I.Answer request → Program I α) :
    (Program.call request next).Obeys protocol post phase ↔ protocol.permits phase request ∧
      ∀ answer, (next answer).Obeys protocol post (protocol.next phase ⟨request, answer⟩) := Iff.rfl

theorem Obeys.mono {post' : τ → α → Prop} {p : Program I α} (h : p.Obeys protocol post phase)
    (himp : ∀ later value, post later value → post' later value) :
    p.Obeys protocol post' phase := by
  induction p generalizing phase with
  | done value => exact himp _ _ h
  | call request next ih => exact ⟨h.1, fun answer => ih answer (h.2 answer)⟩

theorem Obeys.bind {post' : τ → β → Prop} {p : Program I α} {f : α → Program I β}
    (h : p.Obeys protocol post phase)
    (hf : ∀ later value, post later value → (f value).Obeys protocol post' later) :
    (p >>= f).Obeys protocol post' phase := by
  induction p generalizing phase with
  | done value => exact hf _ _ h
  | call request next ih => exact ⟨h.1, fun answer => ih answer (h.2 answer)⟩

-- What every event keeps holds of the phase a program stops in.
theorem Obeys.keeps (inv : τ → Prop) {p : Program I α} (h : p.Obeys protocol post phase)
    (hnext : ∀ phase event, inv phase → inv (protocol.next phase event)) (hinv : inv phase) :
    p.Obeys protocol (fun later value => inv later ∧ post later value) phase := by
  induction p generalizing phase with
  | done value => exact ⟨hinv, h⟩
  | call request next ih =>
      exact ⟨h.1, fun answer => ih answer (h.2 answer) (hnext phase _ hinv)⟩

-- A program whose calls are permitted in a phase that they do not leave.
theorem Within.obeys {ok : I.Call → Prop} {p : Program I α} (h : p.Within ok)
    (hpermits : ∀ request, ok request → protocol.permits phase request)
    (hstays : ∀ request answer, ok request → protocol.next phase ⟨request, answer⟩ = phase) :
    p.Obeys protocol (fun later _ => later = phase) phase := by
  induction p with
  | done value => rfl
  | call request next ih =>
      refine ⟨hpermits request h.1, fun answer => ?_⟩
      rw [hstays request answer h.1]
      exact ih answer (h.2 answer)

theorem within_true (p : Program I α) : p.Within fun _ => True := by
  induction p with
  | done value => trivial
  | call request next ih => exact ⟨trivial, ih⟩

theorem inl_obeys {protocol : Protocol (I.sum J) τ} {p : Program I α}
    (h : p.Obeys protocol.left post phase) : p.inl.Obeys protocol post phase := by
  induction p generalizing phase with
  | done value => exact h
  | call request next ih => exact ⟨h.1, fun answer => ih answer (h.2 answer)⟩

theorem inr_obeys {protocol : Protocol (I.sum J) τ} {p : Program J α}
    (h : p.Obeys protocol.right post phase) : p.inr.Obeys protocol post phase := by
  induction p generalizing phase with
  | done value => exact h
  | call request next ih => exact ⟨h.1, fun answer => ih answer (h.2 answer)⟩

end Program

theorem Fallible.obeys_bind {x : Fallible I ε α} {f : α → Fallible I ε β} {phase : τ}
    {post : τ → Except ε α → Prop} {post' : τ → Except ε β → Prop}
    (h : x.run.Obeys protocol post phase)
    (hok : ∀ later value, post later (.ok value) → (f value).run.Obeys protocol post' later)
    (herror : ∀ later e, post later (.error e) → post' later (.error e)) :
    (x >>= f).run.Obeys protocol post' phase := by
  rw [ExceptT.run_bind]
  refine h.bind fun later result hresult => ?_
  cases result with
  | ok value => exact hok later value hresult
  | error e => exact herror later e hresult

theorem Fallible.obeys_orFail {wrap : ε' → ε} {p : Program I (Except ε' α)} {phase : τ}
    (h : p.Obeys protocol (fun _ _ => True) phase) :
    (orFail wrap p).run.Obeys protocol (fun _ _ => True) phase :=
  h.bind fun _ result _ => by cases result <;> trivial

-- Every thread obeys the protocol, from the phase that its calls have brought it
-- to.
def Config.Obeys (protocol : Protocol I τ) (post : ι → τ → α → Prop) (c : Config I σ ι α)
    (start : ι → τ) : Prop :=
  ∀ i, (c.threads i).rest.Obeys protocol (post i) (protocol.after (start i) (c.threads i).past)

namespace Config

variable {post : ι → τ → α → Prop} {start : ι → τ}

theorem obeys_start {programs : ι → Program I α}
    (h : ∀ i, (programs i).Obeys protocol (post i) (start i)) (store : σ) :
    (Config.start store programs).Obeys protocol post start := h

-- The calls that each thread has made.
def pasts (c : Config I σ ι α) (i : ι) : List (Event I) := (c.threads i).past

variable [DecidableEq ι] {handler : Handler I σ}

@[simp] theorem pasts_advance (c : Config I σ ι α) (i : ι) (request : I.Call)
    (next : I.Answer request → Program I α) :
    (c.advance handler i request next).pasts =
      Function.update c.pasts i (c.pasts i ++ [⟨request, (handler request c.store).1⟩]) := by
  funext j
  by_cases hj : j = i
  · subst hj
    simp [pasts]
  · simp [pasts, advance_of_ne handler c i j hj, hj]

theorem Obeys.advance {c : Config I σ ι α} (h : c.Obeys protocol post start) {i : ι}
    {request : I.Call} {next : I.Answer request → Program I α}
    (hrest : (c.threads i).rest = .call request next) :
    (c.advance handler i request next).Obeys protocol post start := by
  intro j
  by_cases hj : j = i
  · subst hj
    have hobeys := h j
    rw [hrest] at hobeys
    rw [advance_self, Protocol.after_append]
    exact hobeys.2 _
  · rw [advance_of_ne handler c i j hj]
    exact h j

-- The phase of every thread.
def phases (protocol : Protocol I τ) (start : ι → τ) (pasts : ι → List (Event I)) (i : ι) : τ :=
  protocol.after (start i) (pasts i)

@[simp] theorem phases_update (pasts : ι → List (Event I)) (i : ι) (event : Event I) :
    phases protocol start (Function.update pasts i (pasts i ++ [event])) =
      Function.update (phases protocol start pasts) i
        (protocol.next (phases protocol start pasts i) event) := by
  funext j
  by_cases hj : j = i
  · subst hj
    simp [phases]
  · simp [phases, hj]

-- Threads that obey a protocol keep what every permitted call keeps, whatever
-- their programs are.
theorem Obeys.run {c : Config I σ ι α} (hobeys : c.Obeys protocol post start)
    (inv : σ → (ι → List (Event I)) → Prop) {guard : ι → σ → List (Event I) → I.Call → Prop}
    (hstep : ∀ s pasts i request, inv s pasts →
      protocol.permits (phases protocol start pasts i) request → guard i s (pasts i) request →
      inv (handler request s).2
        (Function.update pasts i (pasts i ++ [⟨request, (handler request s).1⟩])))
    {schedule : List ι} (hr : c.Respects handler guard schedule) (hinv : inv c.store c.pasts) :
    (c.run handler schedule).Obeys protocol post start ∧
      inv (c.run handler schedule).store (c.run handler schedule).pasts := by
  refine run_induction (fun c => c.Obeys protocol post start ∧ inv c.store c.pasts) ?_ ⟨hobeys, hinv⟩ hr
  intro c i request next h hrest hguard
  have hpermits := h.1 i
  rw [hrest] at hpermits
  refine ⟨h.1.advance hrest, ?_⟩
  rw [pasts_advance]
  exact hstep c.store c.pasts i request h.2 hpermits.1 hguard

-- What a run has done is what the protocol permits, whatever answers.
theorem Obeys.conforms {c : Config I σ ι α} (hobeys : c.Obeys protocol post start)
    (hstart : ∀ i, protocol.Conforms (start i) (c.pasts i)) (handler : Handler I σ)
    (schedule : List ι) :
    (c.run handler schedule).Obeys protocol post start ∧
      ∀ i, protocol.Conforms (start i) ((c.run handler schedule).pasts i) := by
  refine hobeys.run (fun _ pasts => ∀ i, protocol.Conforms (start i) (pasts i)) ?_
    (respects_true handler c schedule) hstart
  intro s pasts i request h hpermits _ j
  by_cases hj : j = i
  · subst hj
    rw [Function.update_self]
    exact Protocol.conforms_append.mpr ⟨h j, hpermits⟩
  · rw [Function.update_of_ne hj]
    exact h j

end Config

end AgentBoilerplate.Effects

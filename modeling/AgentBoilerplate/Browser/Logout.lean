import AgentBoilerplate.Browser.AuthStore
import AgentBoilerplate.Effects.Runs

-- What a page does with a token that arrives after the user logged out.
namespace AgentBoilerplate.Browser.AuthStore

open Effects

-- A response that carries an access token.
def grants : Event ApiPorts → Option String
  | ⟨.refresh, .ok accessToken⟩ => some accessToken
  | ⟨.login _ _, .ok accessToken⟩ => some accessToken
  | _ => none

-- A call puts a token in the store only at once after it was granted, and leaves
-- it there until it awaits something. Any other of its writes clears the store.
def Guarded {α : Type} : Option String → Program AuthPorts α → Prop
  | granted, .done _ => granted = none
  | granted, .call (.inl .token) next => granted = none ∧ ∀ current, Guarded none (next current)
  | granted, .call (.inl (.setToken value)) next => value = granted ∧ Guarded none (next ()) ∧
      (granted ≠ none → (next ()).Awaits)
  | granted, .call (.inr request) next => granted = none ∧
      ∀ answer, Guarded (grants ⟨request, answer⟩) (next answer)

section Programs

variable {α β : Type} {granted : Option String}

theorem Guarded.bind {p : Program AuthPorts α} {f : α → Program AuthPorts β}
    (hp : Guarded granted p) (hf : ∀ value, Guarded none (f value) ∧ (f value).Awaits) :
    Guarded granted (p >>= f) := by
  induction p generalizing granted with
  | done value =>
      obtain rfl : granted = none := hp
      exact (hf value).1
  | call request next ih =>
      rcases request with (_ | value) | request
      · exact ⟨hp.1, fun current => ih current (hp.2 current)⟩
      · exact ⟨hp.1, ih () hp.2.1, fun hgranted => (hp.2.2 hgranted).bind fun value => (hf value).2⟩
      · exact ⟨hp.1, fun answer => ih answer (hp.2 answer)⟩

-- A turn of a call leaves it guarded, and a token in the store only if it was
-- granted.
theorem settle_guarded {p : Program AuthPorts α} (h : Guarded none p) (current : Option String) :
    Guarded none (p.settle tokenHandler current).1 ∧
      (current = none → (p.settle tokenHandler current).2 = none) := by
  induction p generalizing current with
  | done value => exact ⟨h, id⟩
  | call request next ih =>
      rcases request with (_ | value) | request
      · exact ih current (h.2 current) current
      · obtain ⟨rfl, hnext, -⟩ := h
        have hlater := ih () hnext none
        exact ⟨hlater.1, fun _ => hlater.2 rfl⟩
      · exact ⟨h, id⟩

theorem settle_granted {p : Program AuthPorts α} {accessToken : String}
    (h : Guarded (some accessToken) p) (current : Option String) :
    Guarded none (p.settle tokenHandler current).1 ∧
      (p.settle tokenHandler current).2 = some accessToken := by
  cases p with
  | done value => cases h
  | call request next =>
      rcases request with (_ | value) | request
      · cases h.1
      · obtain ⟨rfl, hnext, hawaits⟩ := h
        have hsettled := Program.settle_of_awaits tokenHandler (hawaits (by simp)) (some accessToken)
        change Guarded none ((next ()).settle tokenHandler (some accessToken)).1 ∧
          ((next ()).settle tokenHandler (some accessToken)).2 = some accessToken
        rw [hsettled]
        exact ⟨hnext, rfl⟩
      · cases h.1

end Programs

theorem login_guarded (email password : String) : Guarded none (login email password).run := by
  simp only [login, Fallible.run_raising_bind, await, Program.call_bind, Program.done_bind]
  refine ⟨rfl, fun answer => ?_⟩
  cases answer with
  | ok accessToken => exact ⟨rfl, rfl, fun _ => trivial⟩
  | error failure => exact rfl

theorem register_guarded (email password : String) :
    Guarded none (register email password).run := by
  simp only [register, Fallible.run_raising_bind, await, Program.call_bind, Program.done_bind]
  refine ⟨rfl, fun answer => ?_⟩
  cases answer with
  | error failure => exact rfl
  | ok _ =>
      rw [ExceptT.run_bind]
      refine (login_guarded email password).bind fun result => ?_
      cases result with
      | ok _ => exact ⟨⟨rfl, fun _ => rfl⟩, trivial⟩
      | error failure => exact ⟨rfl, trivial⟩

theorem logout_guarded : Guarded none logout.run := by
  refine ⟨rfl, ⟨rfl, fun answer => ?_⟩, fun hgranted => absurd rfl hgranted⟩
  exact rfl

theorem tryRefresh_guarded : Guarded none tryRefresh := by
  refine ⟨rfl, fun answer => ?_⟩
  cases answer with
  | ok accessToken => exact ⟨rfl, rfl, fun _ => trivial⟩
  | error failure => exact ⟨rfl, rfl, fun hgranted => absurd rfl hgranted⟩

-- The second half of `withAuth`, once the token was refused.
theorem retried_guarded (call : String) (failure : Failure) (restored : Bool) :
    Guarded none (do
      await .resume
      if restored then
        let current ← token
        raising (await (.authorized call current))
      else
        setToken none
        throw failure : Async String).run := by
  refine ⟨rfl, fun _ => ?_⟩
  cases restored with
  | true =>
      refine ⟨rfl, fun current => ⟨rfl, fun answer => ?_⟩⟩
      cases answer <;> exact rfl
  | false => exact ⟨rfl, rfl, fun hgranted => absurd rfl hgranted⟩

theorem withAuth_guarded (call : String) : Guarded none (withAuth call).run := by
  rw [withAuth, Fallible.run_lift_bind]
  refine ⟨rfl, fun current => ?_⟩
  cases current with
  | none => exact rfl
  | some current =>
      simp only [Program.bind, Fallible.run_lift_bind]
      refine ⟨rfl, fun answer => ?_⟩
      cases answer with
      | ok payload => exact rfl
      | error failure =>
          simp only [Program.bind, apply_ite ExceptT.run, Fallible.run_lift_bind]
          by_cases hexpired : failure = .apiError 401
          · subst hexpired
            rw [if_pos rfl]
            exact tryRefresh_guarded.bind fun restored =>
              ⟨retried_guarded call (.apiError 401) restored, trivial⟩
          · rw [if_neg hexpired]
            exact rfl

theorem deleteAccount_guarded : Guarded none deleteAccount.run := by
  rw [deleteAccount, ExceptT.run_bind]
  refine (withAuth_guarded "deleteAccount").bind fun result => ?_
  cases result with
  | ok _ => exact ⟨⟨rfl, fun _ => ⟨rfl, rfl, fun hgranted => absurd rfl hgranted⟩⟩, trivial⟩
  | error failure => exact ⟨rfl, trivial⟩

theorem program_guarded (op : StoreOp) : Guarded none op.program := by
  cases op with
  | login email password => exact (login_guarded email password).bind fun _ => ⟨rfl, trivial⟩
  | register email password => exact (register_guarded email password).bind fun _ => ⟨rfl, trivial⟩
  | logout => exact logout_guarded.bind fun _ => ⟨rfl, trivial⟩
  | deleteAccount => exact deleteAccount_guarded.bind fun _ => ⟨rfl, trivial⟩
  | tryRefresh => exact tryRefresh_guarded.bind fun _ => ⟨rfl, trivial⟩
  | withAuth call => exact (withAuth_guarded call).bind fun _ => ⟨rfl, trivial⟩

namespace Page

variable {ι : Type}

-- Every call of the page has returned, or waits.
def Pending (page : Page ι) : Prop :=
  ∀ i p, page.calls i = some p → Guarded none p ∧ p.Awaits

-- The token that a step brings, to a call that waits for it.
def granted (page : Page ι) : PageStep ι → Option String
  | .begin_ _ _ => none
  | .arrive i event =>
      match page.calls i with
      | some (.call (.inr request) _) => if event.call = request then grants event else none
      | _ => none

theorem loaded_pending : (loaded : Page ι).Pending :=
  fun i p h => by cases h

variable [DecidableEq ι] {page : Page ι}

theorem goOn_pending {granted : Option String} {p : Program AuthPorts StoreOutcome} {i : ι}
    (hpage : page.Pending) (h : Guarded granted p) : (page.goOn i p).Pending := by
  intro j q hq
  by_cases hj : j = i
  · subst hj
    obtain rfl : (p.settle tokenHandler page.token).1 = q := by
      simpa [goOn] using hq
    refine ⟨?_, Program.settle_awaits tokenHandler p page.token⟩
    cases granted with
    | none => exact (settle_guarded h page.token).1
    | some accessToken => exact (settle_granted h page.token).1
  · exact hpage j q (by simpa [goOn, hj] using hq)

-- A step changes nothing, or it is a turn of one call.
theorem step_cases (hpage : page.Pending) (action : PageStep ι) :
    (page.step action = page ∧ page.granted action = none) ∨
      ∃ i p, page.step action = page.goOn i p ∧ Guarded (page.granted action) p := by
  cases action with
  | begin_ i op =>
      cases hcall : page.calls i with
      | none => exact Or.inr ⟨i, op.program, by simp only [step, hcall], program_guarded op⟩
      | some p => exact Or.inl ⟨by simp only [step, hcall], rfl⟩
  | arrive i event =>
      match hcall : page.calls i with
      | none => exact Or.inl ⟨by simp only [step, hcall], by simp only [granted, hcall]⟩
      | some (.done value) => exact Or.inl ⟨by simp only [step, hcall], by simp only [granted, hcall]⟩
      | some (.call (.inl request) next) =>
          exact Or.inl ⟨by simp only [step, hcall], by simp only [granted, hcall]⟩
      | some (.call (.inr request) next) =>
          cases hanswer : event.answerTo request with
          | none =>
              have hother : event.call ≠ request := fun heq => by
                rw [Event.answerTo, dif_pos heq] at hanswer
                cases hanswer
              refine Or.inl ⟨by simp only [step, hcall, hanswer], ?_⟩
              simp only [granted, hcall, if_neg hother]
          | some answer =>
              obtain rfl := Event.of_answerTo hanswer
              refine Or.inr ⟨i, next answer, by simp only [step, hcall, hanswer], ?_⟩
              simp only [granted, hcall, if_pos]
              exact (hpage i _ hcall).1.2 answer

theorem step_pending (hpage : page.Pending) (action : PageStep ι) : (page.step action).Pending := by
  obtain ⟨heq, -⟩ | ⟨i, p, heq, hguarded⟩ := step_cases hpage action
  · rw [heq]
    exact hpage
  · rw [heq]
    exact goOn_pending hpage hguarded

theorem step_clear (hpage : page.Pending) {action : PageStep ι} (hnone : page.granted action = none)
    (htoken : page.token = none) : (page.step action).token = none := by
  obtain ⟨heq, -⟩ | ⟨i, p, heq, hguarded⟩ := step_cases hpage action
  · rw [heq]
    exact htoken
  · rw [heq]
    rw [hnone] at hguarded
    exact (settle_guarded hguarded page.token).2 htoken

theorem step_granted (hpage : page.Pending) {action : PageStep ι} {accessToken : String}
    (hsome : page.granted action = some accessToken) :
    (page.step action).token = some accessToken := by
  obtain ⟨-, hnone⟩ | ⟨i, p, heq, hguarded⟩ := step_cases hpage action
  · rw [hsome] at hnone
    cases hnone
  · rw [heq]
    rw [hsome] at hguarded
    exact (settle_granted hguarded page.token).2

theorem run_pending (hpage : page.Pending) (actions : List (PageStep ι)) :
    (actions.foldl step page).Pending := by
  induction actions generalizing page with
  | nil => exact hpage
  | cons action rest ih => exact ih (step_pending hpage action)

def LoggedOut (page : Page ι) : Prop := page.Pending ∧ page.token = none

theorem logout_loggedOut (hpage : page.Pending) {i : ι} (hfresh : page.calls i = none) :
    (page.step (.begin_ i .logout)).LoggedOut := by
  refine ⟨step_pending hpage _, ?_⟩
  simp only [step, hfresh]
  exact rfl

theorem LoggedOut.step (h : page.LoggedOut) {action : PageStep ι}
    (hnone : page.granted action = none) : (page.step action).LoggedOut :=
  ⟨step_pending h.1 action, step_clear h.1 hnone h.2⟩

theorem LoggedOut.breaks (h : page.LoggedOut) {action : PageStep ι}
    (hgranted : page.granted action ≠ none) : (page.step action).token ≠ none := by
  obtain ⟨accessToken, hsome⟩ := Option.ne_none_iff_exists'.mp hgranted
  rw [step_granted h.1 hsome]
  simp

end Page

-- Whatever the user did before and does next, the store stays empty after a
-- logout in exactly the runs in which no refresh or login is still answered with
-- a token.
theorem logout_final {ι : Type} [DecidableEq ι] (before : List (PageStep ι)) {i : ι}
    (hfresh : (before.foldl Page.step Page.loaded).calls i = none) (after : List (PageStep ι)) :
    let page := (before.foldl Page.step Page.loaded).step (.begin_ i .logout)
    Always Page.step (fun page => page.token = none) page after ↔
      Permits Page.step (fun page action => page.granted action = none) page after := by
  have hout := Page.logout_loggedOut (Page.run_pending Page.loaded_pending before) hfresh
  exact always_iff_permits (fun page h => h.2) (fun page action h _ hnone => h.step hnone)
    (fun page action h _ hgranted => h.breaks hgranted) hout (always_true _ after)

-- A call whose access token has expired, and a logout while it is refreshed.
namespace Sample

def expired : List (PageStep Nat) :=
  [.begin_ 0 (.login "ada@example.org" "correct horse"),
    .arrive 0 ⟨.login "ada@example.org" "correct horse", .ok "first"⟩,
    .begin_ 1 (.withAuth "listJobs"),
    .arrive 1 ⟨.authorized "listJobs" (some "first"), .error (.apiError 401)⟩]

def loggedOut : Page Nat := (expired.foldl Page.step Page.loaded).step (.begin_ 2 .logout)

end Sample

theorem logout_undone :
    Sample.loggedOut.token = none ∧
      (Sample.loggedOut.step (.arrive 1 ⟨.refresh, .ok "second"⟩)).token = some "second" := by
  decide +kernel

theorem logout_final_refused :
    Always Page.step (fun page => page.token = none) Sample.loggedOut
      [.arrive 1 ⟨.refresh, .error (.apiError 401)⟩, .arrive 2 ⟨.logout, .ok ()⟩,
        .arrive 1 ⟨.resume, ()⟩] :=
  (logout_final Sample.expired rfl _).mpr (by decide +kernel)

end AgentBoilerplate.Browser.AuthStore

import AgentBoilerplate.Job.Lifecycle

namespace AgentBoilerplate.Job

-- Every call meets the guard at the job it is made on.
def ResearchJob.Meets (guard : ResearchJob → Transition → Prop) (job : ResearchJob) :
    List Transition → Prop
  | [] => True
  | call :: rest => guard job call ∧ (job.apply call).2.Meets guard rest

-- A question reaches an answered job only where it is ignored: the job is
-- neither pending nor running, or the question is blank.
def IgnoredOnceAnswered (job : ResearchJob) : Transition → Prop
  | .requestInput question => trim question ≠ "" → job.answer.isSome = true →
      job.status ≠ .pending ∧ job.status ≠ .running
  | _ => True

-- Once it is answered, the job does not wait for an answer.
def ResearchJob.AnsweredOnce (job : ResearchJob) : Prop :=
  job.answer.isSome = true → job.status ≠ .awaitingInput

namespace ResearchJob

variable {job : ResearchJob}

theorem start_answeredOnce (h : job.AnsweredOnce) : job.start.AnsweredOnce := by
  intro hanswer
  unfold start at hanswer ⊢
  by_cases hpending : job.status = .pending
  · rw [if_pos hpending]
    simp
  · rw [if_neg hpending] at hanswer ⊢
    exact h hanswer

theorem fail_answeredOnce (h : job.AnsweredOnce) (clock : Int) (error : String) :
    (job.fail clock error).AnsweredOnce := by
  intro hanswer
  unfold fail at hanswer ⊢
  by_cases hcompleted : job.status = .completed
  · rw [if_pos hcompleted] at hanswer ⊢
    exact h hanswer
  · rw [if_neg hcompleted]
    simp

theorem provideAnswer_answeredOnce (h : job.AnsweredOnce) (answer : String) :
    (job.provideAnswer answer).2.AnsweredOnce := by
  unfold provideAnswer
  dsimp only
  by_cases hempty : (trim answer).isEmpty = true
  · rw [if_pos hempty]
    exact h
  by_cases hlong : (trim answer).length > maxAnswerLen
  · rw [if_neg hempty, if_pos hlong]
    exact h
  by_cases hstatus : job.status ≠ .awaitingInput
  · rw [if_neg hempty, if_neg hlong, if_pos hstatus]
    exact h
  · rw [if_neg hempty, if_neg hlong, if_neg hstatus]
    simp [AnsweredOnce]

-- A question pauses an answered job exactly where it is not ignored.
theorem requestInput_answeredOnce (h : job.AnsweredOnce) (question : String) :
    (job.requestInput question).2.AnsweredOnce ↔
      IgnoredOnceAnswered job (.requestInput question) := by
  have hblank : (trim question).isEmpty = true ↔ trim question = "" := by simp
  unfold requestInput IgnoredOnceAnswered
  dsimp only
  by_cases hempty : (trim question).isEmpty = true
  · rw [if_pos hempty]
    exact ⟨fun _ hne => absurd (hblank.mp hempty) hne, fun _ => h⟩
  have hne : trim question ≠ "" := fun heq => hempty (hblank.mpr heq)
  rw [if_neg hempty]
  by_cases hstatus : job.status = .running ∨ job.status = .pending
  · rw [if_pos hstatus]
    constructor
    · intro honce _ hanswer
      exact absurd rfl (honce hanswer)
    · intro hignored hanswer
      obtain ⟨hpending, hrunning⟩ := hignored hne hanswer
      cases hstatus with
      | inl hs => exact absurd hs hrunning
      | inr hs => exact absurd hs hpending
  · rw [if_neg hstatus]
    have hnot := not_or.mp hstatus
    exact ⟨fun _ _ _ => ⟨hnot.2, hnot.1⟩, fun _ => h⟩

theorem apply_answeredOnce (h : job.AnsweredOnce) (call : Transition) :
    (job.apply call).2.AnsweredOnce ↔ IgnoredOnceAnswered job call := by
  cases call with
  | start => exact iff_of_true (start_answeredOnce h) trivial
  | complete clock => exact iff_of_true (by simp [AnsweredOnce, apply, complete]) trivial
  | fail clock error => exact iff_of_true (fail_answeredOnce h clock error) trivial
  | requestInput question => exact requestInput_answeredOnce h question
  | provideAnswer answer => exact iff_of_true (provideAnswer_answeredOnce h answer) trivial

-- Induction on the calls: the first of them that is not ignored pauses the job.
theorem after_answeredOnce (h : job.AnsweredOnce) (calls : List Transition) :
    (∀ before, before <+: calls → (job.after before).AnsweredOnce) ↔
      job.Meets IgnoredOnceAnswered calls := by
  induction calls generalizing job with
  | nil => simpa [Meets, after] using h
  | cons call rest ih =>
      constructor
      · intro hall
        have hstep : (job.apply call).2.AnsweredOnce := hall [call] (by simp)
        refine ⟨(apply_answeredOnce h call).mp hstep, (ih hstep).mp fun before hbefore => ?_⟩
        exact hall (call :: before) (List.cons_prefix_cons.mpr ⟨rfl, hbefore⟩)
      · intro hmeets before hbefore
        have hstep := (apply_answeredOnce h call).mpr hmeets.1
        cases before with
        | nil => exact h
        | cons first before =>
            obtain ⟨rfl, hrest⟩ := List.cons_prefix_cons.mp hbefore
            exact (ih hstep).mpr hmeets.2 before hrest

end ResearchJob

-- A job after any calls in any order: it never waits for a second answer if
-- and only if every question that comes after the answer is ignored.
theorem one_question {created : ResearchJob} (hcreated : Created created)
    (calls : List Transition) :
    (∀ before, before <+: calls → (created.after before).answer.isSome = true →
      (created.after before).status ≠ .awaitingInput) ↔
      created.Meets IgnoredOnceAnswered calls := by
  have hnone : created.AnsweredOnce := by
    intro _ hawaiting
    rw [hcreated.consistent.2] at hawaiting
    cases hawaiting
  exact ResearchJob.after_answeredOnce hnone calls

-- The worker's question is delivered again after the answer.
theorem question_repeated :
    let job := Sample.job.after
      [.start, .requestInput "4.0 or later?", .provideAnswer "later",
        .requestInput "4.0 or later?"]
    job.answer = some "later" ∧ job.status = .awaitingInput := by
  decide

-- The same, but the job has been completed in between.
theorem one_question_late :
    let calls : List Transition :=
      [.start, .requestInput "4.0 or later?", .provideAnswer "later",
        .complete 1767225960000000000, .requestInput "4.0 or later?"]
    (Sample.job.after calls).answer = some "later" ∧
      ∀ before, before <+: calls → (Sample.job.after before).answer.isSome = true →
        (Sample.job.after before).status ≠ .awaitingInput := by
  refine ⟨by decide, (one_question Sample.job_created _).mpr ?_⟩
  simp only [ResearchJob.Meets, IgnoredOnceAnswered, true_and, and_true]
  exact ⟨fun _ h => absurd h (by decide), fun _ _ => by decide⟩

end AgentBoilerplate.Job

import AgentBoilerplate.Job
import AgentBoilerplate.Text

namespace AgentBoilerplate.Job

-- The optional fields of a job agree with its status.
structure ResearchJob.Consistent (job : ResearchJob) : Prop where
  completedAt : job.completedAt.isSome = true ↔ job.status = .completed ∨ job.status = .failed
  error : job.error.isSome = true ↔ job.status = .failed
  awaiting : job.status = .awaitingInput → job.question.isSome = true
  question : ∀ question, job.question = some question → Trimmed question ∧ question ≠ ""
  answer : ∀ answer, job.answer = some answer → Trimmed answer ∧ answer ≠ "" ∧
    answer.length ≤ maxAnswerLen ∧ job.question.isSome = true

-- What no transition touches.
def ResearchJob.identity (job : ResearchJob) :
    Uuid × Uuid × String × JobMode × Option Uuid × JobUsage × Int :=
  (job.id, job.userId, job.keyword, job.mode, job.recurringSearchId, job.usage, job.createdAt)

namespace Created

theorem consistent {job : ResearchJob} (h : Created job) :
    job.Consistent ∧ job.status = .pending := by
  induction h with
  | new h =>
      unfold ResearchJob.new at h
      dsimp only at h
      split at h
      · cases h
      · split at h
        · cases h
        · cases h
          exact ⟨⟨by simp, by simp, by simp, by simp, by simp⟩, rfl⟩
  | withMode _ mode ih => exact ⟨⟨ih.1.completedAt, ih.1.error, ih.1.awaiting, ih.1.question,
      ih.1.answer⟩, ih.2⟩
  | withRecurring _ recurringSearchId ih => exact ⟨⟨ih.1.completedAt, ih.1.error, ih.1.awaiting,
      ih.1.question, ih.1.answer⟩, ih.2⟩

end Created

namespace ResearchJob

variable {job : ResearchJob}

theorem start_consistent (h : job.Consistent) : job.start.Consistent := by
  unfold start
  split
  · rename_i hpending
    have hcompletedAt := h.completedAt
    have herror := h.error
    rw [hpending] at hcompletedAt herror
    exact ⟨by simpa using hcompletedAt, by simpa using herror, nofun, h.question, h.answer⟩
  · exact h

theorem complete_consistent (h : job.Consistent) (clock : Int) :
    (job.complete clock).Consistent :=
  ⟨by simp [complete], by simp [complete], nofun, h.question, h.answer⟩

theorem fail_consistent (h : job.Consistent) (clock : Int) (error : String) :
    (job.fail clock error).Consistent := by
  unfold fail
  split
  · exact h
  · exact ⟨by simp, by simp, nofun, h.question, h.answer⟩

theorem requestInput_consistent (h : job.Consistent) (question : String) :
    (job.requestInput question).2.Consistent := by
  unfold requestInput
  dsimp only
  split
  · exact h
  · rename_i hquestion
    split
    · rename_i hstatus
      have hcompletedAt := h.completedAt
      have herror := h.error
      refine ⟨?_, ?_, fun _ => rfl, ?_, ?_⟩
      · rcases hstatus with hs | hs <;> simpa [hs] using hcompletedAt
      · rcases hstatus with hs | hs <;> simpa [hs] using herror
      · rintro _ ⟨⟩
        exact ⟨trim_trimmed question, by simpa using hquestion⟩
      · intro answer hanswer
        obtain ⟨htrimmed, hne, hlen, -⟩ := h.answer answer hanswer
        exact ⟨htrimmed, hne, hlen, rfl⟩
    · exact h

theorem provideAnswer_consistent (h : job.Consistent) (answer : String) :
    (job.provideAnswer answer).2.Consistent := by
  unfold provideAnswer
  dsimp only
  split
  · exact h
  · rename_i hanswer
    split
    · exact h
    · rename_i hlen
      split
      · exact h
      · rename_i hstatus
        have hawaiting : job.status = .awaitingInput := not_not.mp hstatus
        have hcompletedAt := h.completedAt
        have herror := h.error
        rw [hawaiting] at hcompletedAt herror
        refine ⟨by simpa using hcompletedAt, by simpa using herror, nofun, h.question, ?_⟩
        rintro _ ⟨⟩
        exact ⟨trim_trimmed answer, by simpa using hanswer, by simpa using hlen,
          h.awaiting hawaiting⟩

theorem apply_consistent (h : job.Consistent) (call : Transition) :
    (job.apply call).2.Consistent := by
  cases call with
  | start => exact start_consistent h
  | complete clock => exact complete_consistent h clock
  | fail clock error => exact fail_consistent h clock error
  | requestInput question => exact requestInput_consistent h question
  | provideAnswer answer => exact provideAnswer_consistent h answer

-- How the status moves: only a complete completes a job, and a finished job
-- moves in no other way.
theorem apply_completed (job : ResearchJob) (call : Transition) :
    (job.apply call).2.status = .completed ↔
      job.status = .completed ∨ ∃ clock, call = .complete clock := by
  cases call with
  | start =>
      simp only [apply, start, reduceCtorEq, exists_false, or_false]
      split
      · rename_i h
        simp [h]
      · rfl
  | complete clock => simp [apply, complete]
  | fail clock error =>
      simp only [apply, fail, reduceCtorEq, exists_false, or_false]
      split
      · rfl
      · rename_i h
        simp [h]
  | requestInput question =>
      simp only [apply, requestInput, reduceCtorEq, exists_false, or_false]
      split
      · rfl
      · split
        · rename_i h
          rcases h with h | h <;> simp [h]
        · rfl
  | provideAnswer answer =>
      simp only [apply, provideAnswer, reduceCtorEq, exists_false, or_false]
      split
      · rfl
      · split
        · rfl
        · split
          · rfl
          · rename_i h
            simp [not_not.mp h]

theorem apply_failed (h : job.status = .failed) (call : Transition) :
    (job.apply call).2.status = .failed ∨ (job.apply call).2.status = .completed := by
  cases call with
  | start => simp [apply, start, h]
  | complete clock => simp [apply, complete]
  | fail clock error => simp [apply, fail, h]
  | requestInput question =>
      simp only [apply, requestInput, h, reduceCtorEq, or_self, if_false]
      split <;> simp [h]
  | provideAnswer answer =>
      simp only [apply, provideAnswer, h, ne_eq, reduceCtorEq, not_false_iff, if_true]
      split
      · simp [h]
      · split <;> simp [h]

theorem apply_error {call : Transition} {e : JobError} (h : (job.apply call).1 = .error e) :
    (job.apply call).2 = job := by
  cases call with
  | start => cases h
  | complete clock => cases h
  | fail clock error => cases h
  | requestInput question =>
      simp only [apply, requestInput] at h ⊢
      split at h
      · rename_i hquestion
        rw [if_pos hquestion]
      · split at h <;> cases h
  | provideAnswer answer =>
      simp only [apply, provideAnswer] at h ⊢
      split at h
      · rename_i hanswer
        rw [if_pos hanswer]
      · rename_i hanswer
        rw [if_neg hanswer]
        split at h
        · rename_i hlen
          rw [if_pos hlen]
        · rename_i hlen
          rw [if_neg hlen]
          split at h
          · rename_i hstatus
            rw [if_pos hstatus]
          · cases h

theorem apply_identity (job : ResearchJob) (call : Transition) :
    (job.apply call).2.identity = job.identity := by
  cases call with
  | start => simp only [apply, start]; split <;> rfl
  | complete clock => rfl
  | fail clock error => simp only [apply, fail]; split <;> rfl
  | requestInput question =>
      simp only [apply, requestInput]
      split
      · rfl
      · split <;> rfl
  | provideAnswer answer =>
      simp only [apply, provideAnswer]
      split
      · rfl
      · split
        · rfl
        · split <;> rfl

theorem apply_id (job : ResearchJob) (call : Transition) : (job.apply call).2.id = job.id :=
  congrArg Prod.fst (apply_identity job call)

theorem after_consistent (h : job.Consistent) (calls : List Transition) :
    (job.after calls).Consistent := by
  induction calls generalizing job with
  | nil => exact h
  | cons call rest ih => exact ih (apply_consistent h call)

theorem after_completed (job : ResearchJob) (calls : List Transition) :
    (job.after calls).status = .completed ↔
      job.status = .completed ∨ ∃ clock, .complete clock ∈ calls := by
  induction calls generalizing job with
  | nil => simp [after]
  | cons call rest ih =>
      change ((job.apply call).2.after rest).status = .completed ↔ _
      rw [ih, apply_completed, or_assoc]
      simp only [List.mem_cons, eq_comm (a := call), exists_or]

theorem after_identity (job : ResearchJob) (calls : List Transition) :
    (job.after calls).identity = job.identity := by
  induction calls generalizing job with
  | nil => rfl
  | cons call rest ih => exact (ih _).trans (apply_identity job call)

end ResearchJob

-- A job after any calls in any order.
theorem job_lifecycle {created : ResearchJob} (hcreated : Created created)
    (calls : List Transition) :
    let job := created.after calls
    (job.status = .completed ↔ ∃ clock, .complete clock ∈ calls) ∧
    (job.completedAt.isSome = true ↔ job.status = .completed ∨ job.status = .failed) ∧
    (job.error.isSome = true ↔ job.status = .failed) ∧
    (job.status = .awaitingInput →
      ∃ question, job.question = some question ∧ Trimmed question ∧ question ≠ "") ∧
    (∀ answer, job.answer = some answer → Trimmed answer ∧ answer ≠ "" ∧
      answer.length ≤ maxAnswerLen ∧ job.question.isSome = true) ∧
    (job.status = .failed → ∀ call, (job.apply call).2.status = .failed ∨
      (job.apply call).2.status = .completed) ∧
    (∀ call e, (job.apply call).1 = .error e → (job.apply call).2 = job) ∧
    job.identity = created.identity := by
  intro job
  obtain ⟨hconsistent, hpending⟩ := hcreated.consistent
  have hjob : job.Consistent := ResearchJob.after_consistent hconsistent calls
  refine ⟨?_, hjob.completedAt, hjob.error, ?_, hjob.answer, ResearchJob.apply_failed,
    fun call e => ResearchJob.apply_error, ResearchJob.after_identity created calls⟩
  · rw [ResearchJob.after_completed, hpending]
    simp
  · intro hawaiting
    obtain ⟨question, hquestion⟩ := Option.isSome_iff_exists.mp (hjob.awaiting hawaiting)
    exact ⟨question, hquestion, hjob.question question hquestion⟩

-- A job to evaluate: launched in agent mode at a whole second.
def Sample.job : ResearchJob where
  id := ⟨"c1a7f6d2-5b0e-4e9b-9d34-7a2f80c6e915"⟩
  userId := ⟨"8a6e0804-2bd0-4672-b79d-d97027f9071a"⟩
  keyword := "lean 4"
  mode := .agent
  status := .pending
  error := none
  question := none
  answer := none
  recurringSearchId := none
  usage := {}
  createdAt := 1767225600000000000
  completedAt := none

theorem Sample.job_created : Created Sample.job :=
  have hnew : ResearchJob.new Sample.job.id 1767225600000000417 Sample.job.userId "  lean 4 " =
      .ok { Sample.job with mode := .workflow } := rfl
  Created.withMode (.new hnew) .agent

-- A question, its answer, a timeout, and then the late results.
theorem job_lifecycle_late_results :
    let calls : List Transition :=
      [.start, .requestInput " 4.0 or later? ", .provideAnswer "later",
        .fail 1767225900000000000 "timeout", .complete 1767225960000000000]
    (Sample.job.after calls).answer = some "later" ∧
      ((Sample.job.after calls).status = .completed ↔ ∃ clock, .complete clock ∈ calls) :=
  ⟨by decide, (job_lifecycle Sample.job_created _).1⟩

end AgentBoilerplate.Job

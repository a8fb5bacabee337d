import AgentBoilerplate.Job.Absorbing
import Mathlib.Algebra.Order.Ring.Rat
import Mathlib.Tactic.Ring

namespace AgentBoilerplate.Job

open Effects Collections

namespace JobUsage

-- Component by component.
def sum (reports : List JobUsage) : JobUsage where
  llmCalls := (reports.map llmCalls).sum
  llmInputTokens := (reports.map llmInputTokens).sum
  llmOutputTokens := (reports.map llmOutputTokens).sum
  searchCalls := (reports.map searchCalls).sum
  costUsd := (reports.map costUsd).sum

theorem add_sum_nil (usage : JobUsage) : usage.add (sum []) = usage := by
  simp [add, sum]

theorem add_sum_append (usage report : JobUsage) (reports : List JobUsage) :
    usage.add (sum (reports ++ [report])) = (usage.add (sum reports)).add report := by
  simp [add, sum, add_assoc]

end JobUsage

-- The usage a call has added to a job.
def reported (jobId : Uuid) : Event JobPorts → Option JobUsage
  | ⟨.addUsage id usage, .ok ()⟩ => if id = jobId then some usage else none
  | _ => none

def reports (jobId : Uuid) (events : List (Event JobPorts)) : List JobUsage :=
  events.filterMap (reported jobId)

-- The job is stored, and its usage is what it had and all that was reported.
def Accounted (job : ResearchJob) (world : JobWorld) (events : List (Event JobPorts)) : Prop :=
  ∃ row ∈ world.jobs, row.id = job.id ∧ row.usage = job.usage.add (JobUsage.sum (reports job.id events))

section Usage

variable {env : JobEnv} {world : JobWorld} {job : ResearchJob}

-- An update takes the usage from the stored row, whatever its copy holds.
theorem Jobs.update_usage (adapter : Adapter) {jobs : Jobs} (job : ResearchJob) {row : ResearchJob}
    (h : row ∈ jobs) :
    ∃ next ∈ jobs.update adapter job, next.id = row.id ∧ next.usage = row.usage := by
  unfold Jobs.update
  cases adapter with
  | inMemory =>
      by_cases hid : row.id = job.id
      · have hget : jobs.get job.id = some row := (Table.get_eq_some _ _ _).mpr ⟨h, hid⟩
        refine ⟨_, (Table.mem_insert _ _ _).mpr (Or.inl rfl), hid.symm, ?_⟩
        rw [hget]
        rfl
      · exact ⟨row, (Table.mem_insert _ _ _).mpr (Or.inr ⟨h, hid⟩), rfl, rfl⟩
  | postgres =>
      refine ⟨_, (Table.mem_modify _ _ _ _ _).mpr ⟨row, h, rfl⟩, ?_⟩
      split <;> exact ⟨rfl, rfl⟩

theorem Jobs.addUsage_usage {jobs : Jobs} (jobId : Uuid) (usage : JobUsage) {row : ResearchJob}
    (h : row ∈ jobs) :
    ∃ next ∈ jobs.addUsage jobId usage, next.id = row.id ∧
      next.usage = if row.id = jobId then row.usage.add usage else row.usage := by
  refine ⟨_, (Table.mem_modify _ _ _ _ _).mpr ⟨row, h, rfl⟩, ?_⟩
  split <;> exact ⟨rfl, rfl⟩

theorem Accounted.skip {next : JobWorld} {events : List (Event JobPorts)} {event : Event JobPorts}
    (h : Accounted job world events) (hevent : reported job.id event = none)
    (hkeeps : ∀ row ∈ world.jobs, ∃ later ∈ next.jobs, later.id = row.id ∧ later.usage = row.usage) :
    Accounted job next (events ++ [event]) := by
  obtain ⟨row, hrow, hid, husage⟩ := h
  obtain ⟨later, hlater, hlid, hlusage⟩ := hkeeps row hrow
  refine ⟨later, hlater, hlid.trans hid, ?_⟩
  rw [hlusage, husage, reports, reports, List.filterMap_append]
  simp [hevent]

-- One call of any operation that launches nothing.
theorem Accounted.handle {events : List (Event JobPorts)} (h : Accounted job world events)
    {request : JobCall} (hinsert : ∀ row, request ≠ .insert row) :
    Accounted job (env.handle request world).2
      (events ++ [⟨request, (env.handle request world).1⟩]) := by
  cases request with
  | insert row => exact absurd rfl (hinsert row)
  | update row =>
      refine h.skip rfl fun stored hstored => ?_
      simp only [JobEnv.handle, JobEnv.attempt]
      split
      · exact ⟨stored, hstored, rfl, rfl⟩
      · exact Jobs.update_usage env.adapter row hstored
  | addUsage jobId usage =>
      simp only [JobEnv.handle, JobEnv.attempt]
      split
      · exact h.skip rfl fun stored hstored => ⟨stored, hstored, rfl, rfl⟩
      · obtain ⟨row, hrow, hid, husage⟩ := h
        obtain ⟨later, hlater, hlid, hlusage⟩ := Jobs.addUsage_usage jobId usage hrow
        refine ⟨later, hlater, hlid.trans hid, ?_⟩
        rw [hlusage, reports, List.filterMap_append]
        by_cases hsame : jobId = job.id
        · simp only [hid, hsame, if_true, List.filterMap_cons, List.filterMap_nil, reported]
          rw [JobUsage.add_sum_append, husage]
          rfl
        · have hne : ¬ row.id = jobId := fun heq => hsame (heq.symm.trans hid)
          simp only [hne, hsame, if_false, List.filterMap_cons, List.filterMap_nil, reported,
            List.append_nil]
          exact husage
  | _ =>
      refine h.skip rfl fun stored hstored => ?_
      rw [JobEnv.handle_untouched rfl]
      exact ⟨stored, hstored, rfl, rfl⟩

end Usage

namespace Sample

def spent : JobUsage where
  llmCalls := 3
  llmInputTokens := 1200
  costUsd := 1 / 50

def reporting : Bool → JobOp
  | false => .start job.id
  | true => .recordUsage job.id spent

end Sample

end AgentBoilerplate.Job

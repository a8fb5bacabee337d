import AgentBoilerplate.Basic
import Mathlib.Data.Rat.Defs

namespace AgentBoilerplate.Job

inductive JobStatus where
  | pending
  | running
  | awaitingInput
  | completed
  | failed
deriving DecidableEq, Repr

inductive JobMode where
  | workflow
  | agent
deriving DecidableEq, Repr, Inhabited

-- Costs are exact here.
structure JobUsage where
  llmCalls : Int := 0
  llmInputTokens : Int := 0
  llmOutputTokens : Int := 0
  searchCalls : Int := 0
  costUsd : Rat := 0
deriving DecidableEq

def JobUsage.add (usage other : JobUsage) : JobUsage where
  llmCalls := usage.llmCalls + other.llmCalls
  llmInputTokens := usage.llmInputTokens + other.llmInputTokens
  llmOutputTokens := usage.llmOutputTokens + other.llmOutputTokens
  searchCalls := usage.searchCalls + other.searchCalls
  costUsd := usage.costUsd + other.costUsd

def maxKeywordLen : Nat := 200
def maxAnswerLen : Nat := 2000

inductive JobError where
  | emptyKeyword
  | keywordTooLong
  | invalidInterval
  | invalidWebhookUrl
  | webhookUrlTooLong
  | emptyQuestion
  | emptyAnswer
  | answerTooLong
  | notAwaitingInput
deriving DecidableEq, Repr

structure ResearchJob where
  id : Uuid
  userId : Uuid
  keyword : String
  mode : JobMode
  status : JobStatus
  error : Option String
  question : Option String
  answer : Option String
  recurringSearchId : Option Uuid
  usage : JobUsage
  createdAt : Int
  completedAt : Option Int
deriving DecidableEq

namespace ResearchJob

-- `id` is the identifier it draws and `clock` the reading it takes; so for the
-- other transitions that read the clock.
def new (id : Uuid) (clock : Int) (userId : Uuid) (keyword : String) :
    Except JobError ResearchJob :=
  let keyword := trim keyword
  if keyword.isEmpty then
    .error .emptyKeyword
  else if keyword.length > maxKeywordLen then
    .error .keywordTooLong
  else
    .ok {
      id, userId, keyword
      mode := .workflow
      status := .pending
      error := none
      question := none
      answer := none
      recurringSearchId := none
      usage := {}
      createdAt := truncSubsecs6 clock
      completedAt := none }

def withMode (job : ResearchJob) (mode : JobMode) : ResearchJob := { job with mode }

def withRecurring (job : ResearchJob) (recurringSearchId : Uuid) : ResearchJob :=
  { job with recurringSearchId := some recurringSearchId }

def start (job : ResearchJob) : ResearchJob :=
  if job.status = .pending then { job with status := .running } else job

def complete (job : ResearchJob) (clock : Int) : ResearchJob :=
  { job with status := .completed, error := none, completedAt := some (truncSubsecs6 clock) }

def fail (job : ResearchJob) (clock : Int) (error : String) : ResearchJob :=
  if job.status = .completed then
    job
  else
    { job with
      status := .failed
      error := some error
      completedAt := some (truncSubsecs6 clock) }

-- A transition that can be refused returns its result and the job it leaves.
def requestInput (job : ResearchJob) (question : String) : Except JobError Unit × ResearchJob :=
  let question := trim question
  if question.isEmpty then
    (.error .emptyQuestion, job)
  else if job.status = .running ∨ job.status = .pending then
    (.ok (), { job with status := .awaitingInput, question := some question })
  else
    (.ok (), job)

def provideAnswer (job : ResearchJob) (answer : String) : Except JobError Unit × ResearchJob :=
  let answer := trim answer
  if answer.isEmpty then
    (.error .emptyAnswer, job)
  else if answer.length > maxAnswerLen then
    (.error .answerTooLong, job)
  else if job.status ≠ .awaitingInput then
    (.error .notAwaitingInput, job)
  else
    (.ok (), { job with answer := some answer, status := .pending })

def isFinished (job : ResearchJob) : Bool := job.status = .completed ∨ job.status = .failed

end ResearchJob

-- One call on a job, and a job after calls in sequence.
inductive Transition where
  | start
  | complete (clock : Int)
  | fail (clock : Int) (error : String)
  | requestInput (question : String)
  | provideAnswer (answer : String)
deriving DecidableEq, Repr

def ResearchJob.apply (job : ResearchJob) : Transition → Except JobError Unit × ResearchJob
  | .start => (.ok (), job.start)
  | .complete clock => (.ok (), job.complete clock)
  | .fail clock error => (.ok (), job.fail clock error)
  | .requestInput question => job.requestInput question
  | .provideAnswer answer => job.provideAnswer answer

def ResearchJob.after (job : ResearchJob) (calls : List Transition) : ResearchJob :=
  calls.foldl (fun job call => (job.apply call).2) job

-- The jobs the use cases create: a new one, with its mode and its link set.
inductive Created : ResearchJob → Prop
  | new {id userId : Uuid} {clock : Int} {keyword : String} {job : ResearchJob}
      (h : ResearchJob.new id clock userId keyword = .ok job) : Created job
  | withMode {job : ResearchJob} (h : Created job) (mode : JobMode) : Created (job.withMode mode)
  | withRecurring {job : ResearchJob} (h : Created job) (recurringSearchId : Uuid) :
      Created (job.withRecurring recurringSearchId)

end AgentBoilerplate.Job

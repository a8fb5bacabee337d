import AgentBoilerplate.Session.SingleUse
import AgentBoilerplate.Session.Revocation
import AgentBoilerplate.Session.Lineage
import AgentBoilerplate.Session.Retry
import AgentBoilerplate.Job.Lifecycle
import AgentBoilerplate.Job.Absorbing
import AgentBoilerplate.Job.Quota
import AgentBoilerplate.Job.Clarification
import AgentBoilerplate.Job.Sequential
import AgentBoilerplate.Job.Retries
import AgentBoilerplate.Job.Stalled
import AgentBoilerplate.Job.Answering
import AgentBoilerplate.Job.Resuming
import AgentBoilerplate.Job.RecentUrls
import AgentBoilerplate.Agent.Parity
import AgentBoilerplate.Agent.Fusion
import AgentBoilerplate.Agent.WeirdUrls
import AgentBoilerplate.Agent.Budgets
import AgentBoilerplate.System.Journal
import AgentBoilerplate.Browser.Survival
import AgentBoilerplate.Browser.EventStream
import AgentBoilerplate.Browser.Logout
import AgentBoilerplate.Http.RateLimit
import AgentBoilerplate.Notify.Destinations
import AgentBoilerplate.Agent.Workflow
import AgentBoilerplate.Agent.Distinct
import AgentBoilerplate.Agent.Verdicts
import AgentBoilerplate.Agent.Cap
import AgentBoilerplate.Agent.Pages
import AgentBoilerplate.Agent.Rereading
import AgentBoilerplate.Agent.Aggregating
import AgentBoilerplate.Agent.Chunks
import AgentBoilerplate.Agent.Replies
import AgentBoilerplate.Account.Uniqueness
import AgentBoilerplate.Config.Durations
import AgentBoilerplate.Job.Recurring
import AgentBoilerplate.Job.Digests
import AgentBoilerplate.Job.Scheduling
import AgentBoilerplate.Job.Unlinking
import AgentBoilerplate.Job.Usage
import AgentBoilerplate.Knowledge.Replacing
import AgentBoilerplate.Job.Snapshots
import AgentBoilerplate.Deletion.Restart
import AgentBoilerplate.Deletion.Resurrection
import AgentBoilerplate.Notify.Blocked
import AgentBoilerplate.Tenancy.Isolation
import AgentBoilerplate.Cluster.Release
import AgentBoilerplate.Cluster.Pacing
import AgentBoilerplate.Http.Mediation
import AgentBoilerplate.Http.Failures
import AgentBoilerplate.Http.Audit
import AgentBoilerplate.System.Dispatch
import AgentBoilerplate.System.Acknowledgement
import AgentBoilerplate.System.Updates
import AgentBoilerplate.Http.RedisLimit
import AgentBoilerplate.System.Embedding

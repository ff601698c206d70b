import CrynuxRelay.Nodes.Unstake
import CrynuxRelay.Tasks.GroupFaults
import CrynuxRelay.Tasks.Isolation
import CrynuxRelay.Slashes.Decision
import CrynuxRelay.Tasks.DeadlineColumn
import CrynuxRelay.Vestings.Exact
import CrynuxRelay.Streams.Delivery
import CrynuxRelay.Nodes.IndexSafety
import CrynuxRelay.Nodes.ScorePool
import CrynuxRelay.Tasks.Statistics
import CrynuxRelay.Tasks.StatsWorkers
import CrynuxRelay.Tasks.Traces
import CrynuxRelay.Staking.Replay
import CrynuxRelay.Accounts.Erc20
import CrynuxRelay.Matching.Dispatch
import CrynuxRelay.Accounts.LedgerSafety
import CrynuxRelay.Accounts.LogicalEvents
import CrynuxRelay.Withdrawals.DailyLimit
import CrynuxRelay.Withdrawals.Fees
import CrynuxRelay.ModelFiles.RuntimeConstraints
import CrynuxRelay.ModelFiles.Keys
import CrynuxRelay.ModelFiles.LoadedModels
import CrynuxRelay.Slashes.DelegatedJobs
import CrynuxRelay.Pricing.Records
import CrynuxRelay.Nodes.MaxStaking

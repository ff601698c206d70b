import CrynuxRelay.Base.Nested
import CrynuxRelay.Model.State

/-!
# Delegated staking: the rows, the caches and the handlers of the chain events

* `DelegationCache` -- the delegations of one network in memory, by node and by delegator, with totals;
* `updateDelegatedStaking`, `unstakeDelegatedStaking`, `changeNodeDelegatorShare`,
  `slashDelegatedStaking` -- the handlers: a transaction on the rows, then a call on the cache;
* `setNodeStatusJoin`, `initDelegationCaches` -- the rows of a node are read from the chain again, and
  the caches are built from the rows;
* `StakingStep`, `StakingStep.exec` -- completed operations, in any order;
* `processDelegatedStakingReceiptLogs` -- the logs of a block, up to the first error.

A call on a missing entry of a cache dereferences a nil pointer, which is an error of its own here.
-/

namespace CrynuxRelay

/-! ## rows -/

structure Delegation where
  delegatorAddress : Text
  nodeAddress : Text
  network : Text
  amount : Int
  slashed : Bool := false
  deriving DecidableEq

def Delegation.key (d : Delegation) : Text × Text × Text :=
  (d.delegatorAddress, d.nodeAddress, d.network)

structure DelegatedStakingSlashRecord where
  slashJobID : Option Nat
  nodeAddress : Text
  delegatorAddress : Text
  network : Text
  amount : Int
  slashTxHash : Text
  blockNumber : Nat
  logIndex : Nat
  deriving DecidableEq

def DelegatedStakingSlashRecord.key (r : DelegatedStakingSlashRecord) : Text × Text × Nat :=
  (r.network, r.slashTxHash, r.logIndex)

inductive DelegatedSlashJobStatus
  | pending | processing | completed | failed
  deriving DecidableEq

structure DelegatedSlashJob where
  id : Nat
  nodeAddress : Text
  network : Text
  status : DelegatedSlashJobStatus := .pending
  deriving DecidableEq

/-- the columns of a node that the staking events read or write. -/
structure StakingNode where
  address : Text
  network : Text
  status : NodeStatus := .available
  delegatorShare : Nat := 0
  deriving DecidableEq

/-! ## caches -/

structure DelegationCache where
  nodeDelegations : Nested Text Text := fun _ => none
  userDelegations : Nested Text Text := fun _ => none
  userStakeAmount : Text → Option Int := fun _ => none
  nodeStakeAmount : Text → Option Int := fun _ => none

namespace DelegationCache

variable (c : DelegationCache) (delegatorAddress nodeAddress : Text) (amount : Int)

def update : DelegationCache :=
  let oldAmount := (c.nodeDelegations.lookup nodeAddress delegatorAddress).getD 0
  { nodeDelegations := c.nodeDelegations.store nodeAddress delegatorAddress amount
    userDelegations := c.userDelegations.store delegatorAddress nodeAddress amount
    userStakeAmount := Function.update c.userStakeAmount delegatorAddress
      (some ((c.userStakeAmount delegatorAddress).getD 0 - oldAmount + amount))
    nodeStakeAmount := Function.update c.nodeStakeAmount nodeAddress
      (some ((c.nodeStakeAmount nodeAddress).getD 0 - oldAmount + amount)) }

/-- the totals of both addresses have to be there. -/
def unstake : Option DelegationCache :=
  let oldAmount := (c.nodeDelegations.lookup nodeAddress delegatorAddress).getD 0
  match c.userStakeAmount delegatorAddress, c.nodeStakeAmount nodeAddress with
  | some user, some node =>
    some
      { nodeDelegations := c.nodeDelegations.discard nodeAddress delegatorAddress
        userDelegations := c.userDelegations.discard delegatorAddress nodeAddress
        userStakeAmount :=
          Function.update c.userStakeAmount delegatorAddress (some (user - oldAmount))
        nodeStakeAmount := Function.update c.nodeStakeAmount nodeAddress (some (node - oldAmount)) }
  | _, _ => none

def removeDelegator (c : DelegationCache) (entry : Text × Int) : Option DelegationCache :=
  match c.userStakeAmount entry.1 with
  | some user =>
    some
      { c with
        userStakeAmount := Function.update c.userStakeAmount entry.1 (some (user - entry.2))
        userDelegations := c.userDelegations.discard entry.1 nodeAddress }
  | none => none

def removeNode : Option DelegationCache :=
  match c.nodeDelegations nodeAddress with
  | none => some c
  | some delegations =>
    (delegations.rows.foldlM (removeDelegator nodeAddress) c).map fun c =>
      { c with
        nodeDelegations := Function.update c.nodeDelegations nodeAddress none
        nodeStakeAmount := Function.update c.nodeStakeAmount nodeAddress (some 0) }

def getDelegatorTotalStakeAmount : Int :=
  (c.userStakeAmount delegatorAddress).getD 0

def getNodeTotalStakeAmount : Int :=
  (c.nodeStakeAmount nodeAddress).getD 0

end DelegationCache

/-! ## the state -/

structure StakingState where
  networks : List Text
  nodes : Table StakingNode.address := Table.empty
  delegations : Table Delegation.key := Table.empty
  slashRecords : Table DelegatedStakingSlashRecord.key := Table.empty
  slashJobs : List DelegatedSlashJob := []
  caches : Text → Option DelegationCache := fun _ => none
  delegatorShares : Text × Text → Option Nat := fun _ => none

inductive StakingError
  | missingDelegation
  | slashJobInProgress
  | networkNotFound
  | stakingAmountMismatch
  | lengthMismatch
  | nilPointer
  deriving DecidableEq

abbrev StakingResult := Except StakingError StakingState

variable (s : StakingState) (delegatorAddress nodeAddress network : Text) (amount : Int)

namespace StakingState

def withDelegations (rows : Table Delegation.key) : StakingState :=
  { s with delegations := rows }

def withCache (f : DelegationCache → Option DelegationCache) : StakingResult :=
  match (s.caches network).bind f with
  | some c => .ok { s with caches := Function.update s.caches network (some c) }
  | none => .error .nilPointer

def updateDelegation (network : Text) : StakingResult :=
  s.withCache network fun c => some (c.update delegatorAddress nodeAddress amount)

def unstakeDelegation : StakingResult :=
  s.withCache network fun c => c.unstake delegatorAddress nodeAddress

def removeNodeDelegations : StakingResult :=
  s.withCache network fun c => c.removeNode nodeAddress

def getUnfinishedDelegatedSlashJob : Option Nat :=
  ((s.slashJobs.filter fun j =>
    j.nodeAddress = nodeAddress ∧ j.network = network ∧ j.status ≠ .completed).getLast?).map (·.id)

def hasUnfinishedDelegatedSlashJobForNode : Bool :=
  s.slashJobs.any fun j => j.nodeAddress = nodeAddress ∧ j.status ≠ .completed

/-! ## handlers -/

def updateDelegatedStaking (network : Text) : StakingResult :=
  match s.nodes.get nodeAddress with
  | none => .ok s
  | some _ =>
    let row : Delegation :=
      { delegatorAddress := delegatorAddress, nodeAddress := nodeAddress, network := network,
        amount := amount }
    (s.withDelegations (s.delegations.put row)).updateDelegation delegatorAddress nodeAddress amount
      network

def unstakeDelegatedStaking : StakingResult :=
  match s.nodes.get nodeAddress with
  | none => .ok s
  | some _ =>
    match s.delegations.get (delegatorAddress, nodeAddress, network) with
    | none => .ok s
    | some d =>
      if d.slashed then .ok s
      else
        (s.withDelegations (s.delegations.erase (delegatorAddress, nodeAddress, network))).unstakeDelegation
          delegatorAddress nodeAddress network

def changeNodeDelegatorShare (share : Nat) (network : Text) : StakingResult :=
  match s.nodes.get nodeAddress with
  | none => .ok s
  | some node =>
    if node.network ≠ network ∨ node.status = .quit then .ok s
    else
      .ok
        { s with
          nodes := s.nodes.put { node with delegatorShare := share }
          delegatorShares := Function.update s.delegatorShares (nodeAddress, network) (some share) }

/-- the record of a slash, and the delegation, which has to be there and not be slashed yet. -/
def slashDelegatedStaking (txHash : Text) (blockNumber logIndex : Nat) (network : Text) :
    StakingResult :=
  match s.delegations.get (delegatorAddress, nodeAddress, network) with
  | none => .error .missingDelegation
  | some d =>
    if d.slashed then .error .missingDelegation
    else
      let slashRecord : DelegatedStakingSlashRecord :=
        { slashJobID := s.getUnfinishedDelegatedSlashJob nodeAddress network
          nodeAddress := nodeAddress
          delegatorAddress := delegatorAddress
          network := network
          amount := amount
          slashTxHash := txHash
          blockNumber := blockNumber
          logIndex := logIndex }
      ({ s with slashRecords := s.slashRecords.insert slashRecord }.withDelegations
        (s.delegations.put { d with amount := amount, slashed := true })).unstakeDelegation
          delegatorAddress nodeAddress network

end StakingState

/-! ## join and startup -/

/-- what a join reads from the chain. -/
structure ChainInfo where
  stakedBalance : Int
  delegatorShare : Nat
  delegatorAddresses : List Text
  amounts : List Int

def normalizeChainDelegations (delegatorAddresses : List Text) (amounts : List Int) :
    Option (List (Text × Int)) :=
  if delegatorAddresses.length ≠ amounts.length then none
  else some ((delegatorAddresses.zip amounts).filter fun d => d.2 ≠ 0)

def syncNodeDelegationsFromChainTx (rows : Table Delegation.key) (nodeAddress network : Text)
    (delegations : List (Text × Int)) : Table Delegation.key :=
  delegations.foldl (fun rows d => rows.put
      { delegatorAddress := d.1, nodeAddress := nodeAddress, network := network, amount := d.2 })
    (rows.filter fun d => ¬ (d.nodeAddress = nodeAddress ∧ d.network = network ∧ d.slashed = false))

namespace StakingState

def applyNodeDelegationsToCache (delegations : List (Text × Int)) : StakingResult := do
  let s ← s.removeNodeDelegations nodeAddress network
  delegations.foldlM (fun s d => s.updateDelegation d.1 nodeAddress d.2 network) s

def setNodeStatusJoin (address network : Text) (stakeAmount : Int) (chain : ChainInfo) :
    StakingResult :=
  if s.hasUnfinishedDelegatedSlashJobForNode address then .error .slashJobInProgress
  else if network ∉ s.networks then .error .networkNotFound
  else if chain.stakedBalance ≠ stakeAmount then .error .stakingAmountMismatch
  else
    match normalizeChainDelegations chain.delegatorAddresses chain.amounts with
    | none => .error .lengthMismatch
    | some delegations => do
      let node : StakingNode :=
        { address := address, network := network, delegatorShare := chain.delegatorShare }
      let rows := syncNodeDelegationsFromChainTx s.delegations address network delegations
      let s ← ({ s with nodes := s.nodes.put node }.withDelegations rows).applyNodeDelegationsToCache
        address network delegations
      .ok { s with
        delegatorShares :=
          Function.update s.delegatorShares (address, network) (some chain.delegatorShare) }

def setNodeStatusQuit (address : Text) : StakingResult :=
  match s.nodes.get address with
  | none => .ok s
  | some node => .ok { s with nodes := s.nodes.put { node with status := .quit } }

/-- an empty cache for each network of the configuration, and then all rows that are not slashed. -/
def initDelegationCaches : StakingResult :=
  (s.delegations.rows.filter fun d => d.slashed = false).foldlM
    (fun s d => s.updateDelegation d.delegatorAddress d.nodeAddress d.amount d.network)
    { s with caches := fun network => if network ∈ s.networks then some {} else none }

end StakingState

/-! ## steps -/

inductive DelegatedStakingLog
  | delegatorStaked (delegatorAddress nodeAddress : Text) (amount : Int)
  | delegatorUnstaked (delegatorAddress nodeAddress : Text)
  | nodeDelegatorShareChanged (nodeAddress : Text) (share : Nat)
  | delegatorSlashed (delegatorAddress nodeAddress : Text) (amount : Int) (txHash : Text)
      (blockNumber logIndex : Nat)
  deriving DecidableEq

def DelegatedStakingLog.handle (log : DelegatedStakingLog) (network : Text) (s : StakingState) :
    StakingResult :=
  match log with
  | delegatorStaked d n amount => s.updateDelegatedStaking d n amount network
  | delegatorUnstaked d n => s.unstakeDelegatedStaking d n network
  | nodeDelegatorShareChanged n share => s.changeNodeDelegatorShare n share network
  | delegatorSlashed d n amount txHash blockNumber logIndex =>
    s.slashDelegatedStaking d n amount txHash blockNumber logIndex network

inductive StakingStep
  | log (network : Text) (log : DelegatedStakingLog)
  | join (address network : Text) (stakeAmount : Int) (chain : ChainInfo)
  | quit (address : Text)
  | startup

/-- only the networks of the configuration are scanned for logs. -/
def StakingStep.result (step : StakingStep) (s : StakingState) : StakingResult :=
  match step with
  | log network l => if network ∈ s.networks then l.handle network s else .ok s
  | join address network stakeAmount chain => s.setNodeStatusJoin address network stakeAmount chain
  | quit address => s.setNodeStatusQuit address
  | startup => s.initDelegationCaches

/-- a refused operation changes nothing. -/
def StakingStep.exec (step : StakingStep) (s : StakingState) : StakingState :=
  match step.result s with
  | .ok s' => s'
  | .error _ => s

/-- the logs of a block, handler by handler; an error ends the pass, and what is committed stays. -/
def processDelegatedStakingReceiptLogs (network : Text) :
    List DelegatedStakingLog → StakingState → StakingState × Bool
  | [], s => (s, true)
  | l :: logs, s =>
    match l.handle network s with
    | .ok s' => processDelegatedStakingReceiptLogs network logs s'
    | .error _ => (s, false)

end CrynuxRelay

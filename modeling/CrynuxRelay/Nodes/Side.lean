import CrynuxRelay.Model.NodeOps
import CrynuxRelay.Nodes.Effects

/-!
# What the node functions leave alone

The functions that change nodes write to no task, no event and no account, and they give no node a
task: a node can only lose its current task.

* `NodeOnly`, `SameCache`, `NodeSide` -- the preorder on databases and memories that says so;
* `nodeSide_nodeOp` and the lemmas below it -- the functions that keep it.
-/

namespace CrynuxRelay

open Table Tx Kept

variable {db : Db} {env : Env} {node : Node} {w : World} {r : World → World → Prop}
  {files : List NodeModelFileRow}

/-! ## the relation -/

def currentOf (db : Db) (a : Text) : Option Text :=
  (db.nodes.get a).bind (·.currentTaskIDCommitment)

def VestingRecord.unslashed (v : VestingRecord) : VestingRecord := { v with slashed := false }

def SameVestings (t t' : Table VestingRecord.id) : Prop :=
  ∀ id, (t'.get id).map VestingRecord.unslashed = (t.get id).map VestingRecord.unslashed

/-- only nodes, their models and counts and the flags of vestings differ, and nodes lose tasks only. -/
structure NodeOnly (db db' : Db) : Prop where
  tasks : db'.tasks = db.tasks
  events : db'.relayAccountEvents = db.relayAccountEvents
  accounts : db'.relayAccounts = db.relayAccounts
  withdrawRecords : db'.withdrawRecords = db.withdrawRecords
  depositRecords : db'.depositRecords = db.depositRecords
  vestingRecords : SameVestings db.vestingRecords db'.vestingRecords
  current : ∀ a c, currentOf db' a = some c → currentOf db a = some c

def SameCache (m m' : Mem) : Prop := m'.relayAccountCache = m.relayAccountCache

instance : IsPreorder Db NodeOnly where
  refl := fun _ => ⟨rfl, rfl, rfl, rfl, rfl, fun _ => rfl, fun _ _ h => h⟩
  trans := fun _ _ _ h h' =>
    ⟨h'.tasks.trans h.tasks, h'.events.trans h.events, h'.accounts.trans h.accounts,
      h'.withdrawRecords.trans h.withdrawRecords, h'.depositRecords.trans h.depositRecords,
      fun id => (h'.vestingRecords id).trans (h.vestingRecords id),
      fun a c hc => h.current a c (h'.current a c hc)⟩

instance : IsPreorder Mem SameCache where
  refl := fun _ => rfl
  trans := fun _ _ _ h h' => Eq.trans h' h

/-- `NodeOnly` of the databases, and the same cached balances. -/
abbrev NodeSide : World → World → Prop := Both NodeOnly SameCache

lemma nodeOnly_of_eq {db' : Db} (ht : db'.tasks = db.tasks)
    (he : db'.relayAccountEvents = db.relayAccountEvents) (ha : db'.relayAccounts = db.relayAccounts)
    (hw : db'.withdrawRecords = db.withdrawRecords) (hd : db'.depositRecords = db.depositRecords)
    (hv : db'.vestingRecords = db.vestingRecords) (hn : db'.nodes = db.nodes) : NodeOnly db db' := by
  refine ⟨ht, he, ha, hw, hd, ?_, ?_⟩
  · intro id
    rw [hv]
  · intro a c h
    rwa [currentOf, hn] at h

lemma currentOf_modify (db : Db) (k : Text) (f : Node → Node) (hf : ∀ n, (f n).address = n.address)
    (a : Text) : currentOf { db with nodes := db.nodes.modify k f hf } a =
      if a = k then (db.nodes.get k).bind fun n => (f n).currentTaskIDCommitment
      else currentOf db a := by
  show ((db.nodes.modify k f hf).get a).bind _ = _
  rw [get_modify]
  split
  · cases db.nodes.get k with
    | none => rfl
    | some n => rfl
  · rfl

lemma nodeOnly_modify (db : Db) (k : Text) (f : Node → Node) (hf : ∀ n, (f n).address = n.address)
    (hc : ∀ n, (f n).currentTaskIDCommitment = n.currentTaskIDCommitment ∨
      (f n).currentTaskIDCommitment = none) :
    NodeOnly db { db with nodes := db.nodes.modify k f hf } := by
  refine ⟨rfl, rfl, rfl, rfl, rfl, fun _ => rfl, ?_⟩
  intro a c h
  rw [currentOf_modify] at h
  split at h
  · next hak =>
    subst hak
    rw [currentOf]
    cases hn : db.nodes.get a with
    | none =>
      rw [hn] at h
      cases h
    | some n =>
      rw [hn] at h
      have h' : (f n).currentTaskIDCommitment = some c := h
      rcases hc n with hc | hc
      · exact hc.symm.trans h'
      · rw [hc] at h'
        cases h'
  · exact h

/-! ## statements -/

instance {f : Db → Db} [t : SameAt (fun db => (f db).tasks) (·.tasks)]
    [e : SameAt (fun db => (f db).relayAccountEvents) (·.relayAccountEvents)]
    [a : SameAt (fun db => (f db).relayAccounts) (·.relayAccounts)]
    [w : SameAt (fun db => (f db).withdrawRecords) (·.withdrawRecords)]
    [d : SameAt (fun db => (f db).depositRecords) (·.depositRecords)]
    [v : SameAt (fun db => (f db).vestingRecords) (·.vestingRecords)]
    [n : SameAt (fun db => (f db).nodes) (·.nodes)] : Kept NodeSide (Tx.modifyDb f : Relay Unit) :=
  ⟨keeps_modifyDb fun db => nodeOnly_of_eq (t.eq db) (e.eq db) (a.eq db) (w.eq db) (d.eq db) (v.eq db) (n.eq db)⟩

instance {f : Mem → Mem} [h : SameAt (fun m => (f m).relayAccountCache) (·.relayAccountCache)] :
    Kept NodeSide (Tx.modifyMem f : Relay Unit) := ⟨keeps_modifyMem h.eq⟩

lemma nodeSide_updateStatus {f : Node → Node} {hf : ∀ n, (f n).address = n.address}
    (hc : ∀ n, (f n).currentTaskIDCommitment = n.currentTaskIDCommitment ∨
      (f n).currentTaskIDCommitment = none) : Kept NodeSide (node.updateStatus f hf) := by
  have : Kept NodeSide (Tx.modifyDb fun db : Db =>
      { db with nodes := db.nodes.modify node.address f hf } : Relay Unit) :=
    ⟨keeps_modifyDb fun db => nodeOnly_modify db node.address f hf hc⟩
  unfold Node.updateStatus
  infer_instance

section
variable {f : Node → Node} {hf : ∀ n, (f n).address = n.address}

instance [h : SameAt (fun n => (f n).currentTaskIDCommitment) (·.currentTaskIDCommitment)] :
    Kept NodeSide (node.updateStatus f hf) := nodeSide_updateStatus fun n => .inl (h.eq n)

instance [h : SameAt (fun n => (f n).currentTaskIDCommitment) fun _ => none] :
    Kept NodeSide (node.updateStatus f hf) := nodeSide_updateStatus fun n => .inr (h.eq n)

instance [h : SameAt (fun n => (f n).currentTaskIDCommitment) (·.currentTaskIDCommitment)] :
    Kept NodeSide (node.update f hf) :=
  ⟨keeps_modifyDb fun db => nodeOnly_modify db node.address f hf fun n => .inl (h.eq n)⟩

end

instance : Kept NodeSide (decrementNodeNameCountTx node) := by
  refine ⟨keeps_bind keeps fun db => ?_⟩
  split
  · exact keeps
  · exact keeps

instance {name : NodeName} {delta : Int} : Kept NodeSide (applyNodeNameCountDeltaToCache name delta) := by
  refine ⟨keeps_modifyMem fun m => ?_⟩
  split
  · rfl
  · rfl

/-! ## scores and health -/

instance {qos : Nat} : Kept NodeSide (updateNodeQosScore env node qos) := by
  unfold updateNodeQosScore getNodeTaskQosScore
  infer_instance

instance : Kept NodeSide (applyHealthPenalty env node) := by
  unfold applyHealthPenalty
  infer_instance

instance : Kept NodeSide (applyHealthBoost env node) := by
  unfold applyHealthBoost
  infer_instance

/-! ## quitting -/

lemma sameVestings_slash (address : Text) (t : Table VestingRecord.id) :
    SameVestings t (slashVestings address t) := by
  intro id
  rw [slashVestings, get_mapRows, Option.map_map]
  congr 1
  funext v
  simp only [Function.comp_apply]
  split
  · rfl
  · rfl

instance {slashed : Bool} : Kept NodeSide (setNodeStatusQuitTx env node slashed) := by
  have : Kept NodeSide (slashNodeVestingsTx node.address) :=
    ⟨keeps_modifyDb fun db => ⟨rfl, rfl, rfl, rfl, rfl, sameVestings_slash node.address db.vestingRecords,
      fun _ _ h => h⟩⟩
  dsimp only [setNodeStatusQuitTx, clearNodeModelState, getStakingStatus]
  exact ⟨keeps_bind keeps fun _ => keeps_bind keeps fun _ => keeps⟩

instance {b : Bool} : Kept NodeSide (applyNodeQuitPostCommit node b) := by
  unfold applyNodeQuitPostCommit
  infer_instance

instance {slashed : Bool} : Kept NodeSide (setNodeStatusQuit env node slashed) := by
  unfold setNodeStatusQuit
  infer_instance

/-! ## leaving a task -/

instance : Kept NodeSide (nodeFinishTask env node) := by
  refine ⟨keeps_require_bind <| keeps_bind keeps fun c => keeps_bind keeps fun m => ?_⟩
  split
  · exact keeps
  · split
    all_goals exact keeps

lemma bind_current_modify (nodes : Table Node.address) (k : Text) (f : Node → Node)
    (hf : ∀ n, (f n).address = n.address) (hc : ∀ n, (f n).currentTaskIDCommitment = none) :
    ((nodes.modify k f hf).get k).bind (·.currentTaskIDCommitment) = none := by
  rw [get_modify_self]
  cases nodes.get k with
  | none => rfl
  | some n => exact hc n

theorem currentOf_nodeFinishTask {w' : World} {u : Unit}
    (h : Ok (nodeFinishTask env node) w u w') : currentOf w'.db node.address = none := by
  obtain ⟨-, -, ⟨counts, -, hdb⟩, -⟩ := nodeFinishTask_ok h
  rw [hdb, finishDb]
  split
  all_goals
    exact bind_current_modify w.db.nodes node.address _ (by intro _; rfl) (by intro _; rfl)

/-! ## requests of nodes -/

instance [Stable r] {body : Node → Relay Unit} [h : ∀ node, Kept r (body node)] {n : Nat} :
    Kept r (retryNode body n node) := by
  induction n generalizing node with
  | zero => exact ⟨keeps_fail _⟩
  | succ n ih =>
    refine ⟨keeps_bind keeps fun r => ?_⟩
    dsimp only [Node.syncStatus]
    split
    all_goals exact keeps

instance [Stable r] {a : Text} : Kept r (requestedNode a) := by
  unfold requestedNode
  infer_instance

instance : Kept NodeSide (pauseOnce node) := by
  unfold pauseOnce
  split
  all_goals infer_instance

instance : Kept NodeSide (resumeOnce node) := by
  unfold resumeOnce incrementNodeNameCountTx
  infer_instance

instance : Kept NodeSide (quitOnce env node) := by
  unfold quitOnce
  split
  all_goals infer_instance

lemma nodeOnly_saveRow (h : node.currentTaskIDCommitment = currentOf db node.address) :
    NodeOnly db { db with nodes := saveRow db.nodes node } := by
  refine ⟨rfl, rfl, rfl, rfl, rfl, fun _ => rfl, ?_⟩
  intro a c hc
  have hc' : ((saveRow db.nodes node).get a).bind (·.currentTaskIDCommitment) = some c := hc
  cases hn : db.nodes.get node.address with
  | none =>
    rw [saveRow, hn, get_insert _ _ _ hn] at hc'
    split at hc'
    · next ha =>
      rwa [ha, ← h]
    · exact hc'
  | some n =>
    rw [saveRow, hn, get_modify, hn] at hc'
    split at hc'
    · next ha =>
      rwa [ha, ← h]
    · exact hc'

lemma setNodeStatusJoin_side (h : node.currentTaskIDCommitment = currentOf w.db node.address) :
    NodeSide w (after (setNodeStatusJoin env node files) w) := by
  unfold setNodeStatusJoin
  split
  · exact Both.refl w
  · refine Stable.after_bind (Stable.after_transaction (Stable.after_bind ?_ fun _ => ?_))
      fun _ => keeps
    · have hjoined : (node.joined env).currentTaskIDCommitment =
          currentOf w.db (node.joined env).address := h
      exact ⟨nodeOnly_saveRow hjoined, rfl⟩
    · unfold replaceNodeModelFiles incrementNodeNameCountTx
      exact keeps

lemma joinAdjusted_side {isNew : Bool} {stake : Int}
    (h : node.currentTaskIDCommitment = currentOf w.db node.address) : NodeSide w (after (do
      let node ← adjustNodeQosForJoin env node isNew
      setNodeStatusJoin env { node with stakeAmount := stake } files) w) := by
  unfold adjustNodeQosForJoin
  split
  · exact setNodeStatusJoin_side h
  · -- the score pool is reset first: the join starts from another memory
    have hreset : NodeSide w (after (resetNodeQosScorePool node.address) w) :=
      ⟨refl_of NodeOnly w.db, rfl⟩
    refine hreset.trans (setNodeStatusJoin_side ?_)
    exact h

lemma nodeSide_nodeJoin (env : Env) (input : JoinInput) : Tx.Keeps NodeSide (nodeJoin env input) := by
  intro w
  refine Stable.after_orFail_bind fun v hv => ?_
  show NodeSide w (after (_ >>= _) w)
  refine Stable.after_require_bind fun hq => joinAdjusted_side ?_
  -- the saved node is the row with other capabilities, or a new one without a task
  cases hrow : w.db.nodes.get input.address with
  | none =>
    show none = (w.db.nodes.get input.address).bind _
    rw [hrow]
    rfl
  | some n =>
    show n.currentTaskIDCommitment = (w.db.nodes.get n.address).bind _
    rw [key_of_get hrow, hrow]
    rfl

/-- **no request of a node touches a task, an event or an account.** -/
theorem nodeSide_nodeOp {op : NodeOp} (h : op.isRequest = true) : Tx.Keeps NodeSide op.tx := by
  cases op with
  | join env input => exact nodeSide_nodeJoin env input
  | updateVersion address version =>
    exact keeps_bind keeps fun v => keeps_bind keeps fun _ =>
      keeps_bind (keeps_modifyDb fun db => nodeOnly_modify db address _ (by intro _; rfl)
        (by intro _; exact .inl rfl)) fun _ => keeps
  | syncCapabilities env address c =>
    have (v : Nat × Nat × Nat) : SameAt (fun n => (Node.withCapabilities n c.gpuName c.gpuVram v).currentTaskIDCommitment)
      (·.currentTaskIDCommitment) := ⟨fun _ => rfl⟩
    dsimp only [NodeOp.tx, syncNodeCapabilities, incrementNodeNameCountTx, replaceNodeModelFiles]
    exact keeps_bind keeps fun v => keeps_bind (keeps_transaction <| keeps_bind keeps fun n =>
      keeps_bind keeps fun _ => keeps_bind keeps fun _ => keeps) fun r => keeps
  | pause address | resume address | quit env address =>
    dsimp only [NodeOp.tx, nodePause, nodeResume, nodeQuit, getStakingStatus]
    exact keeps
  | _ => cases h

end CrynuxRelay

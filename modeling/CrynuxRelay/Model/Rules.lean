import CrynuxRelay.Model.State

/-!
# The rules of the statements

When a statement on the task and node tables succeeds or fails, and the state it leaves.

* `TaskCurrent`, `StatusCurrent` -- the status that the caller has read is the status of the row:
  the condition of every conditional update.
-/

namespace CrynuxRelay

open Tx

variable {w w' : World} {e : Err} {f : Node → Node} {u : Unit} {node : Node}
  {r : World → World → Prop} [Stable r] {hf : ∀ n, (f n).address = n.address}

/-! ## tasks -/

lemma ok_getTaskByIDCommitment {c : Text} {t : InferenceTask} :
    Ok (getTaskByIDCommitment c) w t w' ↔ w.db.tasks.get c = some t ∧ w' = w := by
  rw [getTaskByIDCommitment, ok_getDb_bind, ok_orFail]

instance {c : Text} : Kept r (getTaskByIDCommitment c) := by
  unfold getTaskByIDCommitment
  infer_instance

/-- the row of the task exists and has the status that the caller has read. -/
def TaskCurrent (task : InferenceTask) (db : Db) : Prop :=
  ∃ row, db.tasks.get task.taskIDCommitment = some row ∧ row.status = task.status

lemma ok_taskUpdateStatus {task : InferenceTask} {f : InferenceTask → InferenceTask}
    {hf : ∀ t, (f t).taskIDCommitment = t.taskIDCommitment} :
    Ok (task.updateStatus f hf) w u w' ↔ TaskCurrent task w.db ∧
      w' = ⟨{ w.db with tasks := w.db.tasks.modify task.taskIDCommitment f hf }, w.mem⟩ := by
  rw [InferenceTask.updateStatus, ok_getDb_bind, ok_orFail_bind]
  constructor
  · rintro ⟨row, hrow, h⟩
    rw [ok_require_bind, ok_modifyDb] at h
    exact ⟨⟨row, hrow, h.1⟩, h.2⟩
  · rintro ⟨⟨row, hrow, hst⟩, rfl⟩
    refine ⟨row, hrow, ?_⟩
    rw [ok_require_bind, ok_modifyDb]
    exact ⟨hst, rfl⟩

/-! ## nodes -/

lemma ok_getNodeByAddress {a : Text} {n : Node} :
    Ok (getNodeByAddress a) w n w' ↔ w.db.nodes.get a = some n ∧ w' = w := by
  rw [getNodeByAddress, ok_getDb_bind, ok_orFail]

instance {a : Text} : Kept r (getNodeByAddress a) := by
  unfold getNodeByAddress
  infer_instance

/-- the row of the node exists and has the status that the caller has read. -/
def StatusCurrent (node : Node) (db : Db) : Prop :=
  ∃ row, db.nodes.get node.address = some row ∧ row.status = node.status

lemma ok_updateStatus :
    Ok (node.updateStatus f hf) w u w' ↔ StatusCurrent node w.db ∧
      w' = ⟨{ w.db with nodes := w.db.nodes.modify node.address f hf }, w.mem⟩ := by
  rw [Node.updateStatus, ok_getDb_bind, ok_orFail_bind]
  constructor
  · rintro ⟨row, hrow, h⟩
    rw [ok_require_bind, ok_modifyDb] at h
    exact ⟨⟨row, hrow, h.1⟩, h.2⟩
  · rintro ⟨⟨row, hrow, hst⟩, rfl⟩
    refine ⟨row, hrow, ?_⟩
    rw [ok_require_bind, ok_modifyDb]
    exact ⟨hst, rfl⟩

lemma fails_updateStatus (h : Fails (node.updateStatus f hf) w e w') : ¬ StatusCurrent node w.db ∧
    e = .nodeStatusChanged ∧ w' = w := by
  rw [Node.updateStatus, fails_getDb_bind, fails_orFail_bind] at h
  rcases h with ⟨hnone, he, hw⟩ | ⟨row, hrow, h⟩
  · refine ⟨?_, he, hw⟩
    rintro ⟨row, hrow, -⟩
    rw [hnone] at hrow
    cases hrow
  · rw [fails_require_bind] at h
    rcases h with ⟨hst, he, hw⟩ | ⟨-, h⟩
    · refine ⟨?_, he, hw⟩
      rintro ⟨row', hrow', hst'⟩
      rw [hrow] at hrow'
      cases hrow'
      exact hst hst'
    · exact absurd h fails_modifyDb

lemma ok_nodeUpdate : Ok (node.update f hf) w u w' ↔
      w' = ⟨{ w.db with nodes := w.db.nodes.modify node.address f hf }, w.mem⟩ := by
  rw [Node.update, ok_modifyDb]

end CrynuxRelay

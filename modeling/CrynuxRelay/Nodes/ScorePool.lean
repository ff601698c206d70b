import CrynuxRelay.Base.Run
import CrynuxRelay.Model.NodeOps

/-!
# The window of task scores

The writer of a score pool takes fifty for an unset size and the reader takes the size as it is.

* `PoolStep` -- a task score, a join, a restart;
* `exec_bounded` -- no pool is longer than its capacity, one step;
* `kickout_full_iff` -- **a kickout needs a full pool exactly when the size is set**.
-/

namespace CrynuxRelay

open Option

variable {env : Env} {w : World}

inductive PoolStep
  | score (node : Node) (qos : Nat)
  | join (node : Node) (isNewNode : Bool)
  | restart

def PoolStep.exec (env : Env) : PoolStep → World → World
  | .score node qos, w => Tx.after (updateNodeQosScore env node qos) w
  | .join node isNewNode, w => Tx.after (adjustNodeQosForJoin env node isNewNode) w
  | .restart, w => ⟨w.db, {}⟩

def PoolsBounded (env : Env) (w : World) : Prop :=
  ∀ a p, w.mem.nodeQoSScorePool a = some p → p.length ≤ qosPoolSize env

lemma PoolsBounded.length_qosPoolOf_le (h : PoolsBounded env w) (node : Node) :
    (qosPoolOf env w.mem node).length ≤ qosPoolSize env := by
  unfold qosPoolOf
  split
  · next p hp => exact h _ p hp
  · split
    · rw [List.length_replicate]
      omega
    · exact Nat.zero_le _

lemma PoolsBounded.update (h : PoolsBounded env w) {w' : World} {a : Text} {o : Option (List Nat)}
    (hw : w'.mem.nodeQoSScorePool = Function.update w.mem.nodeQoSScorePool a o)
    (ho : ∀ p, o = some p → p.length ≤ qosPoolSize env) : PoolsBounded env w' := by
  intro b p hp
  rw [hw, Function.update_apply] at hp
  split at hp
  · exact ho p hp
  · exact h b p hp

lemma updateNodeQosScore_pool (node : Node) (qos : Nat) (w : World) :
    (Tx.after (updateNodeQosScore env node qos) w).mem.nodeQoSScorePool =
      Function.update w.mem.nodeQoSScorePool node.address
        (some (pushQosScore (qosPoolSize env) (qosPoolOf env w.mem node) qos)) := rfl

lemma exec_bounded (i : PoolStep) (h : PoolsBounded env w) : PoolsBounded env (i.exec env w) := by
  cases i with
  | score node qos =>
    refine h.update (updateNodeQosScore_pool node qos w) fun p hp => ?_
    rw [← some.inj hp, pushQosScore]
    have hle := h.length_qosPoolOf_le node
    split
    · simpa using hle
    · omega
  | join node isNewNode =>
    rw [PoolStep.exec, adjustNodeQosForJoin]
    split
    · exact h
    · exact h.update rfl nofun
  | restart => exact fun _ _ hp => nomatch hp

/-- **Kickouts.**  From a start on, through every sequence of scores, joins and restarts: no pool
outgrows its capacity, and only a full pool lets a node be kicked out exactly when the size of the
pool is set. -/
theorem kickout_full_iff (env : Env) (db : Db) :
    (∀ l, PoolsBounded env (run (PoolStep.exec env) l ⟨db, {}⟩)) ∧
    ((∀ l node, shouldPermanentKickout env (run (PoolStep.exec env) l ⟨db, {}⟩).mem node = true →
        ∃ p, (run (PoolStep.exec env) l ⟨db, {}⟩).mem.nodeQoSScorePool node.address = some p ∧
          p.length = qosPoolSize env) ↔ env.scorePoolSize ≠ 0) := by
  have hbound : ∀ l, PoolsBounded env (run (PoolStep.exec env) l ⟨db, {}⟩) := fun l =>
    run_invariant (fun _ i h _ => exec_bounded i h) l _
      (Along.of_forall (p := fun _ _ => True) (fun _ _ => trivial) l _) fun _ _ hp => nomatch hp
  refine ⟨hbound, fun h hzero => ?_, fun hsize l node hk => ?_⟩
  · -- one score of a node without a persisted score is a pool of one
    obtain ⟨p, hp, hlen⟩ := h [.score { address := [], qosScore := 0 } 0]
      { address := [], qosScore := env.kickoutThreshold - 1 } (by
        refine decide_eq_true ⟨hzero.trans_le (Nat.zero_le _), ?_⟩
        show env.kickoutThreshold - 1 < env.kickoutThreshold
        grind)
    have hone : [0] = p := by
      refine some.inj (Eq.trans ?_ hp)
      simp [run, PoolStep.exec, updateNodeQosScore_pool, pushQosScore, qosPoolOf, qosPoolSize, hzero]
    rw [← hone, qosPoolSize, if_pos hzero] at hlen
    cases hlen
  · unfold shouldPermanentKickout at hk
    split at hk
    · cases hk
    · next p hp =>
      have hlen := (of_decide_eq_true hk).1
      have hle := hbound l _ p hp
      refine ⟨p, hp, ?_⟩
      rw [qosPoolSize, if_neg hsize] at hle ⊢
      omega

def unsetPoolSize : Env := { kickoutThreshold := 1 }

/-- the first score of a new node kicks it out of a pool of fifty. -/
theorem kickout_after_one_score :
    let node : Node := { address := [], qosScore := 0 }
    let w := run (PoolStep.exec unsetPoolSize) [.score node 0] ⟨{}, {}⟩
    shouldPermanentKickout unsetPoolSize w.mem node = true ∧
      w.mem.nodeQoSScorePool node.address = some [0] ∧ qosPoolSize unsetPoolSize = 50 := by
  decide +kernel

end CrynuxRelay

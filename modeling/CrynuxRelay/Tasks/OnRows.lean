import CrynuxRelay.Model.Matching
import CrynuxRelay.Tasks.Steps

/-!
# What does not touch the rows of nodes and tasks

The functions on accounts, counts and funds, for every relation that is about the rows of nodes and tasks only.

* `OnRows` -- such a relation;
* the instances -- the functions that keep every one of them; `AccountSteps` gives those on accounts.
-/

namespace CrynuxRelay

open Tx

/-- a preorder on states that depends on the rows of nodes and tasks only. -/
class OnRows (r : World → World → Prop) : Prop extends Stable r where
  of_eq : ∀ w w', w'.db.nodes = w.db.nodes → w'.db.tasks = w.db.tasks → r w w'

variable {r : World → World → Prop} [OnRows r]

/-! ## statements -/

instance {f : Db → Db} [n : SameAt (fun db => (f db).nodes) (·.nodes)] [t : SameAt (fun db => (f db).tasks) (·.tasks)] :
    Kept r (Tx.modifyDb f : Relay Unit) := ⟨fun w => OnRows.of_eq _ _ (n.eq w.db) (t.eq w.db)⟩

instance {f : Mem → Mem} : Kept r (Tx.modifyMem f : Relay Unit) := ⟨fun _ => OnRows.of_eq _ _ rfl rfl⟩

/-! ## accounts and counts -/

instance : AccountSteps r where
  load := fun a => by
    refine keeps_bind Kept.keeps fun m => ?_
    split
    all_goals exact Kept.keeps
  insert := fun f => Kept.keeps

instance {f : CommitFunc} : Kept r (runCommitFunc f) := by
  unfold runCommitFunc addToCache
  infer_instance

instance {node : Node} : Kept r (decrementNodeNameCountTx node) := by
  refine ⟨keeps_bind Kept.keeps fun db => ?_⟩
  split
  all_goals exact Kept.keeps

instance {name : NodeName} {delta : Int} : Kept r (applyNodeNameCountDeltaToCache name delta) := by
  unfold applyNodeNameCountDeltaToCache
  infer_instance

instance {node : Node} {b : Bool} : Kept r (applyNodeQuitPostCommit node b) := by
  unfold applyNodeQuitPostCommit
  infer_instance

/-! ## funds -/

end CrynuxRelay

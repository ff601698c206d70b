import CrynuxRelay.Chain.Retries
import CrynuxRelay.Model.SlashJobs

/-!
# Delegated slash jobs

* `ChainClosed`, `RetryInv.closed_exec` -- attempts that are all closed stay closed;
* `SlashOk` -- all batches of a job but the last are closed, and a job that has ended is completed;
* `commitSlashBatch_cases`, `SlashOk.complete`, `SlashOk.batch` -- what a call commits;
* `slash_jobs` -- a job has one open batch at most, and none after its end, if calls for one job do not
  overlap and claims of the services are fresh;
* `slash_jobs_broken` -- two calls that overlap.
-/

namespace CrynuxRelay

open List Option Table SlashBatchJob

variable {job : SlashBatchJob} {db : SlashDb} {jobs : SlashJobTable}

/-! ## attempts that are all closed -/

def ChainClosed (txs : TransactionTable) (o : Nat) : Prop :=
  ∀ id r, txs.get id = some r → r.root = o → r.isOpen = false

/-- **attempts that are all closed stay closed**: only an open row is written or retried. -/
theorem RetryInv.closed_exec {s : ChainState} (h : RetryInv s) (cfg : ChainConfig) (op : ChainOp) {o : Nat}
    {ro : BlockchainTransaction} (hro : s.txs.get o = some ro) (hclosed : ChainClosed s.txs o) :
    ChainClosed (op.exec cfg s).txs o := by
  have htable := exec_tableStep cfg s op
  intro id r' hr' hroot
  rcases htable.created hr' with ⟨r, hr, hsame⟩ | hnew
  · have hr_closed := hclosed id r hr (hsame.root ▸ hroot)
    rcases htable.row hr with hstay | hw | hw
    · rw [hstay] at hr'
      cases hr'
      exact hr_closed
    · obtain ⟨tx, hheld, rfl⟩ := hw.held
      obtain ⟨q, hq, hp⟩ := h.held.pending tx hheld
      rw [hr] at hq
      cases hq
      rw [isOpen_of_pending hp] at hr_closed
      cases hr_closed
    · obtain ⟨tx, hheld, rfl⟩ := hw.held
      obtain ⟨q, hq, hp⟩ := h.held.sent tx hheld
      rw [hr] at hq
      cases hq
      rw [isOpen_of_sent hp] at hr_closed
      cases hr_closed
  · rcases hnew.root with ⟨hid, hnone⟩ | ⟨i, tx, hi, htx⟩
    · rw [← hid, hroot, hro] at hnone
      cases hnone
    · -- the worker's copy is of an open row of the same chain
      have hmem := mem_of_getElem? hi
      obtain ⟨q, hq, hsame⟩ := h.confirmCopy tx (.worker false hmem)
      obtain ⟨q', hq', hp⟩ := h.held.sent tx (.worker hmem)
      rw [hq] at hq'
      cases hq'
      have hq_closed := hclosed tx.id q hq (by rw [hsame.root, ← htx, hroot])
      rw [isOpen_of_sent hp] at hq_closed
      cases hq_closed

lemma closed_of_hasOpen_eq_false {txs : TransactionTable} {b : Nat} {r : BlockchainTransaction}
    (hlatest : job.latestBatchTransactionID = some b) (hr : txs.get b = some r)
    (h : hasOpenDelegatedSlashBatchTransaction txs job = false) : ChainClosed txs b := by
  rw [hasOpenDelegatedSlashBatchTransaction, hlatest] at h
  simp only [hr] at h
  split at h
  · cases h
  · next hclosed =>
    intro id v hv hroot
    cases ho : v.retryTransactionID with
    | none =>
      rw [BlockchainTransaction.root, ho, getD_none, key_of_get hv] at hroot
      rw [hroot, hr] at hv
      cases hv
      exact decide_eq_false hclosed
    | some o =>
      rw [BlockchainTransaction.root, ho, getD_some] at hroot
      have hid : r.id = b := key_of_get hr
      have hmem : v ∈ getRetryTransactionsByID txs r.id := by
        refine mem_getRetryTransactionsByID.2 ⟨?_, by rw [ho, hroot, hid]⟩
        rw [show v.id = id from key_of_get hv, hv]
      exact Bool.eq_false_iff.2 fun hopen => any_eq_false.1 h v hmem hopen

/-! ## the invariant -/

structure SlashOk (db : SlashDb) : Prop where
  chain : RetryInv db.chain
  latest : ∀ j job b, db.jobs.get j = some job → job.latestBatchTransactionID = some b →
    ∃ r, db.chain.txs.get b = some r ∧ r.retryTransactionID = none
  batches : ∀ j b, SlashEvent.batch j b ∈ db.log → (∃ r, db.chain.txs.get b = some r) ∧
    ∃ job, db.jobs.get j = some job ∧
      (job.latestBatchTransactionID = some b ∨ ChainClosed db.chain.txs b)
  completed : ∀ j, SlashEvent.completed j ∈ db.log →
    ∃ job, db.jobs.get j = some job ∧ job.status = .completed
  ended : db.log.Pairwise fun e e' => ∀ j b, e = .completed j → e' ≠ .batch j b

lemma SlashOk.chain_exec (h : SlashOk db) (cfg : ChainConfig) (op : ChainOp)
    (hop : op.FreshClaims db.chain) : SlashOk { db with chain := op.exec cfg db.chain } := by
  have hstay := (exec_tableStep cfg db.chain op).rowsStay
  refine ⟨h.chain.exec cfg op hop, fun j job b hjob hb => ?_, fun j b hb => ?_, h.completed, h.ended⟩
  · obtain ⟨r, hr, hnone⟩ := h.latest j job b hjob hb
    obtain ⟨r', hr', hsame, -⟩ := hstay b r hr
    exact ⟨r', hr', hsame.origin.trans hnone⟩
  · obtain ⟨⟨r, hr⟩, job, hjob, hlast⟩ := h.batches j b hb
    obtain ⟨r', hr', -⟩ := hstay b r hr
    exact ⟨⟨r', hr'⟩, job, hjob, hlast.imp id fun hc => h.chain.closed_exec cfg op hr hc⟩

lemma SlashOk.complete (h : SlashOk db) {k : Nat} (hjob : db.jobs.get k = some job) :
    SlashOk { db with
      jobs := db.jobs.modify k SlashBatchJob.complete SlashBatchJob.key_complete
      log := db.log ++ [.completed k] } := by
  -- a job keeps its last batch
  have hget : ∀ j v, db.jobs.get j = some v →
      ∃ v', (db.jobs.modify k SlashBatchJob.complete SlashBatchJob.key_complete).get j = some v' ∧
        v'.latestBatchTransactionID = v.latestBatchTransactionID ∧
        (v.status = .completed → v'.status = .completed) := by
    intro j v hv
    rw [get_modify]
    split
    · next hjk =>
      subst hjk
      exact ⟨v.complete, by rw [hv, map_some], rfl, fun _ => rfl⟩
    · exact ⟨v, hv, rfl, fun hs => hs⟩
  refine ⟨h.chain, fun j v b hv hb => ?_, fun j b hb => ?_, fun j hj => ?_, ?_⟩
  · simp only [get_modify] at hv
    split at hv
    · obtain ⟨w, hw, rfl⟩ := map_eq_some_iff.1 hv
      exact h.latest k w b hw hb
    · exact h.latest j v b hv hb
  · rcases mem_append.1 hb with hb | hb
    · obtain ⟨hr, v, hv, hlast⟩ := h.batches j b hb
      obtain ⟨v', hv', hlatest, -⟩ := hget j v hv
      exact ⟨hr, v', hv', hlast.imp hlatest.trans id⟩
    · cases mem_singleton.1 hb
  · rcases mem_append.1 hj with hj | hj
    · obtain ⟨v, hv, hs⟩ := h.completed j hj
      obtain ⟨v', hv', -, hs'⟩ := hget j v hv
      exact ⟨v', hv', hs' hs⟩
    · cases mem_singleton.1 hj
      exact ⟨job.complete, by simp only [get_modify_self, hjob, map_some], rfl⟩
  · refine pairwise_append.2 ⟨h.ended, pairwise_singleton _ _, fun e he e' he' j b _ => ?_⟩
    rw [mem_singleton.1 he']
    exact nofun

lemma SlashOk.batch (h : SlashOk db) (cfg : ChainConfig) {k : Nat}
    (hjob : db.jobs.get k = some job) (hstatus : job.status ≠ .completed)
    (hclosed : ∀ b, job.latestBatchTransactionID = some b → ChainClosed db.chain.txs b)
    (payload : TransactionPayload) (maxRetries : Nat) : SlashOk
      { chain := (ChainOp.queue payload maxRetries).exec cfg db.chain
        jobs := db.jobs.modify k (process (nextID db.chain.txs)) (key_process _)
        log := db.log ++ [.batch k (nextID db.chain.txs)] } := by
  have hqueued := h.chain_exec cfg (.queue payload maxRetries) trivial
  have hnew : ∃ r, ((ChainOp.queue payload maxRetries).exec cfg db.chain).txs.get (nextID db.chain.txs) =
      some r ∧ r.retryTransactionID = none := by
    refine ⟨_, (get_insert_nextID db.chain.txs rfl _).trans (if_pos rfl), ?_⟩
    rfl
  have hself : (db.jobs.modify k (process (nextID db.chain.txs))
      (key_process _)).get k = some (job.process (nextID db.chain.txs)) := by
    rw [get_modify_self, hjob, map_some]
  have hnotEnded : SlashEvent.completed k ∉ db.log := by
    intro hk
    obtain ⟨v, hv, hs⟩ := h.completed k hk
    rw [hjob] at hv
    cases hv
    exact hstatus hs
  refine ⟨hqueued.chain, fun j v b hv hb => ?_, fun j b hb => ?_, fun j hj => ?_, ?_⟩
  · by_cases hjk : j = k
    · subst hjk
      rw [hself] at hv
      cases hv
      cases hb
      exact hnew
    · simp only [get_modify_ne _ _ _ hjk] at hv
      exact hqueued.latest j v b hv hb
  · rcases mem_append.1 hb with hold | hb
    · obtain ⟨hr, v, hv, hlast⟩ := hqueued.batches j b hold
      refine ⟨hr, ?_⟩
      by_cases hjk : j = k
      · -- the batches before are all closed
        subst hjk
        obtain ⟨⟨r, hr⟩, w, hw, hlast⟩ := h.batches j b hold
        rw [hjob] at hw
        cases hw
        have hb_closed : ChainClosed db.chain.txs b := hlast.elim (hclosed b) id
        exact ⟨_, hself, .inr (h.chain.closed_exec cfg _ hr hb_closed)⟩
      · exact ⟨v, by simp only [get_modify_ne _ _ _ hjk]; exact hv, hlast⟩
    · cases mem_singleton.1 hb
      obtain ⟨r, hr, -⟩ := hnew
      exact ⟨⟨r, hr⟩, _, hself, .inl rfl⟩
  · rcases mem_append.1 hj with hj | hj
    · have hjk : j ≠ k := fun hjk => hnotEnded (hjk ▸ hj)
      obtain ⟨v, hv, hs⟩ := h.completed j hj
      exact ⟨v, by simp only [get_modify_ne _ _ _ hjk]; exact hv, hs⟩
    · cases mem_singleton.1 hj
  · refine pairwise_append.2 ⟨h.ended, pairwise_singleton _ _, fun e he e' he' j b hej => ?_⟩
    rw [mem_singleton.1 he']
    intro heq
    cases heq
    exact hnotEnded (hej ▸ he)

lemma get_nextSlashJobID (jobs : SlashJobTable) : jobs.get (nextSlashJobID jobs) = none := by
  cases h : jobs.get (nextSlashJobID jobs) with
  | none => rfl
  | some job => exact absurd (le_foldr_max (mem_keys_of_get h)) (Nat.not_succ_le_self _)

lemma get_insert_job {v : SlashBatchJob} {j : Nat} (hid : job.id = nextSlashJobID jobs)
    (hv : jobs.get j = some v) : (jobs.insert job).get j = some v := by
  have hfree : jobs.get job.key = none := by
    rw [key, hid, get_nextSlashJobID]
  have hne : j ≠ job.key := by
    rintro rfl
    rw [hfree] at hv
    cases hv
  rw [get_insert _ _ _ hfree, if_neg hne, hv]

lemma SlashOk.createJob (h : SlashOk db) (hid : job.id = nextSlashJobID db.jobs)
    (hlatest : job.latestBatchTransactionID = none) :
    SlashOk { db with jobs := db.jobs.insert job } := by
  have hfree : db.jobs.get job.key = none := by
    rw [key, hid, get_nextSlashJobID]
  refine ⟨h.chain, fun j v b hv hb => ?_, fun j b hb => ?_, fun j hj => ?_, h.ended⟩
  · simp only [get_insert _ _ _ hfree] at hv
    split at hv
    · cases hv
      rw [hlatest] at hb
      cases hb
    · exact h.latest j v b hv hb
  · obtain ⟨hr, v, hv, hlast⟩ := h.batches j b hb
    exact ⟨hr, v, get_insert_job hid hv, hlast⟩
  · obtain ⟨v, hv, hs⟩ := h.completed j hj
    exact ⟨v, get_insert_job hid hv, hs⟩

/-! ## calls -/

/-- **what a call commits**: nothing, the end of its job, or a batch, and only if in its snapshot the job
has not ended and the last batch is closed. -/
theorem commitSlashBatch_cases (env : SlashEnv) (c : SlashCall) (u : Unit) (d db : SlashDb) :
    commitSlashBatch env c u d db = db ∨
    ∃ job, d.jobs.get c.job.id = some job ∧ job.status ≠ .completed ∧
      hasOpenDelegatedSlashBatchTransaction d.chain.txs job = false ∧
      (commitSlashBatch env c u d db = { db with
            jobs := db.jobs.modify c.job.id complete key_complete
            log := db.log ++ [.completed c.job.id] } ∨
        ∃ payload maxRetries, commitSlashBatch env c u d db =
          { chain := (ChainOp.queue payload maxRetries).exec env.chain db.chain
            jobs := db.jobs.modify c.job.id (process (nextID db.chain.txs))
              (key_process _)
            log := db.log ++ [.batch c.job.id (nextID db.chain.txs)] }) := by
  rw [commitSlashBatch]
  split
  · next network job hnet hjob =>
    split
    · exact .inl rfl
    split
    · exact .inl rfl
    next hstatus =>
    split
    · exact .inl rfl
    next hopen =>
    have hclosed := Bool.eq_false_iff.2 hopen
    split
    · exact .inr ⟨job, hjob, hstatus, hclosed, .inl rfl⟩
    · split
      · exact .inl rfl
      · next payload maxRetries _ => exact .inr ⟨job, hjob, hstatus, hclosed, .inr ⟨payload, maxRetries, rfl⟩⟩
  · exact .inl rfl

def SharesJob (c c' : SlashCall) : Prop := c.job.id = c'.job.id

/-- the job of a call is as in its snapshot, and its last batch is still closed if it was. -/
structure JobHolds (c : SlashCall) (d db : SlashDb) : Prop where
  job : ∀ job, d.jobs.get c.job.id = some job → db.jobs.get c.job.id = some job
  closed : ∀ job b, d.jobs.get c.job.id = some job → job.latestBatchTransactionID = some b →
    ChainClosed d.chain.txs b → ChainClosed db.chain.txs b

def SlashOther.Fresh (db : SlashDb) : SlashOther → Prop
  | .chain op => op.FreshClaims db.chain
  | .createJob _ _ => True

lemma JobHolds.chain_exec {c : SlashCall} {d : SlashDb} (h : JobHolds c d db) (hdb : SlashOk db)
    (cfg : ChainConfig) (op : ChainOp) {log : List SlashEvent}
    (hjobs : jobs.get c.job.id = db.jobs.get c.job.id) :
    JobHolds c d { chain := op.exec cfg db.chain, jobs, log } := by
  refine ⟨fun job hjob => hjobs.trans (h.job job hjob), fun job b hjob hb hclosed => ?_⟩
  obtain ⟨r, hr, -⟩ := hdb.latest c.job.id job b (h.job job hjob) hb
  exact hdb.chain.closed_exec cfg op hr (h.closed job b hjob hb hclosed)

/-- **a call that is alone with its job** keeps the invariant. -/
theorem serial_slashBatch (env : SlashEnv) :
    Snapshot.SerialOn (commitSlashBatch env) (SlashOther.exec env) SharesJob JobHolds SlashOk
      SlashOther.Fresh where
  symm := fun c c' h => Eq.symm h
  refl := fun c d _ => ⟨fun job h => h, fun job b _ _ h => h⟩
  keep_write := fun c c' u d d' db hshare hdb h => by
    have hne : c'.job.id ≠ c.job.id := fun he => hshare he.symm
    rcases commitSlashBatch_cases env c u d db with he | ⟨job, -, -, -, he | ⟨payload, maxRetries, he⟩⟩
    · rwa [he]
    · rw [he]
      refine ⟨fun v hv => ?_, h.closed⟩
      rw [get_modify_ne _ _ _ hne]
      exact h.job v hv
    · rw [he]
      exact h.chain_exec hdb env.chain _ (get_modify_ne _ _ _ hne)
  keep_step := fun c e d db hdb hfresh h => by
    cases e with
    | chain op => exact h.chain_exec hdb env.chain op rfl
    | createJob nodeAddress network =>
      exact ⟨fun job hjob => get_insert_job rfl (h.job job hjob), h.closed⟩
  holds_write := fun c u d db hd h hdb => by
    rcases commitSlashBatch_cases env c u d db with he | ⟨job, hjob, hstatus, hopen, hwrite⟩
    · rwa [he]
    · have hcurrent := h.job job hjob
      rcases hwrite with he | ⟨payload, maxRetries, he⟩
      · rw [he]
        exact hdb.complete hcurrent
      · rw [he]
        refine hdb.batch env.chain hcurrent hstatus (fun b hb => ?_) payload maxRetries
        obtain ⟨r, hr, hnone⟩ := hd.latest c.job.id job b hjob hb
        exact h.closed job b hjob hb (closed_of_hasOpen_eq_false hb hr hopen)
  holds_step := fun e db hdb hfresh => by
    cases e with
    | chain op => exact hdb.chain_exec env.chain op hfresh
    | createJob nodeAddress network => exact hdb.createJob rfl rfl

/-! ## jobs -/

/-- what a job is for: its batches, with their retries, are open one at a time; and a job that was completed
stays completed, with no batch after that. -/
structure SlashDiscipline (db : SlashDb) : Prop where
  open_once : ∀ j, (db.chain.txs.rows.filter fun r =>
    SlashEvent.batch j r.root ∈ db.log ∧ r.isOpen = true).length ≤ 1
  stays : ∀ j, SlashEvent.completed j ∈ db.log → ∃ job, db.jobs.get j = some job ∧ job.status = .completed
  ended : db.log.Pairwise fun e e' => ∀ j b, e = .completed j → e' ≠ .batch j b

lemma SlashOk.discipline (h : SlashOk db) : SlashDiscipline db := by
  refine ⟨fun j => ?_, h.completed, h.ended⟩
  -- an open row is of the last batch of its job
  have hlast : ∀ r, db.chain.txs.get r.id = some r → SlashEvent.batch j r.root ∈ db.log → r.isOpen = true →
      ∃ job, db.jobs.get j = some job ∧ job.latestBatchTransactionID = some r.root := by
    intro r hr hb ho
    obtain ⟨-, job, hjob, hlatest | hclosed⟩ := h.batches j r.root hb
    · exact ⟨job, hjob, hlatest⟩
    · rw [hclosed r.id r hr rfl] at ho
      cases ho
  refine filter_rows_le_one _ _ fun r r' hr hr' hp hp' => ?_
  obtain ⟨hb, ho⟩ := of_decide_eq_true hp
  obtain ⟨hb', ho'⟩ := of_decide_eq_true hp'
  obtain ⟨job, hjob, hlatest⟩ := hlast r hr hb ho
  obtain ⟨job', hjob', hlatest'⟩ := hlast r' hr' hb' ho'
  rw [hjob] at hjob'
  cases hjob'
  exact h.chain.chains.open_unique hr hr' (some.inj (hlatest.symm.trans hlatest')) ho ho'

lemma slashOk_init : SlashOk { chain := { txs := Table.empty }, jobs := Table.empty } where
  chain := retryInv_init
  latest := fun j job b h => by simp at h
  batches := fun j b h => absurd h not_mem_nil
  completed := nofun
  ended := List.Pairwise.nil

def emptySlashStore : Snapshot.Store SlashDb SlashCall :=
  ⟨{ chain := { txs := Table.empty }, jobs := Table.empty }, []⟩

/-- **every job has one open batch at most, and none after its end**, in every run in which the transactions
of calls for one job do not overlap and the services claim fresh copies. -/
theorem slash_jobs (env : SlashEnv) (ops : List SlashOp) (h : Along (SlashOp.exec env)
      (fun s op => Snapshot.Op.Alone SharesJob s op ∧ Snapshot.Op.Fits SlashOther.Fresh s op) ops
      emptySlashStore) : SlashDiscipline (run (SlashOp.exec env) ops emptySlashStore).db :=
  ((serial_slashBatch env).run _ slashOk_init ops h).discipline

/-! ## two calls that overlap -/

def slashEnv : SlashEnv where
  chain := chainConfig
  blockchains := fun _ =>
    some { delegatedStakingSlashBatchSize := 2, accountAddress := ['r'], delegatedStaking := ['c'],
           maxRetries := 1 }
  pack := fun _ _ => some ['x']

def slashCall (delegators : List Text) : SlashCall where
  job := { id := 1, nodeAddress := ['a'], network := ['n'] }
  delegatorAddresses := delegators

def apartSlashRun (page page' : List Text) : List SlashOp :=
  [.other (.createJob ['a'] ['n']), .call (slashCall page), .read 0, .commit 0 (), .call (slashCall page'),
    .read 0, .commit 0 ()]

/-- the second call takes its snapshot before the first commits. -/
def overlapSlashRun (page page' : List Text) : List SlashOp :=
  [.other (.createJob ['a'] ['n']), .call (slashCall page), .call (slashCall page'), .read 0, .read 1,
    .commit 0 (), .commit 0 ()]

theorem slash_jobs_at_apartSlashRun :
    SlashDiscipline (run (SlashOp.exec slashEnv) (apartSlashRun [['d']] [['d']]) emptySlashStore).db := by
  refine slash_jobs slashEnv _ ⟨⟨trivial, trivial⟩, ⟨trivial, trivial⟩, ⟨fun x hx y hy => ?_, trivial⟩,
    ⟨trivial, trivial⟩, ⟨trivial, trivial⟩, ⟨fun x hx y hy => ?_, trivial⟩, ⟨trivial, trivial⟩, trivial⟩
  all_goals exact absurd hy not_mem_nil

lemma overlapSlashRun_status :
    ((run (SlashOp.exec slashEnv) (overlapSlashRun [] [['d']]) emptySlashStore).db.jobs.get 1).map (·.status) =
      some .processing := by
  decide +kernel

/-- **two calls that overlap** both make a batch; and a call that overlaps with the end of the job makes it
process a batch again. -/
theorem slash_jobs_broken :
    ¬ SlashDiscipline (run (SlashOp.exec slashEnv) (overlapSlashRun [['d']] [['d']]) emptySlashStore).db ∧
    ¬ SlashDiscipline (run (SlashOp.exec slashEnv) (overlapSlashRun [] [['d']]) emptySlashStore).db := by
  refine ⟨fun h => ?_, fun h => ?_⟩
  · have hone := h.open_once 1
    exact absurd hone (by decide)
  · have hmem : SlashEvent.completed 1 ∈
        (run (SlashOp.exec slashEnv) (overlapSlashRun [] [['d']]) emptySlashStore).db.log := by
      exact mem_cons_self
    obtain ⟨job, hjob, hstatus⟩ := h.stays 1 hmem
    have hprocessing := overlapSlashRun_status
    rw [hjob, map_some, hstatus] at hprocessing
    cases hprocessing

end CrynuxRelay

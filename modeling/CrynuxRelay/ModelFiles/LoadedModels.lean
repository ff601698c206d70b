import CrynuxRelay.Base.Run
import CrynuxRelay.Base.Totals
import CrynuxRelay.Model.ModelFiles
import Mathlib.Order.Lattice.Nat

/-!
# Loaded models

The relay remembers the least video memory that a model has been loaded with.  Executions are recorded in
memory, and the flush of every hour writes them to the table.

* `record`, `upsertLoadedModel`, `LoadedStep` -- the pending models, the batch of a flush, the table;
* `minimum` -- the least value of a key in these three places; `exec_minimum` -- a step moves it by the
  value that it records;
* `minimum_never_lost` -- no recorded value is lost, and a successful flush writes them all.
-/

namespace CrynuxRelay

open Table

/-! ## records and batches -/

structure LoadedModelKey where
  requiredModelFilesHash : Hash32
  modelCacheHash : Hash32
  executionDType : Text
  deriving DecidableEq

inductive LoadedModelType
  | sd
  | llm

structure PendingLoadedModel where
  key : LoadedModelKey
  modelID : Text
  modelType : LoadedModelType
  requiredModelFileHashes : List Hash32
  quantizationConfig : Text
  modelCacheConfig : Text
  minVRAM : Nat

structure LoadedModel where
  key : LoadedModelKey
  requiredModelFileHashes : List (Fin 256)
  quantizationConfig : Text
  modelID : Text
  modelCacheConfig : Text
  modelType : LoadedModelType
  minVRAM : Nat

def PendingLoadedModel.row (m : PendingLoadedModel) : LoadedModel :=
  { m with requiredModelFileHashes := encodeHashList m.requiredModelFileHashes }

abbrev PendingModels := Table PendingLoadedModel.key
abbrev LoadedModelTable := Table LoadedModel.key

def record (pending : PendingModels) (model : PendingLoadedModel) : PendingModels :=
  match pending.get model.key with
  | none => pending.put model
  | some current => if model.minVRAM < current.minVRAM then pending.put model else pending

def upsertLoadedModel (rows : LoadedModelTable) (model : LoadedModel) : LoadedModelTable :=
  match rows.get model.key with
  | none => rows.put model
  | some row => rows.put { row with minVRAM := min row.minVRAM model.minVRAM }

/-- the batch that the flush has taken, and whether its upsert has failed. -/
inductive FlushPhase
  | idle
  | taken (batch : PendingModels)
  | failed (batch : PendingModels)

structure LoadedModels where
  pending : PendingModels
  flush : FlushPhase
  rows : LoadedModelTable

/-- a step under the lock of the cache, or on the table; an upsert may report an error for rows that it
has written. -/
inductive LoadedStep
  | record (model : PendingLoadedModel)
  | take
  | upsert (iteration : Iteration PendingLoadedModel)
  | upsertError (iteration : Iteration PendingLoadedModel) (written : Bool)
  | merge (iteration : Iteration PendingLoadedModel)

def upsertLoadedModelMinVRAMs (rows : LoadedModelTable) (models : List PendingLoadedModel) :
    LoadedModelTable :=
  (models.map (·.row)).foldl upsertLoadedModel rows

@[simp] def LoadedStep.exec (i : LoadedStep) (s : LoadedModels) : LoadedModels :=
  match i, s.flush with
  | .record model, _ => { s with pending := CrynuxRelay.record s.pending model }
  | .take, .idle =>
    if s.pending.keys = [] then s else { s with pending := Table.empty, flush := .taken s.pending }
  | .upsert it, .taken batch =>
    { s with flush := .idle, rows := upsertLoadedModelMinVRAMs s.rows (it.order batch.rows) }
  | .upsertError it written, .taken batch =>
    { s with
      flush := .failed batch
      rows := if written then upsertLoadedModelMinVRAMs s.rows (it.order batch.rows) else s.rows }
  | .merge it, .failed batch =>
    { s with pending := (it.order batch.rows).foldl CrynuxRelay.record s.pending, flush := .idle }
  | _, _ => s

/-! ## the least value of a key -/

section least

variable {α : Type} {key : α → LoadedModelKey} (vram : α → Nat) {k : LoadedModelKey}

def leastAt (t : Table key) (k : LoadedModelKey) : WithTop Nat := (t.get k).elim ⊤ fun m => WithTop.some (vram m)

def offer (key : α → LoadedModelKey) (m : α) (k : LoadedModelKey) : WithTop Nat :=
  if k = key m then WithTop.some (vram m) else ⊤

variable {vram} {t : Table key}

lemma le_leastAt {x : WithTop Nat} : x ≤ leastAt vram t k ↔ ∀ m ∈ t.rows, x ≤ offer vram key m k := by
  constructor
  · intro h m hm
    rw [mem_rows] at hm
    by_cases hk : k = key m
    · rw [leastAt, hk, hm] at h
      rw [offer, if_pos hk]
      exact h
    · rw [offer, if_neg hk]
      exact le_top
  · intro h
    rw [leastAt]
    cases hm : t.get k with
    | none => exact le_top
    | some m =>
      have hk := key_of_get hm
      have := h m (mem_rows.2 (hk ▸ hm))
      rwa [offer, if_pos hk.symm] at this

/-- writes of which each moves the least value move it by the least value of a batch. -/
lemma leastAt_foldl {γ : Type} {key' : γ → LoadedModelKey} {vram' : γ → Nat}
    {write : Table key → γ → Table key}
    (hw : ∀ t m, leastAt vram (write t m) k = leastAt vram t k ⊓ offer vram' key' m k) (l : List γ) :
    ∀ {t : Table key} {x}, x ≤ leastAt vram (l.foldl write t) k ↔
      x ≤ leastAt vram t k ∧ ∀ m ∈ l, x ≤ offer vram' key' m k := by
  induction l with
  | nil => simp
  | cons m l ih =>
    intro t x
    rw [List.foldl_cons, ih, hw, le_inf_iff, List.forall_mem_cons, and_assoc]

end least

abbrev PendingLoadedModel.offered (m : PendingLoadedModel) (k : LoadedModelKey) : WithTop Nat :=
  offer PendingLoadedModel.minVRAM PendingLoadedModel.key m k

section writes

variable (k : LoadedModelKey)

@[simp] lemma leastAt_record (pending : PendingModels) (m : PendingLoadedModel) :
    leastAt (·.minVRAM) (record pending m) k = leastAt (·.minVRAM) pending k ⊓ m.offered k := by
  by_cases hk : k = m.key
  · rw [PendingLoadedModel.offered, offer, if_pos hk, hk, record]
    cases hm : pending.get m.key with
    | none => simp [leastAt, get_put, hm]
    | some current =>
      dsimp only
      split
      · next hlt => simp [leastAt, get_put, hm, hlt.le]
      · next hlt => simp [leastAt, hm, not_lt.1 hlt]
  · rw [PendingLoadedModel.offered, offer, if_neg hk, inf_top_eq, record]
    repeat' split
    all_goals simp [leastAt, get_put, hk]

lemma leastAt_upsertLoadedModel (rows : LoadedModelTable) (m : LoadedModel) :
    leastAt (·.minVRAM) (upsertLoadedModel rows m) k =
      leastAt (·.minVRAM) rows k ⊓ offer LoadedModel.minVRAM LoadedModel.key m k := by
  rw [upsertLoadedModel]
  by_cases hk : k = m.key
  · rw [offer, if_pos hk, hk]
    cases hm : rows.get m.key with
    | none => simp [leastAt, get_put, hm]
    | some row =>
      simp only [leastAt, get_put, hm, key_of_get hm, if_true, Option.elim_some]
      exact WithTop.coe_min _ _
  · rw [offer, if_neg hk, inf_top_eq]
    cases hm : rows.get m.key with
    | none => simp [leastAt, get_put, hk]
    | some row => simp [leastAt, get_put, hk, key_of_get hm]

variable (it : Iteration PendingLoadedModel) (batch : PendingModels)

@[simp] lemma leastAt_merge (pending : PendingModels) :
    leastAt (·.minVRAM) ((it.order batch.rows).foldl record pending) k =
      leastAt (·.minVRAM) pending k ⊓ leastAt (·.minVRAM) batch k := by
  refine eq_of_forall_le_iff fun x => ?_
  rw [leastAt_foldl (leastAt_record k), le_inf_iff, le_leastAt (t := batch)]
  simp only [(it.perm batch.rows).mem_iff]

@[simp] lemma leastAt_upsert (rows : LoadedModelTable) :
    leastAt (·.minVRAM) (upsertLoadedModelMinVRAMs rows (it.order batch.rows)) k =
      leastAt (·.minVRAM) rows k ⊓ leastAt (·.minVRAM) batch k := by
  refine eq_of_forall_le_iff fun x => ?_
  rw [upsertLoadedModelMinVRAMs, leastAt_foldl (leastAt_upsertLoadedModel k), le_inf_iff,
    le_leastAt (t := batch)]
  simp only [List.forall_mem_map, (it.perm batch.rows).mem_iff]
  rfl

end writes

/-! ## runs -/

variable (k : LoadedModelKey)

@[simp] def FlushPhase.batch : FlushPhase → PendingModels
  | .idle => Table.empty
  | .taken batch => batch
  | .failed batch => batch

/-- the least value of a key in the table, among the pending models and in the batch in flight. -/
@[simp] def LoadedModels.minimum (s : LoadedModels) : WithTop Nat :=
  leastAt (·.minVRAM) s.rows k ⊓ leastAt (·.minVRAM) s.pending k ⊓
    leastAt (·.minVRAM) s.flush.batch k

@[simp] def LoadedStep.recorded : LoadedStep → WithTop Nat
  | .record m => m.offered k
  | _ => ⊤

@[simp] lemma leastAt_empty {α : Type} {key : α → LoadedModelKey} {vram : α → Nat} :
    leastAt vram (Table.empty : Table key) k = ⊤ := rfl

lemma exec_minimum (i : LoadedStep) (s : LoadedModels) :
    (i.exec s).minimum k = s.minimum k ⊓ i.recorded k := by
  obtain ⟨pending, flush, rows⟩ := s
  cases i <;> cases flush
  case take.idle =>
    simp only [LoadedStep.exec]
    split <;> simp
  case upsertError.taken it written batch =>
    cases written with
    | false => simp
    | true =>
      -- the rows of the batch count twice
      simp only [LoadedStep.exec, LoadedModels.minimum, FlushPhase.batch, if_true, leastAt_upsert,
        LoadedStep.recorded, inf_top_eq]
      rw [inf_right_comm (leastAt _ rows k), inf_assoc _ _ (leastAt _ batch k), inf_idem]
  all_goals
    simp
    try ac_rfl

def recordedMinimum (ops : List LoadedStep) : WithTop Nat :=
  (ops.map (·.recorded k)).foldr (· ⊓ ·) ⊤

lemma run_minimum (ops : List LoadedStep) :
    ∀ s, (run LoadedStep.exec ops s).minimum k = s.minimum k ⊓ recordedMinimum k ops := by
  induction ops with
  | nil => exact fun s => (inf_top_eq _).symm
  | cons i ops ih =>
    intro s
    rw [run_cons, ih, exec_minimum, inf_assoc]
    rfl

/-- **no recorded value is lost**, and once the flush is idle a successful one writes the least. -/
theorem minimum_never_lost (rows : LoadedModelTable) (ops : List LoadedStep) (k : LoadedModelKey) :
    let s := run LoadedStep.exec ops ⟨Table.empty, .idle, rows⟩
    let least := leastAt (·.minVRAM) rows k ⊓ recordedMinimum k ops
    s.minimum k = least ∧ (s.flush = .idle → ∀ it,
      leastAt (·.minVRAM) (run LoadedStep.exec [.take, .upsert it] s).rows k = least) := by
  intro s least
  have hmin : s.minimum k = least := by
    rw [run_minimum]
    simp [least]
  refine ⟨hmin, fun hidle it => ?_⟩
  -- a flush that succeeds writes all that is pending
  rw [← hmin]
  clear_value s
  obtain ⟨pending, flush, rows⟩ := s
  cases hidle
  by_cases hempty : pending.keys = []
  · have hnone : pending.get k = none := get_eq_none_of_keys_nil hempty k
    simp [run, hempty, leastAt, hnone]
  · simp [run, hempty]

end CrynuxRelay

import CrynuxRelay.Base.Keyset
import CrynuxRelay.ModelFiles.Identity

/-!
# The model files of an execution

The matching asks the index whether a node holds the files that a task requires; the start of the task
resolves them again, from the rows.

* `CurrentModel`, `holdsRequiredModelInMemory` -- the model in memory, as the index shows it;
* `Chosen` -- the file of a source that an execution uses;
* `coverage_resolution` -- **the index and the start agree**.
-/

namespace CrynuxRelay

open List Option

variable {task : InferenceTask} {files : List NodeModelFileRow} {candidates current l : List Hash32}
  {h s : Hash32}

/-! ## the model in memory -/

/-- the part of an index entry on the model in memory. -/
structure CurrentModel where
  currentModelCacheHash : Option Hash32
  currentModelFileHashes : List Hash32
  currentModelFileSourceHashes : List Hash32

/-- the source of a file on disk: of several rows with its hash, the last one counts. -/
def sourceOf (files : List NodeModelFileRow) (h : Hash32) : Option Hash32 :=
  (files.reverse.find? fun f => f.modelFileHash = h).map (·.modelFileSourceHash)

def inMemoryFiles (inMemory : Option NodeInMemoryModel) : List Hash32 :=
  (inMemory.map (·.fileHashes)).getD []

def buildCurrentModel (files : List NodeModelFileRow) (inMemory : Option NodeInMemoryModel) :
    CurrentModel where
  currentModelCacheHash := inMemory.map (·.currentModelCacheHash)
  currentModelFileHashes := inMemoryFiles inMemory
  currentModelFileSourceHashes := (inMemoryFiles inMemory).filterMap (sourceOf files)

def CurrentModel.holdsRequiredModelInMemory (e : CurrentModel) (task : InferenceTask) : Bool :=
  e.currentModelCacheHash = some task.requestedModelCacheHash &&
    modelFilesCovered e.currentModelFileHashes e.currentModelFileSourceHashes
      task.requiredModelFileHashes task.requiredModelFileSourceHashes

/-! ## the choice for a source -/

def heldOf (files : List NodeModelFileRow) (s : Hash32) : List Hash32 :=
  (files.filter fun f => f.modelFileSourceHash = s).map (·.modelFileHash)

/-- the smallest held file of a source, among those in memory if there is one. -/
def Chosen (files : List NodeModelFileRow) (current : List Hash32) (s h : Hash32) : Prop :=
  h ∈ heldOf files s ∧ ∀ x ∈ heldOf files s,
    (x ∈ current → h ∈ current) ∧ ((h ∈ current → x ∈ current) → h ≤ x)

lemma mem_heldOf : h ∈ heldOf files s ↔ ⟨h, s⟩ ∈ files := by
  simp only [heldOf, List.mem_map, mem_filter, decide_eq_true_eq]
  constructor
  · rintro ⟨f, ⟨hf, rfl⟩, rfl⟩
    exact hf
  · exact fun hf => ⟨⟨h, s⟩, ⟨hf, rfl⟩, rfl⟩

lemma Chosen.unique {x : Hash32} (h1 : Chosen files current s h) (h2 : Chosen files current s x) :
    x = h := by
  obtain ⟨hm, hle⟩ := h1.2 x h2.1
  obtain ⟨hm', hle'⟩ := h2.2 h h1.1
  exact Nat.le_antisymm (hle' hm) (hle hm')

lemma pickModelFile_iff : pickModelFile candidates current = some h ↔
    h ∈ candidates ∧ ∀ x ∈ candidates,
      (x ∈ current → h ∈ current) ∧ ((h ∈ current → x ∈ current) → h ≤ x) := by
  unfold pickModelFile
  cases hmin : (candidates.filter fun h => h ∈ current).min? with
  | some m =>
    simp only [min?_eq_some_iff, mem_filter, decide_eq_true_eq] at hmin
    obtain ⟨⟨hm, hcur⟩, hle⟩ := hmin
    constructor
    · rintro ⟨⟩
      exact ⟨hm, fun x hx => ⟨fun _ => hcur, fun hxc => hle x ⟨hx, hxc hcur⟩⟩⟩
    · rintro ⟨hh, hall⟩
      obtain ⟨hhc, hhm⟩ := hall m hm
      rw [Nat.le_antisymm (hle h ⟨hh, hhc hcur⟩) (hhm fun _ => hcur)]
  | none =>
    have hnone : ∀ x ∈ candidates, x ∉ current := by simpa using hmin
    rw [min?_eq_some_iff]
    grind

lemma exists_chosen (hs : s ∈ files.map (·.modelFileSourceHash)) (current : List Hash32) :
    ∃ h, pickModelFile (heldOf files s) current = some h := by
  obtain ⟨f, hf, rfl⟩ := List.mem_map.1 hs
  unfold pickModelFile
  split
  · exact ⟨_, rfl⟩
  · refine isSome_iff_exists.1 (isSome_min?_of_mem (a := f.modelFileHash) ?_)
    exact mem_heldOf.2 hf

/-! ## the resolution -/

lemma pairwise_insertHash (hl : l.Pairwise (· < ·)) : (insertHash h l).Pairwise (· < ·) := by
  induction l with
  | nil => exact pairwise_singleton _ _
  | cons x l ih => grind [insertHash, mem_insertHash, pairwise_cons]

lemma pairwise_sortedUniqueHashes (l : List Hash32) : (sortedUniqueHashes l).Pairwise (· < ·) := by
  induction l with
  | nil => exact .nil
  | cons h l ih => exact pairwise_insertHash ih

lemma modelFilesCovered_iff : modelFilesCovered (files.map (·.modelFileHash))
      (files.map (·.modelFileSourceHash)) task.requiredModelFileHashes
      task.requiredModelFileSourceHashes = true ↔
    (∀ h ∈ task.requiredModelFileHashes, h ∈ files.map (·.modelFileHash)) ∧
      ∀ s ∈ task.requiredModelFileSourceHashes, s ∈ files.map (·.modelFileSourceHash) := by
  simp only [modelFilesCovered, Bool.and_eq_true, List.all_eq_true, decide_eq_true_eq]

lemma resolvedHashes_spec (hr : resolveExecutionModelFileHashes task files current = some l) :
    modelFilesCovered (files.map (·.modelFileHash)) (files.map (·.modelFileSourceHash))
        task.requiredModelFileHashes task.requiredModelFileSourceHashes = true ∧
      l.Pairwise (· < ·) ∧ ∀ h, h ∈ l ↔ h ∈ task.requiredModelFileHashes ∨
        ∃ s ∈ task.requiredModelFileSourceHashes, Chosen files current s h := by
  obtain ⟨exact, hexact, hr⟩ := bind_eq_some_iff.1 hr
  obtain ⟨source, hsource, hr⟩ := bind_eq_some_iff.1 hr
  obtain rfl := some.inj hr
  obtain ⟨rfl, hheld⟩ := mapM_guard.1 hexact
  obtain ⟨hforth, hback⟩ := mem_of_forall₂ (mapM_eq_some_iff.1 hsource)
  refine ⟨modelFilesCovered_iff.2 ⟨hheld, fun s hs => ?_⟩, pairwise_sortedUniqueHashes _, fun h => ?_⟩
  · obtain ⟨x, -, hpick⟩ := hforth s hs
    exact List.mem_map.2 ⟨_, mem_heldOf.1 (pickModelFile_iff.1 hpick).1, rfl⟩
  rw [mem_sortedUniqueHashes, mem_append]
  refine or_congr_right ⟨fun hh => ?_, ?_⟩
  · obtain ⟨s, hs, hpick⟩ := hback h hh
    exact ⟨s, hs, pickModelFile_iff.1 hpick⟩
  · rintro ⟨s, hs, hc⟩
    obtain ⟨x, hx, hpick⟩ := hforth s hs
    rwa [Chosen.unique (pickModelFile_iff.1 hpick) hc]

lemma exists_resolve (hc : modelFilesCovered (files.map (·.modelFileHash))
      (files.map (·.modelFileSourceHash)) task.requiredModelFileHashes
      task.requiredModelFileSourceHashes = true) (current : List Hash32) :
    ∃ l, resolveExecutionModelFileHashes task files current = some l := by
  obtain ⟨hheld, hsources⟩ := modelFilesCovered_iff.1 hc
  obtain ⟨source, hsource⟩ := exists_mapM fun s hs => exists_chosen (hsources s hs) current
  exact ⟨_, bind_eq_some_iff.2 ⟨_, mapM_guard.2 ⟨rfl, hheld⟩,
    bind_eq_some_iff.2 ⟨source, hsource, rfl⟩⟩⟩

lemma sourceOf_mem (hs : sourceOf files h = some s) : ⟨h, s⟩ ∈ files := by
  obtain ⟨f, hf, rfl⟩ := map_eq_some_iff.1 hs
  have hmem := mem_reverse.1 (mem_of_find?_eq_some hf)
  have hhash := find?_some hf
  rwa [← of_decide_eq_true hhash]

/-- **the index and the start agree** on the rows of a node: the index has the required files exactly if
they are resolved; and what is resolved is sorted without duplicates, held, complete, minimal, the same for
every order of the rows, and in memory if the index finds the requirement satisfied there. -/
theorem coverage_resolution (node : Node) (task : InferenceTask) (files : List NodeModelFileRow)
    (inMemory : Option NodeInMemoryModel) :
    ((buildNodeIndexEntry node files).holdsRequiredModelFiles task = true ↔
      ∃ l, resolveExecutionModelFileHashes task files (inMemoryFiles inMemory) = some l) ∧
    ∀ l, resolveExecutionModelFileHashes task files (inMemoryFiles inMemory) = some l →
      l.Pairwise (· < ·) ∧ (∀ h ∈ l, h ∈ files.map (·.modelFileHash)) ∧
      (∀ h ∈ task.requiredModelFileHashes, h ∈ l) ∧
      (∀ s ∈ task.requiredModelFileSourceHashes, ∃ h ∈ l, ⟨h, s⟩ ∈ files) ∧
      (∀ h ∈ l, h ∈ task.requiredModelFileHashes ∨ ∃ s ∈ task.requiredModelFileSourceHashes,
        ∀ x, Chosen files (inMemoryFiles inMemory) s x ↔ x = h) ∧
      (∀ files' current', files'.Perm files → current'.Perm (inMemoryFiles inMemory) →
        resolveExecutionModelFileHashes task files' current' = some l) ∧
      ((buildCurrentModel files inMemory).holdsRequiredModelInMemory task = true →
        ∀ h ∈ l, h ∈ inMemoryFiles inMemory) := by
  refine ⟨⟨fun hc => exists_resolve hc _, fun ⟨l, hr⟩ => (resolvedHashes_spec hr).1⟩, fun l hr => ?_⟩
  obtain ⟨hcovered, hsorted, hmem⟩ := resolvedHashes_spec hr
  have hc := modelFilesCovered_iff.1 hcovered
  refine ⟨hsorted, fun h hh => ?_, fun h hh => (hmem h).2 (.inl hh), fun s hs => ?_, fun h hh => ?_,
    fun files' current' hperm hcurrent => ?_, fun hcur h hh => ?_⟩
  · rcases (hmem h).1 hh with hh | ⟨s, -, hh, -⟩
    · exact hc.1 h hh
    · exact List.mem_map.2 ⟨_, mem_heldOf.1 hh, rfl⟩
  · obtain ⟨h, hpick⟩ := exists_chosen (hc.2 s hs) (inMemoryFiles inMemory)
    have hch := pickModelFile_iff.1 hpick
    exact ⟨h, (hmem h).2 (.inr ⟨s, hs, hch⟩), mem_heldOf.1 hch.1⟩
  · refine ((hmem h).1 hh).imp_right fun ⟨s, hs, hch⟩ => ⟨s, hs, fun x => ⟨hch.unique, ?_⟩⟩
    rintro rfl
    exact hch
  · have hcovered' : modelFilesCovered (files'.map (·.modelFileHash)) (files'.map (·.modelFileSourceHash))
        task.requiredModelFileHashes task.requiredModelFileSourceHashes = true := by
      simpa only [modelFilesCovered, (hperm.map _).mem_iff] using hcovered
    obtain ⟨l', hr'⟩ := exists_resolve hcovered' current'
    obtain ⟨-, hsorted', hmem'⟩ := resolvedHashes_spec hr'
    have hheld : ∀ s x, x ∈ heldOf files' s ↔ x ∈ heldOf files s := fun s x => by
      rw [mem_heldOf, mem_heldOf, hperm.mem_iff]
    -- both lists are sorted, with the same members
    rw [hr', @Keyset.eq_of_pairwise_lt _ _ _ id _ _ hsorted' hsorted fun x => ?_]
    rw [hmem', hmem]
    simp only [Chosen, hheld, hcurrent.mem_iff]
  · simp only [CurrentModel.holdsRequiredModelInMemory, modelFilesCovered, Bool.and_eq_true,
      List.all_eq_true, decide_eq_true_eq] at hcur
    rcases (hmem h).1 hh with hh | ⟨s, hs, hch⟩
    · exact hcur.2.1 h hh
    · obtain ⟨x, hx, hsource⟩ := mem_filterMap.1 (hcur.2.2 s hs)
      exact (hch.2 x (mem_heldOf.2 (sourceOf_mem hsource))).1 hx

end CrynuxRelay

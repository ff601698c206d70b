import CrynuxRelay.Model.PendingSlash
import CrynuxRelay.Tasks.OnRows

/-!
# A pending slash is decided once

The renewals of the evidence read a record without a lock and save all of its columns later, so a save
can bring back the status and the artifacts from before a decision or before another save.

* `SameViews` -- decisions and requests of nodes leave the groups of the evidence as they are;
* `Covers` -- every stored result of one list of artifacts is also in another;
* `Orderly` -- at its save, a call holds the status of the record, and no other call has saved the
  record since it began;
* `RowKept`, `SlashInv` -- what a step does to a record, and the invariant of the calls;
* `run_decided_once` -- in every orderly run a decided record stays decided, no stored evidence is
  lost, and a record slashes its node at most once.
-/

namespace CrynuxRelay

open Function List Option Table Tx SlashStep InferenceTask

variable {w w' : World} {c : Text} {r r' r'' : PendingSlashRow} {group : List GroupMember}
  {m : GroupMember} {dir : SlashedTasksDir} {a : EvidenceArtifact} {t : Table PendingSlashRow.id}
  {s s' : SlashState} {k : EvidenceCall}

/-! ## groups -/

def InferenceTask.view (t : InferenceTask) : Text × GroupMember := (t.taskID, t.member)

/-- the tasks have kept their task ids, and no member was refunded. -/
structure SameViews (w w' : World) : Prop where
  keys : w'.db.tasks.keys = w.db.tasks.keys
  views : ∀ c, (w'.db.tasks.get c).map InferenceTask.view = (w.db.tasks.get c).map InferenceTask.view

instance : OnRows SameViews where
  refl := fun w => ⟨rfl, fun _ => rfl⟩
  trans := fun w w' w'' h h' => ⟨h'.keys.trans h.keys, fun c => (h'.views c).trans (h.views c)⟩
  rollback := fun w w' h => ⟨rfl, fun _ => rfl⟩
  of_eq := fun w w' hn ht => ⟨by rw [ht], fun c => by rw [ht]⟩

lemma evidenceGroup_eq (db : Db) (c : Text) :
    evidenceGroup db c = ((db.tasks.get c).map view).map fun v =>
      if v.1 = [] then [v.2]
      else ((db.tasks.rows.map view).filter fun u => u.1 = v.1).map (·.2) := by
  rw [evidenceGroup, Option.map_map]
  congr 1
  funext task
  simp only [comp_apply, view, List.filter_map, List.map_map]
  rfl

lemma SameViews.rows (h : SameViews w w') : w'.db.tasks.rows.map view = w.db.tasks.rows.map view := by
  rw [Table.rows, Table.rows, map_filterMap, map_filterMap, h.keys]
  exact congrArg (fun f => List.filterMap f _) (funext h.views)

lemma SameViews.evidenceGroup (h : SameViews w w') : evidenceGroup w'.db = evidenceGroup w.db := by
  funext c
  rw [evidenceGroup_eq, evidenceGroup_eq, h.views, h.rows]

lemma NodeSide.sameViews (h : NodeSide w w') : SameViews w w' :=
  ⟨by rw [h.1.tasks], fun c => by rw [h.1.tasks]⟩

lemma sameViews_slashed {task : InferenceTask}
    (hf : ∀ t : InferenceTask, t.slashed.taskIDCommitment = t.taskIDCommitment)
    (hget : w.db.tasks.get c = some task) (hterm : task.status.isTerminal = false)
    (hw : w'.db.tasks = w.db.tasks.modify c slashed hf) : SameViews w w' := by
  refine ⟨by rw [hw, keys_modify], ?_⟩
  intro d
  rw [hw, get_modify]
  split
  · next hd =>
    rw [hd, hget]
    have hne : task.status ≠ .endGroupRefund := by
      intro h
      rw [h] at hterm
      cases hterm
    simp [view, member, slashed, hne]
  · rfl

/-- **a decision leaves the groups as they are**: it may abort a task, but a task that has not ended. -/
theorem slashPendingNodeTx_views {env : Env} {address : Text} {r : Node × Bool × CommitFunc}
    (h : Ok (slashPendingNodeTx env address) w r w') : SameViews w w' := by
  rw [slashPendingNodeTx, getNodeByAddress] at h
  obtain ⟨node, w1, hnode, h⟩ := ok_bind.1 h
  rw [ok_getDb_bind, ok_orFail] at hnode
  rw [ok_require_bind, ok_bind, hnode.2] at h
  obtain ⟨-, p, w2, hslash, h⟩ := h
  rw [(ok_pure.1 h).2]
  obtain ⟨f, w3, habort, hquit⟩ := ok_bind.1 hslash
  have hside : SameViews w3 w2 := by
    obtain ⟨b, w4, hquit, hpure⟩ := ok_bind.1 hquit
    rw [(ok_pure.1 hpure).2]
    exact NodeSide.sameViews (Tx.Kept.ok hquit)
  rcases abortNodeCurrentTaskForSlash_ok habort with ⟨-, rfl, -⟩ | ⟨c, task, -, ht, -, hterm, -, -, hw⟩
  · exact hside
  · have habort : SameViews w w3 :=
      sameViews_slashed (fun _ => rfl) ht hterm (congrArg (·.db.tasks) hw)
    exact Stable.trans _ _ _ habort hside

lemma evidenceGroup_member {db : Db} (h : evidenceGroup db c = some group) (hm : m ∈ group) :
    evidenceGroup db m.taskIDCommitment = some group := by
  obtain ⟨task, hget, hgroup⟩ := map_eq_some_iff.1 h
  by_cases hid : task.taskID = []
  · rw [if_pos hid] at hgroup
    rw [← hgroup, mem_singleton] at hm
    have hkey : task.taskIDCommitment = c := key_of_get hget
    rw [hm, show task.member.taskIDCommitment = c from hkey, h]
  · rw [if_neg hid] at hgroup
    rw [← hgroup] at hm
    obtain ⟨t, ht, rfl⟩ := List.mem_map.1 hm
    obtain ⟨hrow, hsame⟩ := mem_filter.1 ht
    have hsame : t.taskID = task.taskID := of_decide_eq_true hsame
    have hget' : db.tasks.get t.member.taskIDCommitment = some t := mem_rows.1 hrow
    rw [evidenceGroup, hget', map_some, if_neg (hsame ▸ hid), hsame, hgroup]

/-! ## artifacts -/

/-- the stored results of `a` are also in `b`. -/
structure EvidenceArtifact.StoredIn (a b : EvidenceArtifact) : Prop where
  task : b.taskIDCommitment = a.taskIDCommitment
  uploaded : b.status = .uploaded
  files : a.files ⊆ b.files

def Covers (new old : List EvidenceArtifact) : Prop :=
  ∀ a ∈ old, a.status = .uploaded → ∃ b ∈ new, a.StoredIn b

lemma Covers.refl (l : List EvidenceArtifact) : Covers l l :=
  fun a ha hup => ⟨a, ha, rfl, hup, fun _ h => h⟩

lemma Covers.trans {l l' l'' : List EvidenceArtifact} (h : Covers l'' l') (h' : Covers l' l) :
    Covers l'' l := by
  intro a ha hup
  obtain ⟨b, hb, hab⟩ := h' a ha hup
  obtain ⟨c, hc, hbc⟩ := h b hb hab.uploaded
  exact ⟨c, hc, hbc.task.trans hab.task, hbc.uploaded, fun _ hx => hbc.files (hab.files hx)⟩

def InDir (dir : SlashedTasksDir) (a : EvidenceArtifact) : Prop :=
  ∃ files, dir a.taskIDCommitment = some files ∧ a.files ⊆ files

def DirGrows (dir dir' : SlashedTasksDir) : Prop :=
  ∀ c files, dir c = some files → ∃ files', dir' c = some files' ∧ files ⊆ files'

lemma DirGrows.inDir {dir' : SlashedTasksDir} (h : DirGrows dir dir') (ha : InDir dir a) :
    InDir dir' a := by
  obtain ⟨files, hdir, hsub⟩ := ha
  obtain ⟨files', hdir', hsub'⟩ := h _ _ hdir
  exact ⟨files', hdir', fun _ hx => hsub' (hsub hx)⟩

lemma DirGrows.refl (dir : SlashedTasksDir) : DirGrows dir dir :=
  fun _ files h => ⟨files, h, fun _ hx => hx⟩

lemma dirGrows_update {files : List Text} (h : (dir c).getD [] ⊆ files) :
    DirGrows dir (Function.update dir c (some files)) := by
  intro d files0 hd
  by_cases hdc : d = c
  · subst hdc
    rw [hd] at h
    exact ⟨files, update_self .., h⟩
  · exact ⟨files0, by rw [update_of_ne hdc, hd], fun _ hx => hx⟩

lemma uploaded_current (h : (buildCurrentResultEvidenceArtifact dir m).status = .uploaded) :
    m.refunded = false ∧
      dir m.taskIDCommitment = some (buildCurrentResultEvidenceArtifact dir m).files := by
  rw [buildCurrentResultEvidenceArtifact] at h ⊢
  split at h
  · cases h
  · next hr =>
    rw [if_neg hr]
    split at h
    · cases h
    · next files hdir => exact ⟨by simpa using hr, hdir⟩

lemma taskIDCommitment_current (dir : SlashedTasksDir) (m : GroupMember) :
    (buildCurrentResultEvidenceArtifact dir m).taskIDCommitment = m.taskIDCommitment := by
  rw [buildCurrentResultEvidenceArtifact]
  split
  · rfl
  · split <;> rfl

/-! ## orderly steps -/

/-- no decision of the record has committed since the call has read it, and no other call has saved the
record since the call began. -/
def Orderly (s : SlashState) : SlashStep → Prop
  | .save i => ∀ k row rest, s.calls[i]? = some k → k.rows = some (row :: rest) →
      row.id ∉ k.savedByOthers ∧
        ∀ r, s.records.get row.id = some r → r.status = .slashed → row.status = .slashed
  | _ => True

structure SameRecord (row row' : PendingSlashRow) : Prop where
  nodeAddress : row'.nodeAddress = row.nodeAddress
  taskIDCommitment : row'.taskIDCommitment = row.taskIDCommitment
  snapshots : row'.evidence.snapshots = row.evidence.snapshots
  evidenceComplete : row'.evidenceComplete = row.evidenceComplete

lemma SameRecord.refl (row : PendingSlashRow) : SameRecord row row := ⟨rfl, rfl, rfl, rfl⟩

lemma SameRecord.trans (h : SameRecord r r') (h' : SameRecord r' r'') : SameRecord r r'' :=
  ⟨h'.nodeAddress.trans h.nodeAddress, h'.taskIDCommitment.trans h.taskIDCommitment,
    h'.snapshots.trans h.snapshots, h'.evidenceComplete.trans h.evidenceComplete⟩

/-- what a step may do to a record: a decision stays, and so does all stored evidence. -/
structure RowKept (row row' : PendingSlashRow) : Prop extends SameRecord row row' where
  decided : row.status = .slashed → row'.status = .slashed
  evidence : Covers row'.evidence.resultArtifacts row.evidence.resultArtifacts

lemma RowKept.refl (row : PendingSlashRow) : RowKept row row :=
  ⟨SameRecord.refl row, fun h => h, Covers.refl _⟩

lemma RowKept.trans (h : RowKept r r') (h' : RowKept r' r'') : RowKept r r'' :=
  ⟨h.toSameRecord.trans h'.toSameRecord, fun hs => h'.decided (h.decided hs),
    h'.evidence.trans h.evidence⟩

def RecordsKept (t t' : Table PendingSlashRow.id) : Prop :=
  ∀ id row, t.get id = some row → ∃ row', t'.get id = some row' ∧ RowKept row row'

lemma RecordsKept.refl (t : Table PendingSlashRow.id) : RecordsKept t t :=
  fun _ row h => ⟨row, h, RowKept.refl row⟩

lemma RecordsKept.trans {t' t'' : Table PendingSlashRow.id} (h : RecordsKept t t')
    (h' : RecordsKept t' t'') : RecordsKept t t'' := by
  intro id row hget
  obtain ⟨row', hget', hkept⟩ := h id row hget
  obtain ⟨row'', hget'', hkept'⟩ := h' id row' hget'
  exact ⟨row'', hget'', hkept.trans hkept'⟩

/-! ## the invariant -/

section invariant
variable (groups : Text → Option (List GroupMember))

/-- the artifact has stored results of a member of the group of `c`. -/
structure Stored (dir : SlashedTasksDir) (c : Text) (a : EvidenceArtifact) : Prop where
  member : ∃ group, groups c = some group ∧ ⟨a.taskIDCommitment, false⟩ ∈ group
  inDir : InDir dir a

/-- a call in flight: while no other call saves a record, all stored results of the record will be in
the artifacts of this call. -/
structure CallInv (s : SlashState) (k : EvidenceCall) : Prop where
  group : ∀ m ∈ k.group, groups m.taskIDCommitment = some k.group
  todo : ∀ m ∈ k.todo, m ∈ k.group
  artifacts : ∀ b ∈ k.artifacts, b.status = .uploaded →
    ⟨b.taskIDCommitment, false⟩ ∈ k.group ∧ InDir s.dir b
  covered : ∀ id row, s.records.get id = some row → id ∉ k.savedByOthers →
    groups row.taskIDCommitment = some k.group →
    ∀ a ∈ row.evidence.resultArtifacts, a.status = .uploaded →
      ⟨a.taskIDCommitment, false⟩ ∈ k.todo ∨ ∃ b ∈ k.artifacts, a.StoredIn b
  read : ∀ l, k.rows = some l → k.todo = []
  rows : ∀ l, k.rows = some l → ∀ r ∈ l, groups r.taskIDCommitment = some k.group ∧
    ∃ row, s.records.get r.id = some row ∧ SameRecord r row

structure SlashInv (s : SlashState) : Prop where
  sameGroups : evidenceGroup s.world.db = groups
  stored : ∀ id row, s.records.get id = some row → ∀ a ∈ row.evidence.resultArtifacts,
    a.status = .uploaded → Stored groups s.dir row.taskIDCommitment a
  calls : ∀ k ∈ s.calls, CallInv groups s k
  slashed : ∀ id ∈ s.slashed, ∃ row, s.records.get id = some row ∧ row.status = .slashed
  once : s.slashed.Nodup

variable {groups}

/-- but for the records `saved`, those of `t'` have the artifacts they had in `t`, or no stored
results. -/
def Unrenewed (t t' : Table PendingSlashRow.id) (saved : List Nat) : Prop :=
  ∀ id row', t'.get id = some row' → id ∉ saved →
    (∃ row, t.get id = some row ∧ row'.taskIDCommitment = row.taskIDCommitment ∧
      row'.evidence.resultArtifacts = row.evidence.resultArtifacts) ∨
    Covers [] row'.evidence.resultArtifacts

/-- a call that does not move keeps its invariant when the directories grow and the records are kept. -/
lemma CallInv.mono {saved : List Nat} (h : CallInv groups s k)
    (hdir : DirGrows s.dir s'.dir) (hkept : RecordsKept s.records s'.records)
    (hsaved : k.savedByOthers ⊆ saved) (hrows : Unrenewed s.records s'.records saved) :
    CallInv groups s' { k with savedByOthers := saved } := by
  refine ⟨h.group, h.todo, ?_, ?_, h.read, ?_⟩
  · intro b hb hup
    exact ⟨(h.artifacts b hb hup).1, hdir.inDir (h.artifacts b hb hup).2⟩
  · intro id row' hget' hid hgroup a ha hup
    rcases hrows id row' hget' hid with ⟨row, hget, hc, hart⟩ | hnone
    · rw [hc] at hgroup
      rw [hart] at ha
      exact h.covered id row hget (fun hmem => hid (hsaved hmem)) hgroup a ha hup
    · obtain ⟨b, hb, -⟩ := hnone a ha hup
      exact absurd hb not_mem_nil
  · intro l hl r hr
    obtain ⟨hgroup, row, hget, hsame⟩ := h.rows l hl r hr
    obtain ⟨row', hget', hkept'⟩ := hkept _ _ hget
    exact ⟨hgroup, row', hget', hsame.trans hkept'.toSameRecord⟩

lemma Unrenewed.refl (t : Table PendingSlashRow.id) (saved : List Nat) : Unrenewed t t saved :=
  fun _ row' hget _ => .inl ⟨row', hget, rfl, rfl⟩

lemma Unrenewed.mono {t' : Table PendingSlashRow.id} {saved saved' : List Nat}
    (h : Unrenewed t t' saved) (hs : saved ⊆ saved') : Unrenewed t t' saved' :=
  fun id row' hget hid => h id row' hget fun hmem => hid (hs hmem)

lemma SlashInv.slashed_kept (h : SlashInv groups s) (hkept : RecordsKept s.records s'.records) :
    ∀ id ∈ s.slashed, ∃ row, s'.records.get id = some row ∧ row.status = .slashed := by
  intro id hid
  obtain ⟨row, hget, hst⟩ := h.slashed id hid
  obtain ⟨row', hget', hrow⟩ := hkept id row hget
  exact ⟨row', hget', hrow.decided hst⟩

lemma SlashInv.stored_kept {saved : List Nat} (h : SlashInv groups s) (hdir : DirGrows s.dir s'.dir)
    (hun : Unrenewed s.records s'.records saved) {id : Nat} {row' : PendingSlashRow}
    (hget : s'.records.get id = some row') (hid : id ∉ saved) (ha : a ∈ row'.evidence.resultArtifacts)
    (hup : a.status = .uploaded) : Stored groups s'.dir row'.taskIDCommitment a := by
  rcases hun id row' hget hid with ⟨row, hrow, hc, hart⟩ | hnone
  · rw [hart] at ha
    rw [hc]
    have hst := h.stored id row hrow a ha hup
    exact ⟨hst.member, hdir.inDir hst.inDir⟩
  · obtain ⟨b, hb, -⟩ := hnone a ha hup
    exact absurd hb not_mem_nil

section
variable (h : SlashInv groups s)
include h

/-- **no call moves**: the directories grow, and no record gets other artifacts. -/
theorem SlashInv.of_kept (hgroups : evidenceGroup s'.world.db = groups) (hdir : DirGrows s.dir s'.dir)
    (hkept : RecordsKept s.records s'.records) (hun : Unrenewed s.records s'.records [])
    (hcalls : s'.calls = s.calls) (hslashed : ∀ id ∈ s'.slashed, ∃ row, s'.records.get id = some row ∧
    row.status = .slashed) (honce : s'.slashed.Nodup) : SlashInv groups s' := by
  refine ⟨hgroups, ?_, ?_, hslashed, honce⟩
  · intro id row' hget a ha hup
    exact h.stored_kept hdir hun hget not_mem_nil ha hup
  · intro k hk
    exact (h.calls k (hcalls ▸ hk)).mono hdir hkept (fun _ hx => hx) (hun.mono (nil_subset _))

theorem SlashInv.of_dir (hgroups : evidenceGroup w.db = groups) (hdir : DirGrows s.dir dir) :
    SlashInv groups { s with world := w, dir := dir } ∧ RecordsKept s.records s.records :=
  ⟨h.of_kept hgroups hdir (.refl _) (.refl _ []) rfl h.slashed h.once, .refl _⟩

theorem SlashInv.of_calls {calls : List EvidenceCall}
    (hcalls : ∀ k ∈ calls, CallInv groups s k) : SlashInv groups { s with calls := calls } :=
  ⟨h.sameGroups, h.stored, fun k hk =>
    have hk := hcalls k hk
    ⟨hk.group, hk.todo, hk.artifacts, hk.covered, hk.read, hk.rows⟩, h.slashed, h.once⟩

lemma SlashInv.moveCall (i : Nat) (hk : CallInv groups s k) : SlashInv groups (s.moveCall i k) := by
  refine h.of_calls ?_
  intro k' hk'
  rcases mem_or_eq_of_mem_set hk' with hk' | rfl
  · exact h.calls k' hk'
  · exact hk

/-! ## steps of a call -/

lemma CallInv.start (hgroup : evidenceGroup s.world.db c = some group) :
    CallInv groups s { group := group, todo := group } := by
  refine ⟨?_, fun m hm => hm, nofun, ?_, nofun, nofun⟩
  · intro m hm
    rw [← h.sameGroups]
    exact evidenceGroup_member hgroup hm
  · intro id row hget _ hrow a ha hup
    obtain ⟨g, hg, hmem⟩ := (h.stored id row hget a ha hup).member
    rw [hrow, some.injEq] at hg
    obtain rfl : group = g := hg
    exact .inl hmem

end

/-- a directory that is read now has everything that a record has of its task. -/
lemma CallInv.readDir (h : SlashInv groups s)
    (hk : CallInv groups s k) {todo : List GroupMember} (htodo : k.todo = m :: todo) :
    CallInv groups s { k with
      todo := todo
      artifacts := k.artifacts ++ [buildCurrentResultEvidenceArtifact s.dir m] } := by
  have hread : ∀ l, k.rows ≠ some l := by
    intro l hl
    rw [hk.read l hl] at htodo
    cases htodo
  refine ⟨hk.group, ?_, ?_, ?_, fun l hl => absurd hl (hread l), fun l hl => absurd hl (hread l)⟩
  · intro m' hm'
    exact hk.todo m' (by rw [htodo]; exact mem_cons_of_mem m hm')
  · intro b hb hup
    rcases mem_append.1 hb with hb | hb
    · exact hk.artifacts b hb hup
    · rw [mem_singleton] at hb
      subst hb
      obtain ⟨hr, hdir⟩ := uploaded_current hup
      refine ⟨?_, _, (taskIDCommitment_current s.dir m).symm ▸ hdir, fun _ hx => hx⟩
      have hm : m ∈ k.group := hk.todo m (by rw [htodo]; exact mem_cons_self)
      rwa [taskIDCommitment_current, ← hr]
  · intro id row hget hid hgroup a ha hup
    rcases hk.covered id row hget hid hgroup a ha hup with hmem | ⟨b, hb, hab⟩
    · rw [htodo] at hmem
      rcases mem_cons.1 hmem with rfl | hmem
      · obtain ⟨files, hdir, hsub⟩ := (h.stored id row hget a ha hup).inDir
        refine .inr ⟨_, mem_append_right _ mem_cons_self, ?_⟩
        rw [buildCurrentResultEvidenceArtifact, if_neg (by simp), hdir]
        exact ⟨rfl, rfl, hsub⟩
      · exact .inl hmem
    · exact .inr ⟨b, mem_append_left _ hb, hab⟩

lemma CallInv.readRows (hk : CallInv groups s k) (htodo : k.todo = []) :
    CallInv groups s { k with
      rows := some (s.records.rows.filter fun r =>
        r.taskIDCommitment ∈ k.group.map (·.taskIDCommitment)) } := by
  refine ⟨hk.group, hk.todo, hk.artifacts, hk.covered, fun _ _ => htodo, ?_⟩
  intro l hl r hr
  cases hl
  obtain ⟨hrow, hin⟩ := mem_filter.1 hr
  obtain ⟨m, hm, hmc⟩ := List.mem_map.1 (of_decide_eq_true hin)
  refine ⟨?_, r, mem_rows.1 hrow, SameRecord.refl r⟩
  rw [← hmc]
  exact hk.group m hm

/-! ## saves -/

lemma get_savePendingSlash (row : PendingSlashRow) (h : t.get row.id = some r) (id : Nat) :
    (savePendingSlash t row).get id = if id = row.id then some row else t.get id := by
  rw [savePendingSlash, get_modify, h]
  have hid : r.id = row.id := key_of_get h
  split
  · rw [map_some, hid]
  · rfl

lemma recordsKept_save (row : PendingSlashRow) (hr : t.get row.id = some r)
    (hkept : RowKept r row) : RecordsKept t (savePendingSlash t row) := by
  intro id row0 hget
  rw [get_savePendingSlash row hr]
  split
  · next hid =>
    rw [hid, hr, some.injEq] at hget
    exact ⟨row, rfl, hget ▸ hkept⟩
  · exact ⟨row0, hget, RowKept.refl row0⟩

section save
variable {i : Nat} {row : PendingSlashRow}
  {rest : List PendingSlashRow}

section
variable (hk : CallInv groups s k) (hrows : k.rows = some (row :: rest))
  (hr : s.records.get row.id = some r)
include hk hrows hr

/-- **an orderly save keeps the record**: the decision, by the status that the call has read, and the
stored results, since nobody but the call has renewed them while it read the directories. -/
theorem rowKept_renewed (hsaved : row.id ∉ k.savedByOthers)
    (hst : r.status = .slashed → row.status = .slashed) : RowKept r (row.renewed k.artifacts) := by
  obtain ⟨hgroup, r', hr', hsame⟩ := hk.rows _ hrows row mem_cons_self
  rw [hr, some.injEq] at hr'
  subst hr'
  refine ⟨⟨hsame.nodeAddress.symm, hsame.taskIDCommitment.symm, hsame.snapshots.symm,
    hsame.evidenceComplete.symm⟩, hst, ?_⟩
  intro a ha hup
  rw [← hsame.taskIDCommitment] at hgroup
  rcases hk.covered _ r hr hsaved hgroup a ha hup with hmem | hcov
  · rw [hk.read _ hrows] at hmem
    exact absurd hmem not_mem_nil
  · exact hcov

lemma CallInv.saved (hkept : RecordsKept s.records (s.saveRow i k row rest).records) :
    CallInv groups (s.saveRow i k row rest) { k with rows := some rest } := by
  refine ⟨hk.group, hk.todo, hk.artifacts, ?_, fun _ _ => hk.read _ hrows, ?_⟩
  · intro id row' hget' hid hgroup a ha hup
    have hget := hget'.symm.trans (get_savePendingSlash (row.renewed k.artifacts) hr id)
    by_cases hrow : id = row.id
    · rw [if_pos (by exact hrow), some.injEq] at hget
      rw [hget] at ha
      exact .inr ⟨a, ha, rfl, hup, fun _ hx => hx⟩
    · rw [if_neg (by exact hrow)] at hget
      exact hk.covered id row' hget.symm hid hgroup a ha hup
  · intro l hl r' hr'
    cases hl
    obtain ⟨hgroup, row0, hget, hsame⟩ := hk.rows _ hrows r' (mem_cons_of_mem row hr')
    obtain ⟨row', hget', hrow'⟩ := hkept _ _ hget
    exact ⟨hgroup, row', hget', hsame.trans hrow'.toSameRecord⟩

end

lemma SlashInv.saveRow (h : SlashInv groups s) (hi : s.calls[i]? = some k)
    (hrows : k.rows = some (row :: rest)) (hord : Orderly s (.save i)) :
    SlashInv groups (s.saveRow i k row rest) ∧
      RecordsKept s.records (s.saveRow i k row rest).records := by
  have hk := h.calls k (mem_of_getElem? hi)
  obtain ⟨hsaved, hst⟩ := hord k row rest hi hrows
  obtain ⟨hgroup, r, hr, hsame⟩ := hk.rows _ hrows row mem_cons_self
  have hkept : RecordsKept s.records (s.saveRow i k row rest).records :=
    recordsKept_save (row.renewed k.artifacts) hr (rowKept_renewed hk hrows hr hsaved (hst r hr))
  have hun : Unrenewed s.records (s.saveRow i k row rest).records [row.id] := by
    intro id row' hget' hid
    have hget := hget'.symm.trans (get_savePendingSlash (row.renewed k.artifacts) hr id)
    rw [if_neg (by exact fun he => hid (mem_singleton.2 he))] at hget
    exact .inl ⟨row', hget.symm, rfl, rfl⟩
  have hdir : DirGrows s.dir (s.saveRow i k row rest).dir := DirGrows.refl s.dir
  refine ⟨⟨h.sameGroups, ?_, ?_, h.slashed_kept hkept, h.once⟩, hkept⟩
  · intro id row' hget' a ha hup
    by_cases hid : id = row.id
    · have hget := hget'.symm.trans (get_savePendingSlash (row.renewed k.artifacts) hr id)
      rw [if_pos (by exact hid), some.injEq] at hget
      rw [hget] at ha ⊢
      obtain ⟨hmem, hdir⟩ := hk.artifacts a ha hup
      exact ⟨⟨k.group, hgroup, hmem⟩, hdir⟩
    · exact h.stored_kept hdir hun hget' (by simpa using hid) ha hup
  · intro k' hk'
    rcases mem_or_eq_of_mem_set hk' with hk' | rfl
    · obtain ⟨k0, hk0, rfl⟩ := List.mem_map.1 hk'
      exact (h.calls k0 hk0).mono hdir hkept (subset_cons_self ..)
        (hun.mono (cons_subset_cons _ (nil_subset _)))
    · exact hk.saved hrows hr hkept

end save

/-! ## decisions -/

/-- **a decision** slashes the node and marks the record, or leaves the database as it is. -/
theorem SlashState.decide_cases (s : SlashState) (env : Env) (row : PendingSlashRow) :
    (∃ r w, Ok (slashPendingNodeTx env row.nodeAddress) s.world r w ∧ s.decide env row = { s with
        world := after (slashPendingNodePostCommit r) w
        records := savePendingSlash s.records { row with status := .slashed }
        slashed := row.id :: s.slashed }) ∨
    ∃ w : World, w.db = s.world.db ∧ s.decide env row = { s with world := w } := by
  rcases ok_or_fails (transaction (slashPendingNodeTx env row.nodeAddress)) s.world with
    ⟨r, hok⟩ | ⟨e, hfails⟩
  · refine .inl ⟨r, _, ok_transaction.1 hok, ?_⟩
    rw [SlashState.decide, show transaction _ s.world = _ from hok]
  · refine .inr ⟨_, atomic_transaction _ _ _ _ hfails, ?_⟩
    rw [SlashState.decide, show transaction _ s.world = _ from hfails]

lemma SlashInv.decide {s : SlashState} (h : SlashInv groups s) (env : Env) {row : PendingSlashRow}
    (hrow : s.records.get row.id = some row) (hst : row.status = .pending) :
    SlashInv groups (s.decide env row) ∧ RecordsKept s.records (s.decide env row).records := by
  rcases s.decide_cases env row with ⟨r, w, hok, heq⟩ | ⟨w, hdb, heq⟩
  · rw [heq]
    have hkept := recordsKept_save { row with status := .slashed } hrow
      ⟨⟨rfl, rfl, rfl, rfl⟩, fun _ => rfl, Covers.refl _⟩
    have hget := get_savePendingSlash { row with status := .slashed } hrow
    have hviews : SameViews s.world (after (slashPendingNodePostCommit r) w) :=
      Stable.trans _ _ _ (slashPendingNodeTx_views hok) (keeps_bind Kept.keeps (fun _ => Kept.keeps) w)
    refine ⟨h.of_kept ?_ (DirGrows.refl s.dir) hkept ?_ rfl ?_ ?_, hkept⟩
    · exact hviews.evidenceGroup.trans h.sameGroups
    · intro id row' hget' _
      rw [hget] at hget'
      split at hget'
      · next hid =>
        cases hget'
        exact .inl ⟨row, hid ▸ hrow, rfl, rfl⟩
      · exact .inl ⟨row', hget', rfl, rfl⟩
    · intro id hid
      rcases mem_cons.1 hid with rfl | hid
      · exact ⟨_, by rw [hget, if_pos rfl], rfl⟩
      · exact h.slashed_kept hkept id hid
    · refine nodup_cons.2 ⟨?_, h.once⟩
      intro hmem
      obtain ⟨row0, hget0, hst0⟩ := h.slashed _ hmem
      rw [hrow, some.injEq] at hget0
      rw [← hget0, hst] at hst0
      cases hst0
  · rw [heq]
    exact h.of_dir (by rw [← h.sameGroups, hdb]) (DirGrows.refl s.dir)

/-! ## steps -/

lemma SlashInv.create {s : SlashState} (h : SlashInv groups s) {row : PendingSlashRow} {id : Nat}
    (hfree : s.records.get id = none) (hid : row.id = id)
    (hart : row.evidence.resultArtifacts = buildPendingResultEvidenceArtifacts group) :
    SlashInv groups { s with records := s.records.insert row } ∧
      RecordsKept s.records (s.records.insert row) := by
  have hget : ∀ j, (s.records.insert row).get j = if j = id then some row else s.records.get j := by
    intro j
    rw [get_insert _ _ _ (by rw [hid, hfree]), hid]
  have hkept : RecordsKept s.records (s.records.insert row) := by
    intro j row0 hrow0
    refine ⟨row0, ?_, RowKept.refl row0⟩
    rw [hget, if_neg, hrow0]
    intro hj
    rw [hj, hfree] at hrow0
    cases hrow0
  refine ⟨h.of_kept h.sameGroups (DirGrows.refl _) hkept ?_ rfl (h.slashed_kept hkept) h.once, hkept⟩
  intro j row' hrow' _
  rw [hget] at hrow'
  split at hrow'
  · cases hrow'
    rw [hart]
    refine .inr fun a ha hup => ?_
    obtain ⟨m, -, rfl⟩ := List.mem_map.1 ha
    split at hup
    · cases hup
    · cases hup
  · exact .inl ⟨row', hrow', rfl, rfl⟩

/-- **one orderly step** keeps the invariant and every record. -/
theorem SlashStep.exec_kept (s : SlashState) (step : SlashStep) (h : SlashInv groups s)
    (hord : Orderly s step) :
    SlashInv groups (step.exec s) ∧ RecordsKept s.records (step.exec s).records := by
  have hself : SlashInv groups s ∧ RecordsKept s.records s.records := ⟨h, RecordsKept.refl _⟩
  cases step with
  | request op =>
    rw [exec]
    split
    · next hop =>
      have hside : NodeSide s.world (after op.tx s.world) := nodeSide_nodeOp hop s.world
      exact h.of_dir (hside.sameViews.evidenceGroup.trans h.sameGroups) (DirGrows.refl _)
    · exact hself
  | create id nodeAddress c snapshots group complete =>
    rw [exec]
    cases hfree : s.records.get id with
    | some _ => exact hself
    | none => exact h.create hfree rfl rfl
  | makeDir c =>
    exact h.of_dir h.sameGroups (dirGrows_update fun _ hx => hx)
  | storeFile c file =>
    exact h.of_dir h.sameGroups (dirGrows_update fun _ hx => mem_insert_of_mem hx)
  | beginUpdate c =>
    rw [exec]
    cases hgroup : evidenceGroup s.world.db c with
    | none => exact hself
    | some group =>
      refine ⟨h.of_calls ?_, RecordsKept.refl _⟩
      intro k hk
      rcases mem_append.1 hk with hk | hk
      · exact h.calls k hk
      · rw [mem_singleton.1 hk]
        exact CallInv.start h hgroup
  | readDir i =>
    rw [exec]
    cases hi : s.calls[i]? with
    | none => exact hself
    | some k =>
      have hk := h.calls k (mem_of_getElem? hi)
      dsimp only
      cases htodo : k.todo with
      | nil => exact hself
      | cons m todo => exact ⟨h.moveCall i (hk.readDir h htodo), RecordsKept.refl _⟩
  | readRows i =>
    rw [exec]
    cases hi : s.calls[i]? with
    | none => exact hself
    | some k =>
      have hk := h.calls k (mem_of_getElem? hi)
      dsimp only
      split
      · next hready => exact ⟨h.moveCall i (hk.readRows hready.1), RecordsKept.refl _⟩
      · exact hself
  | save i =>
    rw [exec]
    cases hi : s.calls[i]? with
    | none => exact hself
    | some k =>
      dsimp only
      split
      · next row rest hrows => exact h.saveRow hi hrows hord
      · exact hself
  | stop i =>
    exact ⟨h.of_calls fun k hk => h.calls k ((eraseIdx_sublist s.calls i).subset hk),
      RecordsKept.refl _⟩
  | slash env id =>
    rw [exec]
    cases hget : s.records.get id with
    | none => exact hself
    | some row =>
      dsimp only
      split
      · next hst =>
        have hid : row.id = id := key_of_get hget
        exact h.decide env (hid ▸ hget) hst
      · exact hself

end invariant

/-! ## runs -/

def SlashState.start (w : World) (dir : SlashedTasksDir) : SlashState := { world := w, dir := dir }

/-- from `s` on to `s'`, no decision is undone and no evidence lost, and no record has slashed its node
twice. -/
structure DecidedOnce (s s' : SlashState) : Prop where
  records : RecordsKept s.records s'.records
  once : ∀ id, s'.slashed.count id ≤ 1

/-- **A pending slash is decided once** in every run in which no call saves a record after a decision
that it has not read, or after another call has saved the record since it began. -/
theorem run_decided_once (w : World) (dir : SlashedTasksDir) (l l' : List SlashStep)
    (h : Along SlashStep.exec Orderly (l ++ l') (SlashState.start w dir)) :
    DecidedOnce (run SlashStep.exec l (SlashState.start w dir))
      (run SlashStep.exec (l ++ l') (SlashState.start w dir)) := by
  obtain ⟨hl, hl'⟩ := h.of_append
  have hinv := run_invariant (fun s step hs hord => (exec_kept s step hs hord).1) l _ hl
    ⟨rfl, fun _ row hget => (some_ne_none row hget.symm).elim, nofun, nofun, nodup_nil⟩
  rw [run_append]
  generalize run exec l (SlashState.start w dir) = s at hl' hinv ⊢
  have hrun := run_invariant
    (fun s' step (hs : SlashInv (evidenceGroup w.db) s' ∧ RecordsKept s.records s'.records) hord =>
      have hstep := exec_kept s' step hs.1 hord
      ⟨hstep.1, hs.2.trans hstep.2⟩) l' s hl' ⟨hinv, RecordsKept.refl _⟩
  exact ⟨hrun.2, fun id => nodup_iff_count_le_one.1 hrun.1.once id⟩

/-! ## stale saves -/

/-- two members of a group: the results of the first were rejected, the second won. -/
def disputedGroup : World :=
  ⟨{ tasks := (Table.empty.insert
        { taskIDCommitment := "0xc1".toList, creator := "0xa1".toList, taskFee := 1,
          status := .endInvalidated, taskID := "0x7a".toList }).insert
        { taskIDCommitment := "0xc2".toList, creator := "0xa1".toList, taskFee := 1,
          status := .groupValidated, taskID := "0x7a".toList } }, {}⟩

def accusedNode : NodeOp :=
  .join {} { gpuName := "gpu".toList, gpuVram := 24, version := "0.0.0".toList, modelFiles := [],
             address := "0xb1".toList, network := "net".toList, staking := 1 }

/-- the node joins, and its record is created; its upload is stored. -/
def accusation : List SlashStep :=
  [.request accusedNode,
    .create 1 "0xb1".toList "0xc1".toList [] [⟨"0xc1".toList, false⟩, ⟨"0xc2".toList, false⟩] true,
    .storeFile "0xc1".toList "0.png".toList]

/-- a call reads the two directories, and then the records. -/
def readEvidence (i : Nat) : List SlashStep := [.readDir i, .readDir i, .readRows i]

theorem run_decided_once_at_upload : DecidedOnce
      (run SlashStep.exec accusation (SlashState.start disputedGroup fun _ => none))
      (run SlashStep.exec (accusation ++ ([.beginUpdate "0xc1".toList] ++ readEvidence 0 ++
        [.save 0, .slash {} 1])) (SlashState.start disputedGroup fun _ => none)) := by
  refine run_decided_once disputedGroup _ accusation _ ?_
  refine ⟨trivial, trivial, trivial, trivial, trivial, trivial, trivial, ?_, trivial, trivial⟩
  intro k row rest hk hrows
  cases hk
  cases hrows
  exact ⟨not_mem_nil, fun r hr hst => by cases hr; cases hst⟩

/-- a call has read the record when the decision commits, and saves it afterwards. -/
def decidedRun : List SlashStep :=
  accusation ++ [.beginUpdate "0xc1".toList] ++ readEvidence 0 ++ [.slash {} 1]

/-- the other member uploads, and its call is done, after the first call has read the directories. -/
def renewedRun : List SlashStep :=
  accusation ++ [.beginUpdate "0xc1".toList, .readDir 0, .readDir 0,
    .storeFile "0xc2".toList "0.png".toList, .beginUpdate "0xc2".toList] ++ readEvidence 1 ++ [.save 1]

def disputedRun (l : List SlashStep) : SlashState :=
  run SlashStep.exec l (SlashState.start disputedGroup fun _ => none)

def SlashState.uploads (s : SlashState) (id : Nat) : Option (List Text) :=
  (s.records.get id).map fun r =>
    (r.evidence.resultArtifacts.filter (·.status = .uploaded)).map (·.taskIDCommitment)

/-- a stale save undoes the decision, and the node that has rejoined is slashed once more; another one
erases the upload of the second member. -/
theorem stale_save_undoes_decision :
    ((disputedRun decidedRun).records.get 1).map (·.status) = some .slashed ∧
      ((disputedRun (decidedRun ++ [.save 0])).records.get 1).map (·.status) = some .pending ∧
      (disputedRun (decidedRun ++ [.save 0, .request accusedNode, .slash {} 1])).slashed = [1, 1] ∧
      (disputedRun renewedRun).uploads 1 = some ["0xc1".toList, "0xc2".toList] ∧
      (disputedRun (renewedRun ++ [.readRows 0, .save 0])).uploads 1 = some ["0xc1".toList] := by
  refine ⟨?_, ?_, ?_, ?_, ?_⟩ <;> decide +kernel

end CrynuxRelay

import CrynuxRelay.ModelFiles.RoundTrip

/-!
# The identity of model files

* `mem_hashesOfEntries` -- the exact hashes that a task requires are those of its entries;
* `CatalogOk.upsert` -- the catalog keeps rows under the hashes of their texts;
* `model_identity` -- **a file that a node was sent and reports back is the required one exactly if the
  numbers in its arguments are written as floats are**, and a download is complete exactly if this is so
  for all files;
* `identity_lost` -- a large integer that is no float.
-/

namespace CrynuxRelay

open List

variable {l : List Hash32} {e : ModelFileEntry NumberLit}
  {x : Hash32} {entries : List (ModelFileEntry NumberLit)} {catalog files : List ModelFile}

variable {cm : CaseMap} {hash : Text → Hash32} {codec : FloatCodec}

/-! ## required hashes -/

lemma mem_insertHash {h : Hash32} : x ∈ insertHash h l ↔ x = h ∨ x ∈ l := by
  induction l with
  | nil => exact mem_cons
  | cons y l ih =>
    rw [insertHash]
    split
    · exact mem_cons
    · split
      · next heq =>
        rw [heq, mem_cons, ← or_assoc, or_self]
      · rw [mem_cons, ih, mem_cons, or_left_comm]

lemma mem_sortedUniqueHashes : x ∈ sortedUniqueHashes l ↔ x ∈ l := by
  induction l with
  | nil => exact Iff.rfl
  | cons h l ih =>
    show x ∈ insertHash h (sortedUniqueHashes l) ↔ _
    rw [mem_insertHash, ih, mem_cons]

lemma exists_modelFileHash (hash : Text → Hash32) (hd : DerivedEntry cm e)
    (hrev : e.revision ≠ []) : ∃ x, e.modelFileHash cm hash (fun n => n) = some x := by
  obtain ⟨k, hk, -⟩ := kwargsDoc_obj (fun n => n) e
  exact ⟨_, modelFileHash_eq hd hrev hk⟩

lemma mem_hashesOfEntries (hash : Text → Hash32) (hd : ∀ e ∈ entries, DerivedEntry cm e) :
    ∃ r, hashesOfEntries cm hash entries = some r ∧ (∀ x, x ∈ r.1 ↔
        ∃ e ∈ entries, e.revision ≠ [] ∧ e.modelFileHash cm hash (fun n => n) = some x) ∧
      ∀ x, x ∈ r.2 ↔
        ∃ e ∈ entries, e.revision = [] ∧ e.modelFileSourceHash cm hash (fun n => n) = some x := by
  induction entries with
  | nil => exact ⟨([], []), rfl, fun x => by simp, fun x => by simp⟩
  | cons e entries ih =>
    obtain ⟨r, hr, hexact, hsource⟩ := ih fun e' he' => hd e' (mem_cons_of_mem e he')
    by_cases hrev : e.revision = []
    · obtain ⟨s, hs⟩ : ∃ s, e.modelFileSourceHash cm hash (fun n => n) = some s :=
        sourceHash_isSome (fun n => n) e
      refine ⟨(r.1, s :: r.2), ?_, fun x => ?_, fun x => ?_⟩
      · rw [hashesOfEntries, if_neg (not_not.2 hrev), hs, hr]
        rfl
      · simp [hexact, hrev]
      · simp [hsource, hrev, hs, eq_comm]
    · obtain ⟨y, hy⟩ : ∃ y, e.modelFileHash cm hash (fun n => n) = some y :=
        exists_modelFileHash hash (hd e mem_cons_self) hrev
      refine ⟨(y :: r.1, r.2), ?_, fun x => ?_, fun x => ?_⟩
      · rw [hashesOfEntries, if_pos hrev, hy, hr]
        rfl
      · simp [hexact, hrev, hy, eq_comm]
      · simp [hsource, hrev]

lemma deriveRequiredHashes_spec (hash : Text → Hash32) (hd : ∀ e ∈ entries, DerivedEntry cm e) :
    ∃ exact source, deriveRequiredHashes cm hash entries = some (exact, source) ∧ (∀ x, x ∈ exact ↔
        ∃ e ∈ entries, e.revision ≠ [] ∧ e.modelFileHash cm hash (fun n => n) = some x) ∧
      ∀ x, x ∈ source ↔
        ∃ e ∈ entries, e.revision = [] ∧ e.modelFileSourceHash cm hash (fun n => n) = some x := by
  obtain ⟨r, hr, hexact, hsource⟩ := mem_hashesOfEntries hash hd
  refine ⟨sortedUniqueHashes r.1, sortedUniqueHashes r.2, ?_, fun x => ?_, fun x => ?_⟩
  · rw [deriveRequiredHashes, hr]
    rfl
  · rw [mem_sortedUniqueHashes, hexact]
  · rw [mem_sortedUniqueHashes, hsource]

/-! ## the catalog of a task -/

lemma catalogOk_nil : CatalogOk hash [] := nofun

lemma CatalogOk.upsert (hcat : CatalogOk hash catalog) (hfiles : CatalogOk hash files) :
    CatalogOk hash (upsertModelFiles catalog files) ∧
      (∀ f ∈ catalog, ∃ g ∈ upsertModelFiles catalog files, g.modelFileHash = f.modelFileHash) ∧
      ∀ f ∈ files, ∃ g ∈ upsertModelFiles catalog files, g.modelFileHash = f.modelFileHash := by
  induction files generalizing catalog with
  | nil => exact ⟨hcat, fun f hf => ⟨f, hf, rfl⟩, nofun⟩
  | cons f files ih =>
    have hrest : CatalogOk hash files := fun g hg => hfiles g (mem_cons_of_mem f hg)
    rw [upsertModelFiles, foldl_cons]
    split
    · next hany =>
      obtain ⟨hok, hold, hnew⟩ := ih hcat hrest
      refine ⟨hok, hold, fun g hg => ?_⟩
      rcases mem_cons.1 hg with rfl | hg
      · obtain ⟨g', hg', heq⟩ := any_eq_true.1 hany
        obtain ⟨g'', hg'', heq'⟩ := hold g' hg'
        exact ⟨g'', hg'', heq'.trans (of_decide_eq_true heq)⟩
      · exact hnew g hg
    · have hcat' : CatalogOk hash (catalog ++ [f]) := by
        intro g hg
        rcases mem_append.1 hg with hg | hg
        · exact hcat g hg
        · rw [mem_singleton.1 hg]
          exact hfiles f mem_cons_self
      obtain ⟨hok, hold, hnew⟩ := ih hcat' hrest
      refine ⟨hok, fun g hg => hold g (mem_append_left _ hg), fun g hg => ?_⟩
      rcases mem_cons.1 hg with rfl | hg
      · exact hold g (mem_append_right _ (mem_singleton.2 rfl))
      · exact hnew g hg

lemma mem_upsert {f : ModelFile} (h : f ∈ upsertModelFiles catalog files) : f ∈ catalog ∨ f ∈ files := by
  induction files generalizing catalog with
  | nil => exact .inl h
  | cons g files ih =>
    rw [upsertModelFiles, foldl_cons] at h
    rw [mem_cons]
    split at h
    · exact (ih h).imp_right .inr
    · rcases ih h with h | h
      · exact (mem_append.1 h).imp_right fun h => .inl (mem_singleton.1 h)
      · exact .inr (.inr h)

lemma taskModelFiles_spec (hash : Text → Hash32) (hd : ∀ e ∈ entries, DerivedEntry cm e) :
    ∃ files, taskModelFiles cm hash entries = some files ∧ CatalogOk hash files ∧
      (∀ f ∈ files, ∃ e ∈ entries, ∃ k, kwargsDoc (fun n => n) e = some k ∧ f.canonicalJSON = entryDoc e k) ∧
      ∀ e ∈ entries, e.revision ≠ [] →
        ∃ f ∈ files, e.modelFileHash cm hash (fun n => n) = some f.modelFileHash := by
  have hrow : ∀ e ∈ entries.filter fun e => e.revision ≠ [], ∃ k s, kwargsDoc (fun n => n) e = some k ∧
      newModelFile cm hash (fun n => n) e =
        some ⟨hash (canonicalText (entryDoc e k)), s, entryDoc e k⟩ ∧
      e.modelFileHash cm hash (fun n => n) = some (hash (canonicalText (entryDoc e k))) := by
    intro e he
    obtain ⟨he, hrev⟩ := mem_filter.1 he
    have hrev := of_decide_eq_true hrev
    obtain ⟨k, hk, -⟩ := kwargsDoc_obj (fun n => n) e
    obtain ⟨s, hs⟩ := newModelFile_eq (hd e he) hrev hk
    exact ⟨_, s, hk, hs, modelFileHash_eq (hd e he) hrev hk⟩
  obtain ⟨files, hfiles⟩ : ∃ files, taskModelFiles cm hash entries = some files := by
    refine exists_mapM fun e he => ?_
    obtain ⟨k, s, -, h, -⟩ := hrow e he
    exact ⟨_, h⟩
  obtain ⟨hleft, hright⟩ := mem_of_forall₂ (mapM_eq_some_iff.1 hfiles)
  refine ⟨files, hfiles, fun f hf => ?_, fun f hf => ?_, fun e he hrev => ?_⟩
  · obtain ⟨e, he, hef⟩ := hright f hf
    obtain ⟨k, s, -, h, -⟩ := hrow e he
    rw [h] at hef
    rw [← Option.some.inj hef]
  · obtain ⟨e, he, hef⟩ := hright f hf
    obtain ⟨k, s, hk, h, -⟩ := hrow e he
    rw [h] at hef
    exact ⟨e, (mem_filter.1 he).1, k, hk, by rw [← Option.some.inj hef]⟩
  · have he' : e ∈ entries.filter fun e => e.revision ≠ [] :=
      mem_filter.2 ⟨he, decide_eq_true hrev⟩
    obtain ⟨f, hf, hef⟩ := hleft e he'
    obtain ⟨k, s, -, h, hhash⟩ := hrow e he'
    rw [h] at hef
    exact ⟨f, hf, by rw [hhash, ← Option.some.inj hef]⟩

/-! ## the identity -/

/-- what is hashed for the rows of the catalog and for the entries of a task. -/
def hashedTexts (codec : FloatCodec) (catalog : List ModelFile) (entries : List (ModelFileEntry NumberLit)) :
    List Text :=
  catalog.map (fun f => canonicalText f.canonicalJSON) ++ entries.flatMap (entryTexts codec)

section
variable (hfree : ∀ s ∈ hashedTexts codec catalog entries, ∀ t ∈ hashedTexts codec catalog entries,
    hash s = hash t → s = t) (hd : ∀ e ∈ entries, DerivedEntry cm e) (hcat : CatalogOk hash catalog)
  (hfiles : taskModelFiles cm hash entries = some files)
include hfree hd hcat hfiles

/-- entries of a task, listed by the catalog after its files are stored. -/
lemma listed_of {sub : List (ModelFileEntry NumberLit)} {hashes : List Hash32}
    (hsub : ∀ e ∈ sub, e ∈ entries ∧ e.revision ≠ [])
    (hof : ∀ e ∈ sub, ∃ x ∈ hashes, e.modelFileHash cm hash (fun n => n) = some x)
    (hentry : ∀ x ∈ hashes, ∃ e ∈ sub, e.modelFileHash cm hash (fun n => n) = some x) :
    Listed cm hash codec (hashedTexts codec catalog entries) (upsertModelFiles catalog files) sub hashes := by
  obtain ⟨files', hfiles', hok, hdocs, hrows⟩ := taskModelFiles_spec hash hd
  obtain rfl : files' = files := Option.some.inj (hfiles'.symm.trans hfiles)
  obtain ⟨hok', -, hnew⟩ := hcat.upsert hok
  have hreports : ∀ e ∈ entries, ∀ t ∈ entryTexts codec e, t ∈ hashedTexts codec catalog entries :=
    fun e he t ht => mem_append_right _ (mem_flatMap.2 ⟨e, he, ht⟩)
  refine ⟨hfree, fun f hf => ?_, fun e he => hreports e (hsub e he).1, hok',
    fun e he => ⟨hd e (hsub e he).1, (hsub e he).2⟩, hof, hentry, fun x hx => ?_⟩
  · rcases mem_upsert hf with hf | hf
    · exact mem_append_left _ (mem_map_of_mem hf)
    · obtain ⟨e, he, k, hk, hdoc⟩ := hdocs f hf
      exact hreports e he _ (hdoc ▸ mem_entryTexts hk)
  · obtain ⟨e, he, hex⟩ := hentry x hx
    obtain ⟨f, hf, hfx⟩ := hrows e (hsub e he).1 (hsub e he).2
    obtain ⟨g, hg, hgf⟩ := hnew f hf
    exact ⟨g, hg, hgf.trans (Option.some.inj (hfx.symm.trans hex))⟩

lemma listed_singleton (he : e ∈ entries) (hrev : e.revision ≠ [])
    (hx : e.modelFileHash cm hash (fun n => n) = some x) :
    Listed cm hash codec (hashedTexts codec catalog entries) (upsertModelFiles catalog files) [e] [x] :=
  listed_of hfree hd hcat hfiles (fun _ he' => mem_singleton.1 he' ▸ ⟨he, hrev⟩)
    (fun _ he' => ⟨x, mem_singleton.2 rfl, mem_singleton.1 he' ▸ hx⟩)
    fun _ hy => ⟨e, mem_singleton.2 rfl, mem_singleton.1 hy ▸ hx⟩

end

/-- **a file that is sent and reported back is the required one exactly if its numbers are stable**, and
the download of a task is complete exactly if this holds of all its files; while nothing that is hashed
for them collides. -/
theorem model_identity (cm : CaseMap) (codec : FloatCodec) {hash : Text → Hash32}
    {catalog : List ModelFile} (hcat : CatalogOk hash catalog)
    {args : TaskArgsModelFiles} {taskType : TaskType} {revisions : List (Nat × Text)}
    {derived entries : List (ModelFileEntry NumberLit)}
    (hder : deriveEntries cm args taskType = some derived)
    (hres : resolveRevisions cm derived revisions = some entries)
    (hfree : ∀ s ∈ hashedTexts codec catalog entries, ∀ t ∈ hashedTexts codec catalog entries,
      hash s = hash t → s = t) :
    ∃ files exact source, taskModelFiles cm hash entries = some files ∧
      deriveRequiredHashes cm hash entries = some (exact, source) ∧
      (∀ e ∈ entries, e.revision ≠ [] → ∃ x ∈ exact, e.modelFileHash cm hash (fun n => n) = some x ∧
        ((∃ held, roundTrip cm hash codec (upsertModelFiles catalog files) [x] = some held ∧
          x ∈ held.map ModelFile.modelFileHash) ↔ StableNumbers codec e)) ∧
      ((∀ e ∈ entries, e.revision ≠ []) →
        ((∃ held, roundTrip cm hash codec (upsertModelFiles catalog files) exact = some held ∧
          modelFilesCovered (held.map ModelFile.modelFileHash)
            (held.map ModelFile.modelFileSourceHash) exact source = true) ↔
          ∀ e ∈ entries, StableNumbers codec e)) := by
  have hd := derivedEntry_of_resolveRevisions (derivedEntry_of_deriveEntries hder) hres
  obtain ⟨files, hfiles, -⟩ := taskModelFiles_spec hash hd
  obtain ⟨exact, source, hreq, hexact, hsource⟩ := deriveRequiredHashes_spec hash hd
  refine ⟨files, exact, source, hfiles, hreq, fun e he hrev => ?_, fun hall => ?_⟩
  · obtain ⟨x, hx⟩ := exists_modelFileHash hash (hd e he) hrev
    refine ⟨x, (hexact x).2 ⟨e, he, hrev, hx⟩, hx, ?_⟩
    have hiff := covered_iff (listed_singleton hfree hd hcat hfiles he hrev hx)
    simp only [forall_mem_singleton] at hiff
    exact hiff
  · have hlisted : Listed cm hash codec (hashedTexts codec catalog entries) (upsertModelFiles catalog files)
        entries exact := by
      refine listed_of hfree hd hcat hfiles (fun e he => ⟨he, hall e he⟩) (fun e he => ?_) fun x hx => ?_
      · obtain ⟨x, hx⟩ := exists_modelFileHash hash (hd e he) (hall e he)
        exact ⟨x, (hexact x).2 ⟨e, he, hall e he, hx⟩, hx⟩
      · obtain ⟨e, he, -, hex⟩ := (hexact x).1 hx
        exact ⟨e, he, hex⟩
    have hnone : source = [] := eq_nil_iff_forall_not_mem.2 fun x hx => by
      obtain ⟨e, he, hrev, -⟩ := (hsource x).1 hx
      exact hall e he hrev
    rw [← covered_iff hlisted, hnone]
    refine exists_congr fun held => and_congr_right fun _ => ?_
    rw [modelFilesCovered, all_nil, Bool.and_true, all_eq_true]
    exact forall₂_congr fun x _ => decide_eq_true_iff

/-! ## a large integer -/

/-- a checksum of 32 bytes. -/
def textSum (s : Text) : Hash32 := (s.map Char.toNat).sum % 256 ^ 32

def plainCase : CaseMap where
  lower := fun c => c
  lower_lower := fun _ => rfl

def sampleSHA : Text := List.replicate 40 'a'

def sampleArgs (n : Int) : TaskArgsModelFiles where
  model := []
  revision := none
  baseModel := some ⟨"org/base".toList, none⟩
  components := [("unet".toList, ⟨"gguf".toList, "org/unet".toList, none,
    some [("seed".toList, .num (.ofInt n))]⟩)]

def baseEntry (revision : Text) : ModelFileEntry NumberLit :=
  ⟨modelSourceTypeHuggingFace, "org/base".toList, revision, imageBaseModelFormat, some []⟩

def unetEntry (n : Int) (revision : Text) : ModelFileEntry NumberLit :=
  ⟨modelSourceTypeHuggingFace, "org/unet".toList, revision, "gguf".toList,
    some [("seed".toList, .num (.ofInt n))]⟩

lemma deriveEntries_sample (n : Int) :
    deriveEntries plainCase (sampleArgs n) .sd = some [baseEntry [], unetEntry n []] := rfl

lemma resolveRevisions_sample (n : Int) :
    resolveRevisions plainCase [baseEntry [], unetEntry n []] [(0, sampleSHA), (1, sampleSHA)] =
      some [baseEntry sampleSHA, unetEntry n sampleSHA] := rfl

lemma stable_baseEntry : StableNumbers codec (baseEntry sampleSHA) := by
  intro k hk
  cases hk
  trivial

lemma stable_unetEntry_iff {n : Int} :
    StableNumbers integerCodec (unetEntry n sampleSHA) ↔ roundInt n = n := by
  have hk : kwargsDoc (fun n => n) (unetEntry n sampleSHA) =
      some (.obj [("seed".toList, .num (.ofInt n))]) := rfl
  have hnum : (integerCodec.parse (.ofInt n)).map integerCodec.format = some (.ofInt (roundInt n)) := by
    show some (roundLit (.ofInt n)) = _
    rw [roundLit_ofInt]
  constructor
  · intro h
    have hn := (h _ hk).1
    simp only [Json.AllNum] at hn
    rw [hnum] at hn
    exact NumberLit.ofInt_inj (Option.some.inj hn)
  · intro h k hk'
    rw [← Option.some.inj hk']
    refine ⟨?_, trivial⟩
    simp only [Json.AllNum]
    rw [hnum, h]

lemma sampleTexts_free {n : Int} (hn : n = 7 ∨ n = 2 ^ 53 + 1) :
    ∀ s ∈ hashedTexts integerCodec [] [baseEntry sampleSHA, unetEntry n sampleSHA],
      ∀ t ∈ hashedTexts integerCodec [] [baseEntry sampleSHA, unetEntry n sampleSHA],
        textSum s = textSum t → s = t := by
  rcases hn with rfl | rfl
  all_goals decide +kernel

theorem model_identity_at_seven : ∃ files exact source held,
    taskModelFiles plainCase textSum [baseEntry sampleSHA, unetEntry 7 sampleSHA] = some files ∧
      deriveRequiredHashes plainCase textSum [baseEntry sampleSHA, unetEntry 7 sampleSHA] =
        some (exact, source) ∧
      roundTrip plainCase textSum integerCodec (upsertModelFiles [] files) exact = some held ∧
      modelFilesCovered (held.map ModelFile.modelFileHash) (held.map ModelFile.modelFileSourceHash)
        exact source = true := by
  obtain ⟨files, exact, source, hfiles, hreq, -, hcov⟩ := model_identity plainCase integerCodec
    catalogOk_nil (deriveEntries_sample 7) (resolveRevisions_sample 7) (sampleTexts_free (.inl rfl))
  have hstable : ∀ e ∈ [baseEntry sampleSHA, unetEntry 7 sampleSHA], StableNumbers integerCodec e := by
    intro e he
    rcases mem_cons.1 he with rfl | he
    · exact stable_baseEntry
    · rw [mem_singleton.1 he, stable_unetEntry_iff]
      decide
  have hrev : ∀ e ∈ [baseEntry sampleSHA, unetEntry 7 sampleSHA], e.revision ≠ [] := by
    intro e he
    rcases mem_cons.1 he with rfl | he
    · exact cons_ne_nil _ _
    · rw [mem_singleton.1 he]
      exact cons_ne_nil _ _
  obtain ⟨held, hheld, hc⟩ := (hcov hrev).2 hstable
  exact ⟨files, exact, source, held, hfiles, hreq, hheld, hc⟩

/-- **a node that reports the file it was sent is not seen to hold it**: `2 ^ 53 + 1` is no float. -/
theorem identity_lost : ∃ files x held, deriveEntries plainCase (sampleArgs (2 ^ 53 + 1)) .sd =
        some [baseEntry [], unetEntry (2 ^ 53 + 1) []] ∧
      resolveRevisions plainCase [baseEntry [], unetEntry (2 ^ 53 + 1) []]
        [(0, sampleSHA), (1, sampleSHA)] =
          some [baseEntry sampleSHA, unetEntry (2 ^ 53 + 1) sampleSHA] ∧
      taskModelFiles plainCase textSum [baseEntry sampleSHA, unetEntry (2 ^ 53 + 1) sampleSHA] =
        some files ∧
      (unetEntry (2 ^ 53 + 1) sampleSHA).modelFileHash plainCase textSum (fun n => n) = some x ∧
      roundTrip plainCase textSum integerCodec (upsertModelFiles [] files) [x] = some held ∧
      x ∉ held.map ModelFile.modelFileHash := by
  have hd := derivedEntry_of_resolveRevisions
    (derivedEntry_of_deriveEntries (deriveEntries_sample (2 ^ 53 + 1)))
    (resolveRevisions_sample (2 ^ 53 + 1))
  have hmem : unetEntry (2 ^ 53 + 1) sampleSHA ∈
      [baseEntry sampleSHA, unetEntry (2 ^ 53 + 1) sampleSHA] :=
    mem_cons_of_mem _ (mem_singleton.2 rfl)
  have hrev : (unetEntry (2 ^ 53 + 1) sampleSHA).revision ≠ [] := cons_ne_nil _ _
  obtain ⟨files, hfiles, -⟩ := taskModelFiles_spec textSum hd
  obtain ⟨x, hx⟩ := exists_modelFileHash textSum (hd _ hmem) hrev
  have hlisted := listed_singleton (sampleTexts_free (.inr rfl)) hd catalogOk_nil hfiles hmem hrev hx
  have hload : ∃ sent, loadModelFileEntries integerCodec (upsertModelFiles [] files) [x] =
      some sent := by
    refine exists_mapM fun y hy => ?_
    rw [mem_singleton.1 hy, hlisted.lookup_eq (mem_singleton.2 rfl)
      (mem_singleton.2 rfl) hx (k := .obj [("seed".toList, .num (.ofInt (2 ^ 53 + 1)))]) rfl]
    exact ⟨_, rfl⟩
  obtain ⟨sent, hsent⟩ := hload
  obtain ⟨held, hheld, -⟩ := hlisted.held hsent
  refine ⟨files, x, held, deriveEntries_sample _, resolveRevisions_sample _, hfiles, hx, hheld, ?_⟩
  intro hin
  have hstable := (covered_iff hlisted).1
    ⟨held, hheld, fun y hy => mem_singleton.1 hy ▸ hin⟩ _ (mem_singleton.2 rfl)
  rw [stable_unetEntry_iff] at hstable
  revert hstable
  decide +kernel

end CrynuxRelay

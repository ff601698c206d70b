import CrynuxRelay.Model.ModelFiles
import CrynuxRelay.Requests.Signatures

/-!
# Entries and their documents

* `DerivedEntry` -- what entries of tasks have in common: names and revisions are normalised;
* `entryDoc`, `canonicalJSON_eq` -- the canonical document of an entry, with its arguments;
* `canonicalText_inj` -- a canonical text is the text of one document.
-/

namespace CrynuxRelay

open List Option ModelFileEntry

variable {kwargs : Json NumberLit} {cm : CaseMap} {hash : Text → Hash32} {ν : Type}

/-! ## normalisation -/

lemma map_lower_lower (s : Text) : (s.map cm.lower).map cm.lower = s.map cm.lower := by
  rw [List.map_map]
  exact map_congr_left fun c _ => cm.lower_lower c

lemma normalizeModelName_idem (s : Text) :
    normalizeModelName cm (normalizeModelName cm s) = normalizeModelName cm s := by
  by_cases h : ("http://".toList.isPrefixOf s || "https://".toList.isPrefixOf s) = true
  · have hs : normalizeModelName cm s = s := if_pos h
    rw [hs, hs]
  · have hs : normalizeModelName cm s = s.map cm.lower := if_neg h
    rw [hs, normalizeModelName]
    split
    · rfl
    · exact map_lower_lower s

lemma normalizeCommitRevision_idem (s : Text) :
    normalizeCommitRevision cm (normalizeCommitRevision cm s) = normalizeCommitRevision cm s := by
  by_cases h : isCommitSHA s = true
  · have hs : normalizeCommitRevision cm s = s.map cm.lower := if_pos h
    rw [hs, normalizeCommitRevision]
    split
    · exact map_lower_lower s
    · rfl
  · have hs : normalizeCommitRevision cm s = s := if_neg h
    rw [hs, hs]

lemma normalizeModelName_eq_nil {s : Text} : normalizeModelName cm s = [] ↔ s = [] := by
  rw [normalizeModelName]
  split
  · exact Iff.rfl
  · exact map_eq_nil_iff

structure DerivedEntry (cm : CaseMap) (e : ModelFileEntry ν) : Prop where
  sourceType : e.sourceType = modelSourceTypeHuggingFace
  repository : normalizeModelName cm e.repository = e.repository
  repository_ne : e.repository ≠ []
  revision : normalizeCommitRevision cm e.revision = e.revision

lemma derivedEntry_taskEntry {name format : Text} {revision : Option Text}
    {kwargs : Option (List (Text × Json NumberLit))} (h : name ≠ []) :
    DerivedEntry cm (taskEntry cm name revision format kwargs) where
  sourceType := rfl
  repository := normalizeModelName_idem name
  repository_ne := fun hnil => h (normalizeModelName_eq_nil.1 hnil)
  revision := normalizeCommitRevision_idem _

lemma derivedEntry_of_deriveEntries {args : TaskArgsModelFiles} {taskType : TaskType}
    {entries : List (ModelFileEntry NumberLit)} (h : deriveEntries cm args taskType = some entries) :
    ∀ e ∈ entries, DerivedEntry cm e := by
  cases taskType with
  | llm =>
    rw [deriveEntries] at h
    split at h
    · cases h
    · next hne =>
      cases h
      intro e he
      rw [mem_singleton.1 he]
      exact derivedEntry_taskEntry hne
  | sd =>
    obtain ⟨base, -, h⟩ := bind_eq_some_iff.1 h
    split at h
    · cases h
    · next hne =>
      split at h
      · cases h
      · next hcomp =>
        cases h
        intro e he
        rcases mem_cons.1 he with rfl | he
        · exact derivedEntry_taskEntry hne
        · obtain ⟨p, hp, rfl⟩ := List.mem_map.1 he
          refine derivedEntry_taskEntry fun hrepo => hcomp ?_
          exact any_eq_true.2 ⟨p, hp, decide_eq_true (.inr (.inr hrepo))⟩
  | sdFTLora => cases h

lemma derivedEntry_of_resolveRevisions {revisions : List (Nat × Text)} :
    ∀ {entries entries' : List (ModelFileEntry NumberLit)}, (∀ e ∈ entries, DerivedEntry cm e) →
      resolveRevisions cm entries revisions = some entries' → ∀ e ∈ entries', DerivedEntry cm e := by
  induction revisions with
  | nil =>
    intro entries entries' hd h
    cases h
    exact hd
  | cons p revisions ih =>
    intro entries entries' hd h
    rw [resolveRevisions, foldlM_cons] at h
    obtain ⟨entries1, h1, h2⟩ := bind_eq_some_iff.1 h
    refine ih ?_ h2
    split at h1
    · cases h1
      intro e he
      obtain ⟨i, hi, rfl⟩ := mem_iff_getElem.1 he
      rw [getElem_modify]
      have hi' : i < entries.length := by rwa [length_modify] at hi
      have hold := hd _ (getElem_mem hi')
      split
      · exact
          { sourceType := hold.sourceType
            repository := hold.repository
            repository_ne := hold.repository_ne
            revision := normalizeCommitRevision_idem _ }
      · exact hold
    · cases h1

/-! ## documents -/

def entryDoc (e : ModelFileEntry ν) (kwargs : Json NumberLit) : Json NumberLit :=
  .obj [("format".toList, .str e.format), ("format_kwargs".toList, kwargs),
    ("repository".toList, .str e.repository), ("revision".toList, .str e.revision),
    ("source_type".toList, .str e.sourceType)]

def kwargsDoc (number : ν → NumberLit) (e : ModelFileEntry ν) : Option (Json NumberLit) :=
  canonicalDocument number (.obj (e.formatKwargs.getD []))

lemma kwargsDoc_obj (number : ν → NumberLit) (e : ModelFileEntry ν) :
    ∃ m, kwargsDoc number e = some (.obj m) ∧ Json.Canonical (.obj m) := by
  obtain ⟨v, hv⟩ := isSome_iff_exists.1
    (Json.decode_isSome (f := some) (fun n => rfl) ((Json.obj (e.formatKwargs.getD [])).map number))
  have hobj := hv
  obtain ⟨m, -, rfl⟩ := map_eq_some_iff.1 hobj
  exact ⟨_, hv, Json.canonical_of_decode hv⟩

lemma normalized_derived {e : ModelFileEntry ν} (hd : DerivedEntry cm e) :
    e.normalized cm = { e with formatKwargs := some (e.formatKwargs.getD []) } := by
  rw [normalized, hd.repository, hd.revision]

lemma DerivedEntry.normalized {e : ModelFileEntry ν} (hd : DerivedEntry cm e) :
    DerivedEntry cm (e.normalized cm) := by
  rw [normalized_derived hd]
  exact ⟨hd.sourceType, hd.repository, hd.repository_ne, hd.revision⟩

lemma sourceHash_isSome (number : ν → NumberLit) (e : ModelFileEntry ν) :
    ∃ s, e.modelFileSourceHash cm hash number = some s := by
  refine isSome_iff_exists.1 ?_
  rw [modelFileSourceHash, isSome_map, sourceCanonicalJSON, canonicalDocument]
  exact Json.decode_isSome (fun n => rfl) _

section
variable {number : ν → NumberLit} {e : ModelFileEntry ν} (hd : DerivedEntry cm e)
  (hrev : e.revision ≠ []) (hk : kwargsDoc number e = some kwargs)
include hd hrev hk

lemma canonicalJSON_eq : e.canonicalJSON cm number = some (entryDoc e kwargs) := by
  have hk' : ((kwargsJson (some (e.formatKwargs.getD []))).map number).decode some = some kwargs := hk
  rw [canonicalJSON, if_neg hrev, canonicalDocument, canonicalObject, normalized, hd.repository,
    hd.revision]
  simp only [if_true, cons_append, nil_append, Json.map, Json.mapFields, Json.decode,
    Json.decodeFields, hk', bind_some, map_some]
  rfl

lemma modelFileHash_eq :
    e.modelFileHash cm hash number = some (hash (canonicalText (entryDoc e kwargs))) := by
  rw [modelFileHash, canonicalJSON_eq hd hrev hk]
  rfl

/-- **the row of an entry** holds its document under the hash of the text. -/
theorem newModelFile_eq : ∃ s, newModelFile cm hash number e =
      some ⟨hash (canonicalText (entryDoc e kwargs)), s, entryDoc e kwargs⟩ := by
  have hnorm := normalized_derived hd
  have hrev' : (e.normalized cm).revision ≠ [] := by rwa [hnorm]
  have hk' : kwargsDoc number (e.normalized cm) = some kwargs := by rwa [hnorm]
  have hdoc : entryDoc (e.normalized cm) kwargs = entryDoc e kwargs := by rw [hnorm]; rfl
  obtain ⟨s, hs⟩ : ∃ s, (e.normalized cm).modelFileSourceHash cm hash number = some s :=
    sourceHash_isSome number (e.normalized cm)
  refine ⟨s, ?_⟩
  simp only [newModelFile]
  rw [modelFileHash_eq hd.normalized hrev' hk', hs, canonicalJSON_eq hd.normalized hrev' hk', hdoc]
  rfl

end

/-! ## texts -/

lemma escapeCode_canonical : EscapeCode canonicalEscape := by
  refine (escapeTable fun c hc => ?_).escapeCode
  have hlt : c.toNat < 0x20 := of_decide_eq_true hc
  omega

lemma canonicalText_inj {d d' : Json NumberLit} (h : canonicalText d = canonicalText d') :
    d = d' := by
  have hends : Json.Ends [] := fun c t h => by cases h
  refine (Json.render_inj numberText_text escapeCode_canonical d d' [] [] (fun _ _ => hends)
    (fun _ _ => hends) ?_).1
  rwa [append_nil, append_nil]

lemma entryDoc_inj {μ : Type} {e : ModelFileEntry ν} {e' : ModelFileEntry μ} {k k' : Json NumberLit}
    (h : entryDoc e k = entryDoc e' k') : k = k' := by
  simp only [entryDoc, Json.obj.injEq, cons.injEq, Prod.mk.injEq] at h
  exact h.2.1.2

end CrynuxRelay

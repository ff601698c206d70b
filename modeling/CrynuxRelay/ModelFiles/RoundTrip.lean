import CrynuxRelay.Base.Options
import CrynuxRelay.ModelFiles.Entries

/-!
# Model files that come back

* `decodeEntry_entryDoc`, `decodeEntry_entryDocument` -- an entry read from the catalog has floats, and
  the entry that a node sends back is the one that it was sent;
* `buildHeld_spec` -- the files of a report, by their hashes;
* `covered_iff` -- **what comes back covers what was sent exactly if every number in the arguments is
  written like the float that it is read as.**
-/

namespace CrynuxRelay

open List ModelFile

variable {cm : CaseMap} {hash : Text → Hash32} {codec : FloatCodec} {ν : Type} {k : Json NumberLit}
  {x : Hash32}

/-! ## entries with floats -/

def floatEntry (e : ModelFileEntry ν) (m : List (Text × Json codec.Value)) :
    ModelFileEntry codec.Value where
  sourceType := e.sourceType
  repository := e.repository
  revision := e.revision
  format := e.format
  formatKwargs := some m

lemma DerivedEntry.floatEntry {e : ModelFileEntry ν} (hd : DerivedEntry cm e)
    (m : List (Text × Json codec.Value)) : DerivedEntry cm (floatEntry e m) :=
  ⟨hd.sourceType, hd.repository, hd.repository_ne, hd.revision⟩

lemma decodeEntry_eq_some {e : ModelFileEntry ν} {m : List (Text × Json NumberLit)}
    {e' : ModelFileEntry codec.Value} : decodeEntry codec (entryDoc e (.obj m)) = some e' ↔
      ∃ m', (Json.obj m).decode codec.parse = some (.obj m') ∧ e' = floatEntry e m' := by
  show ((Json.decodeFields codec.parse m).map fun m' => some (Json.toMap m')).map _ = some e' ↔ _
  rw [Option.map_map, Json.decode, Option.map_eq_some_iff]
  constructor
  · rintro ⟨m', hm', rfl⟩
    exact ⟨Json.toMap m', by rw [hm']; rfl, rfl⟩
  · rintro ⟨m', hm', rfl⟩
    obtain ⟨m1, hm1, heq⟩ := Option.map_eq_some_iff.1 hm'
    exact ⟨m1, hm1, by rw [← Json.obj.inj heq]; rfl⟩

lemma decode_map_format {v : Json codec.Value} (h : Json.Canonical v) :
    (v.map codec.format).decode codec.parse = some v := by
  have hmap := Json.decode_map (f := codec.parse) (g := codec.format) (h := fun x => x)
    codec.parse_format h
  rwa [Json.map_id] at hmap

section
variable (e : ModelFileEntry ν) {m : List (Text × Json codec.Value)} (h : Json.Canonical (.obj m))
include e h

/-- **a node sends back the entry that it was sent.** -/
theorem decodeEntry_entryDocument :
    decodeEntry codec (entryDocument codec (floatEntry e m)) = some (floatEntry e m) := by
  have hm := decode_map_format h
  obtain ⟨m1, hm1, heq⟩ := Option.map_eq_some_iff.1 hm
  show ((Json.decodeFields codec.parse (Json.mapFields codec.format m)).map
    fun m' => some (Json.toMap m')).map _ = _
  rw [hm1, Option.map_some, Json.obj.inj heq]
  rfl

end

/-! ## reports -/

variable {e : ModelFileEntry NumberLit}

def FileHash (hash : Text → Hash32) (e : ModelFileEntry codec.Value) (x : Hash32) : Prop :=
  ∃ k, kwargsDoc codec.format e = some k ∧ x = hash (canonicalText (entryDoc e k))

lemma buildHeld_loop (hash : Text → Hash32) {files : List (ModelFileEntry codec.Value)}
    (h : ∀ e ∈ files, DerivedEntry cm e ∧ e.revision ≠ []) (acc : List ModelFile) :
    ∃ held, files.foldlM (fun files e =>
        let e := e.normalized cm
        if e.sourceType ≠ modelSourceTypeHuggingFace then none
        else if e.repository = [] then none
        else if e.revision = [] then none
        else (newModelFile cm hash codec.format e).map fun f =>
          if files.any fun g => g.modelFileHash = f.modelFileHash then files else files ++ [f]) acc =
        some held ∧
      ∀ x, x ∈ held.map modelFileHash ↔
        x ∈ acc.map modelFileHash ∨ ∃ e ∈ files, FileHash hash e x := by
  induction files generalizing acc with
  | nil =>
    refine ⟨acc, rfl, fun x => ⟨.inl, ?_⟩⟩
    rintro (hx | ⟨e, he, -⟩)
    · exact hx
    · exact absurd he not_mem_nil
  | cons e files ih =>
    obtain ⟨hd, hrev⟩ := h e mem_cons_self
    have hnorm := normalized_derived hd
    have hrev' : (e.normalized cm).revision ≠ [] := by rwa [hnorm]
    obtain ⟨m, hk, -⟩ := kwargsDoc_obj codec.format e
    have hk' : kwargsDoc codec.format (e.normalized cm) = some (.obj m) := by rwa [hnorm]
    have hdoc : entryDoc (e.normalized cm) (.obj m) = entryDoc e (.obj m) := by rw [hnorm]; rfl
    obtain ⟨s, hfile⟩ := newModelFile_eq hd.normalized hrev' hk'
    rw [hdoc] at hfile
    -- one more file, unless its hash is there
    obtain ⟨acc', hacc', hmem⟩ : ∃ acc', (newModelFile cm hash codec.format (e.normalized cm)).map
        (fun f => if acc.any fun g => g.modelFileHash = f.modelFileHash then acc else acc ++ [f]) =
          some acc' ∧ ∀ x, x ∈ acc'.map modelFileHash ↔
            x ∈ acc.map modelFileHash ∨ FileHash hash e x := by
      let f : ModelFile := ⟨hash (canonicalText (entryDoc e (.obj m))), s, entryDoc e (.obj m)⟩
      refine ⟨if acc.any fun g => g.modelFileHash = f.modelFileHash then acc else acc ++ [f],
        by rw [hfile]; rfl, fun x => ?_⟩
      have hhash : FileHash hash e x ↔ x = hash (canonicalText (entryDoc e (.obj m))) := by
        constructor
        · rintro ⟨k, hk1, hx⟩
          rw [hk] at hk1
          rw [hx, ← Option.some.inj hk1]
        · exact fun hx => ⟨_, hk, hx⟩
      rw [hhash]
      split
      · next hany =>
        refine ⟨.inl, ?_⟩
        rintro (hx | rfl)
        · exact hx
        · obtain ⟨g, hg, hgx⟩ := any_eq_true.1 hany
          exact mem_map.2 ⟨g, hg, of_decide_eq_true hgx⟩
      · rw [map_append, mem_append]
        exact or_congr Iff.rfl mem_singleton
    obtain ⟨held, hheld, hiff⟩ := ih (fun x hx => h x (mem_cons_of_mem e hx)) acc'
    refine ⟨held, ?_, fun x => ?_⟩
    · rw [foldlM_cons]
      simp only [hd.normalized.sourceType, hd.normalized.repository_ne, hrev', ne_eq, not_true_eq_false,
        if_false]
      rwa [hacc']
    · rw [hiff, hmem, or_assoc]
      refine or_congr Iff.rfl ?_
      constructor
      · rintro (hx | ⟨e', he', hx⟩)
        · exact ⟨e, mem_cons_self, hx⟩
        · exact ⟨e', mem_cons_of_mem e he', hx⟩
      · rintro ⟨e', he', hx⟩
        rcases mem_cons.1 he' with rfl | he'
        · exact .inl hx
        · exact .inr ⟨e', he', hx⟩

/-! ## the catalog -/

def CatalogOk (hash : Text → Hash32) (catalog : List ModelFile) : Prop :=
  ∀ f ∈ catalog, f.modelFileHash = hash (canonicalText f.canonicalJSON)

/-- the numbers of the arguments are written as floats are. -/
def StableNumbers (codec : FloatCodec) (e : ModelFileEntry NumberLit) : Prop :=
  ∀ k, kwargsDoc (fun n => n) e = some k → k.AllNum fun n => (codec.parse n).map codec.format = some n

lemma stableNumbers_iff (hk : kwargsDoc (fun n => n) e = some k) (hc : Json.Canonical k) :
    StableNumbers codec e ↔ (k.decode codec.parse).map (Json.map codec.format) = some k := by
  rw [Json.map_decode_eq_iff hc, StableNumbers]
  constructor
  · exact fun h => h k hk
  · intro h k' hk'
    rw [hk] at hk'
    rwa [← Option.some.inj hk']

/-! ## what is sent, and what comes back -/

/-- what is hashed for an entry: its document, and the one that is reported back. -/
def entryTexts (codec : FloatCodec) (e : ModelFileEntry NumberLit) : List Text :=
  match kwargsDoc (fun n => n) e with
  | some k => canonicalText (entryDoc e k) ::
      ((k.decode codec.parse).map fun v => canonicalText (entryDoc e (v.map codec.format))).toList
  | none => []

lemma mem_entryTexts
    (hk : kwargsDoc (fun n => n) e = some k) : canonicalText (entryDoc e k) ∈ entryTexts codec e := by
  rw [entryTexts, hk]
  exact mem_cons_self

/-- the hashes of entries that are in the catalog; no two of the texts have one hash. -/
structure Listed (cm : CaseMap) (hash : Text → Hash32) (codec : FloatCodec) (texts : List Text)
    (catalog : List ModelFile) (entries : List (ModelFileEntry NumberLit)) (hashes : List Hash32) : Prop where
  free : ∀ s ∈ texts, ∀ t ∈ texts, hash s = hash t → s = t
  rows : ∀ f ∈ catalog, canonicalText f.canonicalJSON ∈ texts
  reports : ∀ e ∈ entries, ∀ t ∈ entryTexts codec e, t ∈ texts
  ok : CatalogOk hash catalog
  derived : ∀ e ∈ entries, DerivedEntry cm e ∧ e.revision ≠ []
  hash_of : ∀ e ∈ entries, ∃ x ∈ hashes, e.modelFileHash cm hash (fun n => n) = some x
  entry_of : ∀ x ∈ hashes, ∃ e ∈ entries, e.modelFileHash cm hash (fun n => n) = some x
  row_of : ∀ x ∈ hashes, ∃ f ∈ catalog, f.modelFileHash = x

/-- what is sent for a hash: the entry `e` with the arguments `k`, read as `m`. -/
structure Sent (hash : Text → Hash32) (e : ModelFileEntry NumberLit) (k : List (Text × Json NumberLit))
    (m : List (Text × Json codec.Value)) (x : Hash32) : Prop where
  kwargs : kwargsDoc (fun n => n) e = some (.obj k)
  hash_eq : x = hash (canonicalText (entryDoc e (.obj k)))
  decode : (Json.obj k).decode codec.parse = some (.obj m)

variable {texts : List Text} {catalog : List ModelFile} {entries : List (ModelFileEntry NumberLit)}
  {hashes : List Hash32}

lemma Sent.mem_entryTexts {k : List (Text × Json NumberLit)}
    {m : List (Text × Json codec.Value)} (h : Sent hash e k m x) :
    canonicalText (entryDoc e ((Json.obj m).map codec.format)) ∈ entryTexts codec e := by
  rw [entryTexts, h.kwargs]
  simp only [h.decode]
  exact mem_cons_of_mem _ mem_cons_self

section
variable (hl : Listed cm hash codec texts catalog entries hashes)
include hl

lemma Listed.hash_eq (he : e ∈ entries) (hx : e.modelFileHash cm hash (fun n => n) = some x)
    (hk : kwargsDoc (fun n => n) e = some k) : x = hash (canonicalText (entryDoc e k)) := by
  obtain ⟨hd, hrev⟩ := hl.derived e he
  rw [modelFileHash_eq hd hrev hk] at hx
  exact (Option.some.inj hx).symm

lemma Listed.lookup_eq (he : e ∈ entries) (hx : x ∈ hashes)
    (hex : e.modelFileHash cm hash (fun n => n) = some x) (hk : kwargsDoc (fun n => n) e = some k) :
    ((catalog.find? fun g => g.modelFileHash = x).bind (entry codec)) =
      decodeEntry codec (entryDoc e k) := by
  cases hfind : catalog.find? fun g => g.modelFileHash = x with
  | none =>
    obtain ⟨f, hf, hfx⟩ := hl.row_of x hx
    exact absurd (decide_eq_true hfx) (find?_eq_none.1 hfind f hf)
  | some g =>
    have hfound := find?_some hfind
    have hg := mem_of_find?_eq_some hfind
    have hdoc : g.canonicalJSON = entryDoc e k := by
      refine canonicalText_inj (hl.free _ (hl.rows g hg) _ (hl.reports e he _ (mem_entryTexts hk)) ?_)
      rw [← hl.ok g hg, of_decide_eq_true hfound, hl.hash_eq he hex hk]
    rw [Option.bind_some, entry, hdoc]

variable {files : List (ModelFileEntry codec.Value)} (h : loadModelFileEntries codec catalog hashes = some files)
include h

lemma Listed.sent :
    (∀ x ∈ hashes, ∃ e ∈ entries, ∃ k m, Sent hash e k m x ∧ floatEntry e m ∈ files) ∧
      ∀ e' ∈ files, ∃ e ∈ entries, ∃ k m x, Sent hash e k m x ∧ e' = floatEntry e m := by
  have hsent : ∀ x ∈ hashes, ∀ e',
      ((catalog.find? fun g => g.modelFileHash = x).bind (entry codec)) = some e' →
      ∃ e ∈ entries, ∃ k m, Sent hash e k m x ∧ e' = floatEntry e m := by
    intro x hx e' he'
    obtain ⟨e, he, hex⟩ := hl.entry_of x hx
    obtain ⟨k, hk, -⟩ := kwargsDoc_obj (fun n => n) e
    rw [hl.lookup_eq he hx hex hk] at he'
    obtain ⟨m, hm, rfl⟩ := decodeEntry_eq_some.1 he'
    exact ⟨e, he, k, m, ⟨hk, hl.hash_eq he hex hk, hm⟩, rfl⟩
  obtain ⟨hleft, hright⟩ := mem_of_forall₂ (mapM_eq_some_iff.1 h)
  refine ⟨fun x hx => ?_, fun e' he' => ?_⟩
  · obtain ⟨e', he', hx'⟩ := hleft x hx
    obtain ⟨e, he, k, m, hs, rfl⟩ := hsent x hx e' hx'
    exact ⟨e, he, k, m, hs, he'⟩
  · obtain ⟨x, hx, hx'⟩ := hright e' he'
    obtain ⟨e, he, k, m, hs, heq⟩ := hsent x hx e' hx'
    exact ⟨e, he, k, m, x, hs, heq⟩

/-- **the round trip is the report of the entries that were sent.** -/
theorem Listed.roundTrip_eq :
    roundTrip cm hash codec catalog hashes = buildHeldModelFiles cm hash codec files := by
  have hback : ∀ e' ∈ files, decodeEntry codec (entryDocument codec e') = some e' := by
    intro e' he'
    obtain ⟨e, -, k, m, x, hs, rfl⟩ := (hl.sent h).2 e' he'
    exact decodeEntry_entryDocument e (Json.canonical_of_decode hs.decode)
  have hdocs : (downloadModelEvent codec files).mapM (decodeEntry codec) = some files := by
    rw [mapM_eq_some_iff, downloadModelEvent, forall₂_map_left_iff, forall₂_same]
    exact hback
  rw [roundTrip, h, Option.bind_some, reportDocuments, hdocs, Option.bind_some]

lemma Listed.held : ∃ held, roundTrip cm hash codec catalog hashes = some held ∧
      ∀ x, x ∈ held.map modelFileHash ↔ ∃ e ∈ files, FileHash hash e x := by
  have hfiles : ∀ e ∈ files, DerivedEntry cm e ∧ e.revision ≠ [] := by
    intro e' he'
    obtain ⟨e, he, k, m, x, hs, rfl⟩ := (hl.sent h).2 e' he'
    obtain ⟨hd, hrev⟩ := hl.derived e he
    exact ⟨hd.floatEntry m, hrev⟩
  obtain ⟨held, hheld, hiff⟩ := buildHeld_loop hash hfiles []
  rw [hl.roundTrip_eq h]
  exact ⟨held, hheld, fun x => (hiff x).trans (or_iff_right not_mem_nil)⟩

end

lemma Sent.fileHash_iff {k : List (Text × Json NumberLit)}
    {m : List (Text × Json codec.Value)} {x y : Hash32} (h : Sent hash e k m x) :
    FileHash hash (floatEntry e m) y ↔
      y = hash (canonicalText (entryDoc e ((Json.obj m).map codec.format))) := by
  have hk : kwargsDoc codec.format (floatEntry e m) = some ((Json.obj m).map codec.format) :=
    Json.decode_map (f := some) (g := codec.format) (h := codec.format) (fun _ => rfl)
      (Json.canonical_of_decode h.decode)
  constructor
  · rintro ⟨k', hk', hy⟩
    rw [hk] at hk'
    rw [hy, ← Option.some.inj hk']
    rfl
  · exact fun hy => ⟨_, hk, hy⟩

/-- **what comes back covers what was sent exactly if all numbers are stable.** -/
theorem covered_iff (hl : Listed cm hash codec texts catalog entries hashes) :
    (∃ held, roundTrip cm hash codec catalog hashes = some held ∧
      ∀ x ∈ hashes, x ∈ held.map modelFileHash) ↔
      ∀ e ∈ entries, StableNumbers codec e := by
  constructor
  · rintro ⟨held, hheld, hcov⟩ e he
    obtain ⟨files, hfiles, -⟩ := Option.bind_eq_some_iff.1 hheld
    obtain ⟨held', hheld', hiff⟩ := hl.held hfiles
    obtain rfl : held' = held := Option.some.inj (hheld'.symm.trans hheld)
    obtain ⟨k, hk, hc⟩ := kwargsDoc_obj (fun n => n) e
    obtain ⟨x, hx, hex⟩ := hl.hash_of e he
    obtain ⟨e', he', hfile⟩ := (hiff x).1 (hcov x hx)
    obtain ⟨e2, he2, k2, m2, x2, hs, rfl⟩ := (hl.sent hfiles).2 e' he'
    have htext := hs.fileHash_iff.1 hfile
    rw [hl.hash_eq he hex hk] at htext
    have hkm : Json.obj k = (Json.obj m2).map codec.format :=
      entryDoc_inj (canonicalText_inj (hl.free _ (hl.reports e he _ (mem_entryTexts hk)) _
        (hl.reports e2 he2 _ hs.mem_entryTexts) htext))
    -- the arguments of `e` are those of a report, so their numbers are written as floats
    rw [stableNumbers_iff hk hc, hkm, decode_map_format (Json.canonical_of_decode hs.decode)]
    rfl
  · intro hstable
    have hload : ∃ files, loadModelFileEntries codec catalog hashes = some files := by
      refine exists_mapM fun x hx => ?_
      obtain ⟨e, he, hex⟩ := hl.entry_of x hx
      obtain ⟨k, hk, hc⟩ := kwargsDoc_obj (fun n => n) e
      obtain ⟨v, hv, -⟩ := Option.map_eq_some_iff.1 ((stableNumbers_iff hk hc).1 (hstable e he))
      have hobj := hv
      obtain ⟨m, -, rfl⟩ := Option.map_eq_some_iff.1 hobj
      rw [hl.lookup_eq he hx hex hk]
      exact ⟨_, decodeEntry_eq_some.2 ⟨_, hv, rfl⟩⟩
    obtain ⟨files, hfiles⟩ := hload
    obtain ⟨held, hheld, hiff⟩ := hl.held hfiles
    refine ⟨held, hheld, fun x hx => (hiff x).2 ?_⟩
    obtain ⟨e, he, k, m, hs, hmem⟩ := (hl.sent hfiles).1 x hx
    obtain ⟨k', hk', hc⟩ := kwargsDoc_obj (fun n => n) e
    obtain rfl : k' = k := Json.obj.inj (Option.some.inj (hk'.symm.trans hs.kwargs))
    have hback := (stableNumbers_iff hs.kwargs hc).1 (hstable e he)
    rw [hs.decode, Option.map_some, Option.some.injEq] at hback
    refine ⟨_, hmem, hs.fileHash_iff.2 ?_⟩
    rw [hback]
    exact hs.hash_eq

end CrynuxRelay

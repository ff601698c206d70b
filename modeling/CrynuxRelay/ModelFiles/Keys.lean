import CrynuxRelay.Matching.Coverage

/-!
# Keys of requirement sets

* `decode_encode` -- a list of hashes comes back sorted and without duplicates;
* `documents_differ` -- the documents with and without a revision are different ones;
* `requirement_keys` -- **two requirement sets of tasks have one key exactly if they are the same**, while
  nothing that is hashed for them collides.
-/

namespace CrynuxRelay

open List ModelFileEntry Option

variable {cm : CaseMap} {l l' : List Hash32} {entries entries' : List (ModelFileEntry NumberLit)}

/-! ## lists of hashes as bytes -/

lemma length_hashBytes (w h : Nat) : (hashBytes w h).length = w := by
  induction w generalizing h with
  | zero => rfl
  | succ w ih => rw [hashBytes, length_append, ih, length_singleton]

lemma setBytes_concat (data : List (Fin 256)) (b : Fin 256) :
    setBytes (data ++ [b]) = 256 * setBytes data + b := by
  simp [setBytes]

lemma setBytes_hashBytes {w h : Nat} (hh : h < 256 ^ w) : setBytes (hashBytes w h) = h := by
  induction w generalizing h with
  | zero => exact (Nat.lt_one_iff.1 hh).symm
  | succ w ih =>
    have hdiv : setBytes (hashBytes w (h / 256)) = h / 256 := ih (by omega)
    rw [hashBytes, setBytes_concat, hdiv]
    exact Nat.div_add_mod h 256

lemma cutHashes_flatMap (hl : ∀ h ∈ l, h < 256 ^ 32) :
    cutHashes l.length (l.flatMap (hashBytes 32)) = l := by
  induction l with
  | nil => rfl
  | cons h l ih =>
    rw [forall_mem_cons] at hl
    rw [flatMap_cons, length_cons, cutHashes, take_left' (length_hashBytes 32 h),
      drop_left' (length_hashBytes 32 h), setBytes_hashBytes hl.1, ih hl.2]

lemma decode_encode (hl : ∀ h ∈ l, h < 256 ^ 32) :
    decodeHashList (encodeHashList l) = some (sortedUniqueHashes l) := by
  have hlen : (encodeHashList l).length = (sortedUniqueHashes l).length * 32 := by
    simp only [encodeHashList, length_flatMap, length_hashBytes, map_const', sum_replicate_nat]
  rw [decodeHashList, hlen, if_neg (by omega), Nat.mul_div_cancel _ (by decide), encodeHashList,
    cutHashes_flatMap fun h hh => hl h (mem_sortedUniqueHashes.1 hh)]

lemma encode_congr (h : ∀ x, x ∈ l ↔ x ∈ l') : encodeHashList l = encodeHashList l' := by
  rw [encodeHashList, encodeHashList, @Keyset.eq_of_pairwise_lt _ _ _ id _ _ (pairwise_sortedUniqueHashes l)
    (pairwise_sortedUniqueHashes l') fun x => ?_]
  rw [mem_sortedUniqueHashes, mem_sortedUniqueHashes, h]

lemma encode_inj (hl : ∀ h ∈ l, h < 256 ^ 32) (hl' : ∀ h ∈ l', h < 256 ^ 32)
    (h : encodeHashList l = encodeHashList l') (x : Hash32) : x ∈ l ↔ x ∈ l' := by
  have heq := congrArg decodeHashList h
  rw [decode_encode hl, decode_encode hl', some.injEq] at heq
  rw [← mem_sortedUniqueHashes, heq, mem_sortedUniqueHashes]

/-! ## what is hashed -/

def utf8 (s : Text) : List (Fin 256) := (s.flatMap String.utf8EncodeChar).map UInt8.toFin

lemma utf8_injective : Function.Injective utf8 := by
  intro s s' h
  have hbytes : s.flatMap String.utf8EncodeChar = s'.flatMap String.utf8EncodeChar :=
    map_injective_iff.2 (fun _ _ => UInt8.toFin_inj.1) h
  have hs : String.ofList s = String.ofList s' := by
    rw [← String.toByteArray_inj, String.toByteArray_ofList, String.toByteArray_ofList, utf8Encode,
      utf8Encode, hbytes]
  rw [← String.toList_ofList (l := s), hs, String.toList_ofList]

/-- the document of the exact hash of an entry with a revision, of the source hash of any other. -/
def requiredDocument (cm : CaseMap) (e : ModelFileEntry NumberLit) : Option (Json NumberLit) :=
  if e.revision ≠ [] then e.canonicalJSON cm (fun n => n) else e.sourceCanonicalJSON cm (fun n => n)

/-- what is hashed for the requirements of the entries: their documents, and the bytes of the hashes. -/
def hashedBytes (cm : CaseMap) (sha256 : List (Fin 256) → Hash32)
    (entries : List (ModelFileEntry NumberLit)) : List (List (Fin 256)) :=
  entries.filterMap (fun e => (requiredDocument cm e).map fun doc => utf8 (canonicalText doc)) ++
    ((deriveRequiredHashes cm (fun s => sha256 (utf8 s)) entries).map fun r =>
      encodeHashList (r.1 ++ r.2)).toList

lemma documents_differ {e e' : ModelFileEntry NumberLit} {d d' : Json NumberLit} (hd : DerivedEntry cm e)
    (hd' : DerivedEntry cm e') (h : e.canonicalJSON cm (fun n => n) = some d)
    (h' : e'.sourceCanonicalJSON cm (fun n => n) = some d') : d ≠ d' := by
  obtain ⟨k, hk, -⟩ := kwargsDoc_obj (fun n => n) e
  obtain ⟨k', hk', -⟩ := kwargsDoc_obj (fun n => n) e'
  have hrev : e.revision ≠ [] := by
    intro hnil
    rw [canonicalJSON, if_pos hnil] at h
    cases h
  rw [canonicalJSON_eq hd hrev hk] at h
  have hk' : ((kwargsJson (some (e'.formatKwargs.getD []))).map (fun n => n)).decode some =
      some (.obj k') := hk'
  rw [sourceCanonicalJSON, canonicalDocument, canonicalObject, normalized, hd'.repository] at h'
  simp only [Bool.false_eq_true, if_false, append_nil, Json.map, Json.mapFields, Json.decode,
    Json.decodeFields, hk', bind_some, map_some] at h'
  rw [← some.inj h, ← some.inj h', entryDoc]
  intro heq
  exact absurd (show 5 = 4 from congrArg List.length (Json.obj.inj heq)) (by decide)

/-! ## keys -/

section
variable {sha256 : List (Fin 256) → Hash32} {exact source exact' source' : List Hash32}
  {inputs : List (List (Fin 256))}

/-- the hashes are those of documents of entries, with a revision and without one. -/
structure Required (cm : CaseMap) (sha256 : List (Fin 256) → Hash32) (inputs : List (List (Fin 256)))
    (exact source : List Hash32) : Prop where
  exact : ∀ x ∈ exact, ∃ e d, DerivedEntry cm e ∧ e.canonicalJSON cm (fun n => n) = some d ∧
    utf8 (canonicalText d) ∈ inputs ∧ sha256 (utf8 (canonicalText d)) = x
  source : ∀ x ∈ source, ∃ e d, DerivedEntry cm e ∧ e.sourceCanonicalJSON cm (fun n => n) = some d ∧
    utf8 (canonicalText d) ∈ inputs ∧ sha256 (utf8 (canonicalText d)) = x

lemma Required.apart (hfree : ∀ a ∈ inputs, ∀ b ∈ inputs, sha256 a = sha256 b → a = b)
    (h : Required cm sha256 inputs exact source) (h' : Required cm sha256 inputs exact' source') :
    ∀ x ∈ exact, x ∉ source' := by
  intro x hx hx'
  obtain ⟨e, d, hd, hdoc, hin, hsha⟩ := h.exact x hx
  obtain ⟨e', d', hd', hdoc', hin', hsha'⟩ := h'.source x hx'
  have htext := utf8_injective (hfree _ hin _ hin' (hsha.trans hsha'.symm))
  exact documents_differ hd hd' hdoc hdoc' (canonicalText_inj htext)

lemma Required.lt (hsize : ∀ b, sha256 b < 256 ^ 32) (h : Required cm sha256 inputs exact source) :
    ∀ x ∈ exact ++ source, x < 256 ^ 32 := by
  intro x hx
  rcases mem_append.1 hx with hx | hx
  · obtain ⟨e, d, -, -, -, rfl⟩ := h.exact x hx
    exact hsize _
  · obtain ⟨e, d, -, -, -, rfl⟩ := h.source x hx
    exact hsize _

lemma required_of_entries (hd : ∀ e ∈ entries, DerivedEntry cm e)
    (hinputs : ∀ b ∈ hashedBytes cm sha256 entries, b ∈ inputs) :
    ∃ exact source, deriveRequiredHashes cm (fun s => sha256 (utf8 s)) entries = some (exact, source) ∧
      encodeHashList (exact ++ source) ∈ inputs ∧ Required cm sha256 inputs exact source := by
  obtain ⟨exact, source, hr, hexact, hsource⟩ := deriveRequiredHashes_spec (fun s => sha256 (utf8 s)) hd
  have hin : ∀ e ∈ entries, ∀ d, requiredDocument cm e = some d → utf8 (canonicalText d) ∈ inputs :=
    fun e he d hdoc =>
      hinputs _ (mem_append_left _ (mem_filterMap.2 ⟨e, he, by rw [hdoc, map_some]⟩))
  refine ⟨exact, source, hr, hinputs _ (mem_append_right _ (by simp [hr])), fun x hx => ?_, fun x hx => ?_⟩
  · obtain ⟨e, he, hrev, hh⟩ := (hexact x).1 hx
    obtain ⟨d, hdoc, hsha⟩ := map_eq_some_iff.1 hh
    exact ⟨e, d, hd e he, hdoc, hin e he d ((if_pos hrev).trans hdoc), hsha⟩
  · obtain ⟨e, he, hrev, hh⟩ := (hsource x).1 hx
    obtain ⟨d, hdoc, hsha⟩ := map_eq_some_iff.1 hh
    exact ⟨e, d, hd e he, hdoc, hin e he d ((if_neg (not_not.2 hrev)).trans hdoc), hsha⟩

end

/-- entries of a task, with the revisions that are resolved later. -/
def TaskEntries (cm : CaseMap) (entries : List (ModelFileEntry NumberLit)) : Prop :=
  ∃ args taskType revisions derived, deriveEntries cm args taskType = some derived ∧
    resolveRevisions cm derived revisions = some entries

lemma TaskEntries.derived (h : TaskEntries cm entries) : ∀ e ∈ entries, DerivedEntry cm e := by
  obtain ⟨args, taskType, revisions, derived, hder, hres⟩ := h
  exact derivedEntry_of_resolveRevisions (derivedEntry_of_deriveEntries hder) hres

/-- **sets of hashes read back, and keys tell requirement sets apart**: a list comes back as the sorted list
of its set, only bytes of a wrong length are rejected, a key does not depend on order and repetition, and
the sets that two tasks require have one key exactly if they have the same exact and source hashes. -/
theorem requirement_keys (cm : CaseMap) {sha256 : List (Fin 256) → Hash32}
    (hsize : ∀ b, sha256 b < 256 ^ 32) :
    (∀ hashes : List Hash32, (∀ h ∈ hashes, h < 256 ^ 32) → ∃ set,
      decodeHashList (encodeHashList hashes) = some set ∧ set.Pairwise (· < ·) ∧ ∀ h, h ∈ set ↔ h ∈ hashes) ∧
    (∀ data, decodeHashList data = none ↔ data.length % 32 ≠ 0) ∧
    (∀ exact source exact' source', (∀ x, x ∈ exact ↔ x ∈ exact') → (∀ x, x ∈ source ↔ x ∈ source') →
      distributionKey sha256 exact source = distributionKey sha256 exact' source') ∧
    ∀ entries entries', TaskEntries cm entries → TaskEntries cm entries' →
      (∀ a ∈ hashedBytes cm sha256 entries ++ hashedBytes cm sha256 entries',
        ∀ b ∈ hashedBytes cm sha256 entries ++ hashedBytes cm sha256 entries',
          sha256 a = sha256 b → a = b) →
      ∃ exact source exact' source',
        deriveRequiredHashes cm (fun s => sha256 (utf8 s)) entries = some (exact, source) ∧
        deriveRequiredHashes cm (fun s => sha256 (utf8 s)) entries' = some (exact', source') ∧
        (distributionKey sha256 exact source = distributionKey sha256 exact' source' ↔
          (∀ x, x ∈ exact ↔ x ∈ exact') ∧ ∀ x, x ∈ source ↔ x ∈ source') := by
  have hkey : ∀ exact source exact' source' : List Hash32, (∀ x, x ∈ exact ↔ x ∈ exact') →
      (∀ x, x ∈ source ↔ x ∈ source') →
      distributionKey sha256 exact source = distributionKey sha256 exact' source' := by
    intro exact source exact' source' he hs
    refine congrArg sha256 (encode_congr fun x => ?_)
    rw [mem_append, mem_append, he, hs]
  refine ⟨fun l hl => ⟨_, decode_encode hl, pairwise_sortedUniqueHashes l, fun h => mem_sortedUniqueHashes⟩,
    fun data => by simp [decodeHashList], hkey, fun entries entries' ht ht' hfree => ?_⟩
  obtain ⟨exact, source, hr, hin, h⟩ := required_of_entries ht.derived fun _ => mem_append_left _
  obtain ⟨exact', source', hr', hin', h'⟩ := required_of_entries ht'.derived fun _ => mem_append_right _
  refine ⟨exact, source, exact', source', hr, hr', fun heq => ?_, fun hsets => hkey _ _ _ _ hsets.1 hsets.2⟩
  have hmem := encode_inj (h.lt hsize) (h'.lt hsize) (hfree _ hin _ hin' heq)
  have hapart := h.apart hfree h'
  have hapart' := h'.apart hfree h
  simp only [mem_append] at hmem
  exact ⟨fun x => by grind, fun x => by grind⟩

def plainEntries (revision : Text) : List (ModelFileEntry NumberLit) :=
  [taskEntry plainCase "org/model".toList (some revision) [] (some [])]

def byteSum (b : List (Fin 256)) : Hash32 := (b.map (·.val)).sum % 256 ^ 32

theorem requirement_keys_of_revision : ∃ exact source exact' source',
    deriveRequiredHashes plainCase (fun s => byteSum (utf8 s)) (plainEntries []) = some (exact, source) ∧
    deriveRequiredHashes plainCase (fun s => byteSum (utf8 s)) (plainEntries sampleSHA) =
      some (exact', source') ∧
    (distributionKey byteSum exact source = distributionKey byteSum exact' source' ↔
      (∀ x, x ∈ exact ↔ x ∈ exact') ∧ ∀ x, x ∈ source ↔ x ∈ source') := by
  have htask (revision : Text) : TaskEntries plainCase (plainEntries revision) :=
    ⟨⟨"org/model".toList, some revision, none, []⟩, .llm, [], _, rfl, rfl⟩
  have hsize (b : List (Fin 256)) : byteSum b < 256 ^ 32 := Nat.mod_lt _ (Nat.pow_pos (by decide))
  exact (requirement_keys plainCase hsize).2.2.2 _ _ (htask []) (htask sampleSHA) (by decide +kernel)

end CrynuxRelay

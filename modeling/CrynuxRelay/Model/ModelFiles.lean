import CrynuxRelay.Base.Canonical
import CrynuxRelay.Model.Erc20Deposits
import CrynuxRelay.Model.SignedRequests
import CrynuxRelay.Model.Matching

/-!
# Model files

The files that a task needs are derived from its arguments, with numbers kept as they are written.  Their
entries go into a catalog as canonical JSON, from there into the events that ask nodes to download them,
and come back in the reports of the nodes; on that way numbers are floats.  Files are recognised by the
hash of their canonical JSON.

* `deriveEntries`, `resolveRevisions`, `deriveRequiredHashes` -- what a task requires;
* `canonicalDocument`, `canonicalText`, `newModelFile` -- canonical JSON, and rows of the catalog;
* `encodeHashList`, `decodeHashList`, `distributionKey` -- sets of hashes as bytes, and their keys;
* `ModelFile.entry`, `downloadModelEvent`, `buildHeldModelFiles` -- the way to a node and back.
-/

namespace CrynuxRelay

/-- a case mapping of characters. -/
structure CaseMap where
  lower : Char → Char
  lower_lower : ∀ c, lower (lower c) = lower c

def modelSourceTypeHuggingFace : Text := "huggingface".toList
def imageBaseModelFormat : Text := "diffusers".toList

section

variable (cm : CaseMap)

/-! ## names and revisions -/

/-- names are in lower case, except for those that are URLs. -/
def normalizeModelName (name : Text) : Text :=
  if "http://".toList.isPrefixOf name || "https://".toList.isPrefixOf name then name
  else name.map cm.lower

def isCommitSHA (revision : Text) : Bool :=
  revision.length == 40 && revision.all fun c => (hexDigit c).isSome

def normalizeCommitRevision (revision : Text) : Text :=
  if isCommitSHA revision then revision.map cm.lower else revision

/-! ## canonical JSON -/

section

variable {ν : Type} (hash : Text → Hash32) (number : ν → NumberLit)

def ModelFileEntry.normalized (e : ModelFileEntry ν) : ModelFileEntry ν :=
  { e with
    repository := normalizeModelName cm e.repository
    revision := normalizeCommitRevision cm e.revision
    formatKwargs := some (e.formatKwargs.getD []) }

def kwargsJson (kwargs : Option (List (Text × Json ν))) : Json ν := (kwargs.map .obj).getD .null

def ModelFileEntry.canonicalObject (e : ModelFileEntry ν) (withRevision : Bool) : Json ν :=
  let normalized := e.normalized cm
  .obj ([("source_type".toList, .str normalized.sourceType),
      ("repository".toList, .str normalized.repository),
      ("format".toList, .str normalized.format),
      ("format_kwargs".toList, kwargsJson normalized.formatKwargs)] ++
    if withRevision then [("revision".toList, .str normalized.revision)] else [])

/-- control characters have codes; nothing is escaped for HTML. -/
def canonicalEscape : Char → Text := escapeWith escapeLetter fun c => c.toNat < 0x20

/-- a value marshalled, with `number` for its numbers, and decoded with its numbers as texts. -/
def canonicalDocument (v : Json ν) : Option (Json NumberLit) := (v.map number).decode some

def canonicalText (doc : Json NumberLit) : Text := doc.render NumberLit.text canonicalEscape

def ModelFileEntry.canonicalJSON (e : ModelFileEntry ν) : Option (Json NumberLit) :=
  if e.revision = [] then none else canonicalDocument number (e.canonicalObject cm true)

def ModelFileEntry.sourceCanonicalJSON (e : ModelFileEntry ν) : Option (Json NumberLit) :=
  canonicalDocument number (e.canonicalObject cm false)

def ModelFileEntry.modelFileHash (e : ModelFileEntry ν) : Option Hash32 :=
  (e.canonicalJSON cm number).map fun doc => hash (canonicalText doc)

def ModelFileEntry.modelFileSourceHash (e : ModelFileEntry ν) : Option Hash32 :=
  (e.sourceCanonicalJSON cm number).map fun doc => hash (canonicalText doc)

structure ModelFile where
  modelFileHash : Hash32
  modelFileSourceHash : Hash32
  canonicalJSON : Json NumberLit

def newModelFile (e : ModelFileEntry ν) : Option ModelFile :=
  let e := e.normalized cm
  (e.modelFileHash cm hash number).bind fun h =>
    (e.modelFileSourceHash cm hash number).bind fun s =>
      (e.canonicalJSON cm number).map fun doc =>
        { modelFileHash := h, modelFileSourceHash := s, canonicalJSON := doc }

def upsertModelFiles (catalog files : List ModelFile) : List ModelFile :=
  files.foldl (fun catalog f =>
    if catalog.any fun g => g.modelFileHash = f.modelFileHash then catalog else catalog ++ [f]) catalog

end

/-! ## requirements of a task -/

structure TaskArgsModelSource where
  name : Text
  revision : Option Text

structure TaskArgsComponent where
  format : Text
  repo : Text
  revision : Option Text
  formatKwargs : Option (List (Text × Json NumberLit))

structure TaskArgsModelFiles where
  model : Text
  revision : Option Text
  baseModel : Option TaskArgsModelSource
  components : List (Text × TaskArgsComponent)

def taskEntry (name : Text) (revision : Option Text) (format : Text)
    (kwargs : Option (List (Text × Json NumberLit))) : ModelFileEntry NumberLit where
  sourceType := modelSourceTypeHuggingFace
  repository := normalizeModelName cm name
  revision := normalizeCommitRevision cm (revision.getD [])
  format := format
  formatKwargs := kwargs

/-- the entries of `DeriveTaskModelRequirements`. -/
def deriveEntries (args : TaskArgsModelFiles) : TaskType → Option (List (ModelFileEntry NumberLit))
  | .llm =>
    if args.model = [] then none
    else some [taskEntry cm args.model args.revision [] (some [])]
  | .sd =>
    args.baseModel.bind fun base =>
      if base.name = [] then none
      else if args.components.any fun p => p.1 = [] ∨ p.2.format = [] ∨ p.2.repo = [] then none
      else some (taskEntry cm base.name base.revision imageBaseModelFormat (some []) ::
        args.components.map fun p =>
          taskEntry cm p.2.repo p.2.revision p.2.format p.2.formatKwargs)
  | .sdFTLora => none

/-- revisions that are resolved later, by the index of their entry. -/
def resolveRevisions (entries : List (ModelFileEntry NumberLit)) (revisions : List (Nat × Text)) :
    Option (List (ModelFileEntry NumberLit)) :=
  revisions.foldlM (fun entries p =>
    if p.1 < entries.length then
      some (entries.modify p.1 fun e => { e with revision := normalizeCommitRevision cm p.2 })
    else none) entries

section

variable (hash : Text → Hash32)

def taskModelFiles (entries : List (ModelFileEntry NumberLit)) : Option (List ModelFile) :=
  (entries.filter fun e => e.revision ≠ []).mapM (newModelFile cm hash fun n => n)

def hashesOfEntries : List (ModelFileEntry NumberLit) → Option (List Hash32 × List Hash32)
  | [] => some ([], [])
  | e :: l =>
    if e.revision ≠ [] then
      (e.modelFileHash cm hash fun n => n).bind fun h =>
        (hashesOfEntries l).map fun r => (h :: r.1, r.2)
    else
      (e.modelFileSourceHash cm hash fun n => n).bind fun h =>
        (hashesOfEntries l).map fun r => (r.1, h :: r.2)

def deriveRequiredHashes (entries : List (ModelFileEntry NumberLit)) : Option (List Hash32 × List Hash32) :=
  (hashesOfEntries cm hash entries).map fun r => (sortedUniqueHashes r.1, sortedUniqueHashes r.2)

/-! ## sets of hashes -/

lemma mod_byte_lt (h : Nat) : h % 256 < 256 := Nat.mod_lt h (by decide)

/-- the `w` lowest bytes of a number, the highest one first. -/
def hashBytes : Nat → Nat → List (Fin 256)
  | 0, _ => []
  | w + 1, h => hashBytes w (h / 256) ++ [⟨h % 256, mod_byte_lt h⟩]

def encodeHashList (hashes : List Hash32) : List (Fin 256) := (sortedUniqueHashes hashes).flatMap (hashBytes 32)

/-- the loop of `DecodeHashList`, for the given number of hashes. -/
def cutHashes : Nat → List (Fin 256) → List Hash32
  | 0, _ => []
  | n + 1, data => setBytes (data.take 32) :: cutHashes n (data.drop 32)

def decodeHashList (data : List (Fin 256)) : Option (List Hash32) :=
  if data.length % 32 ≠ 0 then none else some (cutHashes (data.length / 32) data)

def distributionKey (sha256 : List (Fin 256) → Hash32) (exact source : List Hash32) : Hash32 :=
  sha256 (encodeHashList (exact ++ source))

/-! ## to a node and back -/

variable (codec : FloatCodec)

def textField (l : List (Text × Json NumberLit)) (k : String) : Option Text :=
  match Json.get k.toList l with
  | none => some []
  | some .null => some []
  | some (.str s) => some s
  | some _ => none

/-- a map of a struct: its numbers become floats. -/
def kwargsField (l : List (Text × Json NumberLit)) (k : String) :
    Option (Option (List (Text × Json codec.Value))) :=
  match Json.get k.toList l with
  | none => some none
  | some .null => some none
  | some (.obj m) => (Json.decodeFields codec.parse m).map fun m => some (Json.toMap m)
  | some _ => none

def decodeEntry : Json NumberLit → Option (ModelFileEntry codec.Value)
  | .obj l =>
    (textField l "source_type").bind fun sourceType =>
      (textField l "repository").bind fun repository =>
        (textField l "revision").bind fun revision =>
          (textField l "format").bind fun format =>
            (kwargsField codec l "format_kwargs").map fun kwargs =>
              { sourceType := sourceType, repository := repository, revision := revision,
                format := format, formatKwargs := kwargs }
  | _ => none

def ModelFile.entry (f : ModelFile) : Option (ModelFileEntry codec.Value) :=
  decodeEntry codec f.canonicalJSON

def loadModelFileEntries (catalog : List ModelFile) (hashes : List Hash32) :
    Option (List (ModelFileEntry codec.Value)) :=
  hashes.mapM fun h => (catalog.find? fun f => f.modelFileHash = h).bind (ModelFile.entry codec)

def entryDocument (e : ModelFileEntry codec.Value) : Json NumberLit :=
  .obj [("source_type".toList, .str e.sourceType), ("repository".toList, .str e.repository),
    ("revision".toList, .str e.revision), ("format".toList, .str e.format),
    ("format_kwargs".toList, (kwargsJson e.formatKwargs).map codec.format)]

def downloadModelEvent (files : List (ModelFileEntry codec.Value)) : List (Json NumberLit) :=
  files.map (entryDocument codec)

/-- the rows of the model files that a node reports, without duplicates. -/
def buildHeldModelFiles (entries : List (ModelFileEntry codec.Value)) : Option (List ModelFile) :=
  entries.foldlM (fun files e =>
    let e := e.normalized cm
    if e.sourceType ≠ modelSourceTypeHuggingFace then none
    else if e.repository = [] then none
    else if e.revision = [] then none
    else (newModelFile cm hash codec.format e).map fun f =>
      if files.any fun g => g.modelFileHash = f.modelFileHash then files else files ++ [f]) []

/-- what a node holds that reports the documents of an event. -/
def reportDocuments (docs : List (Json NumberLit)) : Option (List ModelFile) :=
  (docs.mapM (decodeEntry codec)).bind (buildHeldModelFiles cm hash codec)

/-- what a node holds that is sent files of the catalog and reports them as it received them. -/
def roundTrip (catalog : List ModelFile) (hashes : List Hash32) : Option (List ModelFile) :=
  (loadModelFileEntries codec catalog hashes).bind fun files =>
    reportDocuments cm hash codec (downloadModelEvent codec files)

end

end

end CrynuxRelay

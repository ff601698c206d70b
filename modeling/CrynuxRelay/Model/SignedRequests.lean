import CrynuxRelay.Base.Float64

/-!
# Signed requests

A signed request carries an input, a timestamp and a signature.  The input is marshalled, decoded again
into maps and floats and marshalled a second time; the signature is over that text and the timestamp.

* `V1Input` -- the inputs of signed endpoints;
* `V1Request`, `V1Request.payload` -- the endpoints, and the input of a request as a JSON object;
* `jsonRemarshal`, `signBytes` -- the text that is hashed and verified;
* `validateSignature` -- the address that a signature is from.
-/

namespace CrynuxRelay

/-! ## inputs -/

/-- a task as its handler has decoded it: the fee is a number. -/
structure SignedTaskInput where
  taskIDCommitment : Text
  taskArgs : Text
  taskType : Nat
  nonce : Text
  minVram : Option Nat
  requiredGPU : Option Text
  requiredGPUVram : Option Nat
  taskFee : Int
  timeout : Nat
  queueTimeout : Option Nat

structure ValidateTaskInput where
  taskIDCommitments : List Text
  taskID : Text
  vrfProof : Text
  publicKey : Text

/-- one downloadable model source; `ν` are the numbers of its arguments. -/
structure ModelFileEntry (ν : Type) where
  sourceType : Text
  repository : Text
  revision : Text
  format : Text
  formatKwargs : Option (List (Text × Json ν))

structure BatchAbortItem where
  taskIDCommitment : Text
  abortReason : Nat

/-- the inputs that also come in batches. -/
inductive V1Item
  | task (input : SignedTaskInput)
  | validation (input : ValidateTaskInput)
  | abort (item : BatchAbortItem)

inductive V1Input
  | item (item : V1Item)
  | items (items : List V1Item)
  | taskIDCommitments (cs : List Text)
  | taskIDCommitment (c : Text)
  | score (c score executionDType : Text)
  | taskError (c : Text) (taskError : Nat)
  | address (a : Text)
  | modelFile (a : Text) (modelFile : ModelFileEntry NumberLit)
  | version (a version : Text)
  | page (startID : Nat) (limit : Int)
  | fulfill (id : Nat) (txHash : Text)
  | id (id : Nat)

/-- the requests whose signature `ValidateSignature` checks, by endpoint. -/
inductive V1Request
  | createTask (input : SignedTaskInput)
  | batchCreate (items : List SignedTaskInput)
  | batchStatus (taskIDCommitments : List Text)
  | batchValidate (items : List ValidateTaskInput)
  | batchAbort (items : List BatchAbortItem)
  | getTask (taskIDCommitment : Text)
  | uploadResult (taskIDCommitment : Text)
  | getResult (taskIDCommitment : Text)
  | getResultCheckpoint (taskIDCommitment : Text)
  | getSelectedNode (taskIDCommitment : Text)
  | getCheckpoint (taskIDCommitment : Text)
  | submitScore (taskIDCommitment score executionDType : Text)
  | validateTask (input : ValidateTaskInput)
  | abortTask (item : BatchAbortItem)
  | reportTaskError (taskIDCommitment : Text) (taskError : Nat)
  | nodeQuit (address : Text)
  | nodePause (address : Text)
  | nodeResume (address : Text)
  | addModelID (address : Text) (modelFile : ModelFileEntry NumberLit)
  | updateVersion (address version : Text)
  | getRelayAccountEventLogs (startID : Nat) (limit : Int)
  | listWithdrawRequests (startID : Nat) (limit : Int)
  | fulfillWithdrawRequest (id : Nat) (txHash : Text)
  | rejectWithdrawRequest (id : Nat)

def V1Request.input : V1Request → V1Input
  | createTask input => .item (.task input)
  | batchCreate items => .items (items.map .task)
  | batchStatus cs => .taskIDCommitments cs
  | batchValidate items => .items (items.map .validation)
  | batchAbort items => .items (items.map .abort)
  | getTask c | uploadResult c | getResult c | getResultCheckpoint c | getSelectedNode c
  | getCheckpoint c => .taskIDCommitment c
  | submitScore c score executionDType => .score c score executionDType
  | validateTask input => .item (.validation input)
  | abortTask item => .item (.abort item)
  | reportTaskError c taskError => .taskError c taskError
  | nodeQuit a | nodePause a | nodeResume a => .address a
  | addModelID a modelFile => .modelFile a modelFile
  | updateVersion a version => .version a version
  | getRelayAccountEventLogs startID limit | listWithdrawRequests startID limit =>
    .page startID limit
  | fulfillWithdrawRequest id txHash => .fulfill id txHash
  | rejectWithdrawRequest id => .id id

/-! ## payloads -/

/-- a field of an input; `none` is a field that is left out when it is empty. -/
def field (name : String) (value : Json NumberLit) : List (Text × Json NumberLit) :=
  [(name.toList, value)]

def omitEmpty (name : String) (value : Option (Json NumberLit)) : List (Text × Json NumberLit) :=
  (value.map fun v => (name.toList, v)).toList

def jsonNat (n : Nat) : Json NumberLit := .num (.ofInt n)

def jsonOption {α : Type} (f : α → Json NumberLit) (x : Option α) : Json NumberLit :=
  (x.map f).getD .null

def jsonTexts (l : List Text) : Json NumberLit := .arr (l.map .str)

def jsonBigInt (n : Int) : Json NumberLit := .str (Text.ofInt n)

def taskIDCommitmentField (c : Text) : List (Text × Json NumberLit) :=
  field "task_id_commitment" (.str c)

def addressField (a : Text) : List (Text × Json NumberLit) := field "address" (.str a)

def SignedTaskInput.fields (t : SignedTaskInput) : List (Text × Json NumberLit) :=
  taskIDCommitmentField t.taskIDCommitment ++ field "task_args" (.str t.taskArgs) ++
    field "task_type" (jsonNat t.taskType) ++ field "nonce" (.str t.nonce) ++
    field "min_vram" (jsonOption jsonNat t.minVram) ++
    field "required_gpu" (jsonOption .str t.requiredGPU) ++
    field "required_gpu_vram" (jsonOption jsonNat t.requiredGPUVram) ++
    field "task_fee" (jsonBigInt t.taskFee) ++
    omitEmpty "timeout" (if t.timeout = 0 then none else some (jsonNat t.timeout)) ++
    omitEmpty "queue_timeout" (t.queueTimeout.map jsonNat)

def ValidateTaskInput.fields (t : ValidateTaskInput) : List (Text × Json NumberLit) :=
  field "task_id_commitments" (jsonTexts t.taskIDCommitments) ++ field "task_id" (.str t.taskID) ++
    field "vrf_proof" (.str t.vrfProof) ++ field "public_key" (.str t.publicKey)

def BatchAbortItem.fields (t : BatchAbortItem) : List (Text × Json NumberLit) :=
  taskIDCommitmentField t.taskIDCommitment ++ field "abort_reason" (jsonNat t.abortReason)

def ModelFileEntry.fields (e : ModelFileEntry NumberLit) : List (Text × Json NumberLit) :=
  field "source_type" (.str e.sourceType) ++ field "repository" (.str e.repository) ++
    field "revision" (.str e.revision) ++ field "format" (.str e.format) ++
    field "format_kwargs" (jsonOption .obj e.formatKwargs)

def V1Item.fields : V1Item → List (Text × Json NumberLit)
  | .task input => input.fields
  | .validation input => input.fields
  | .abort item => item.fields

def V1Input.fields : V1Input → List (Text × Json NumberLit)
  | .item i => i.fields
  | .items l => field "items" (.arr (l.map fun i => .obj i.fields))
  | .taskIDCommitments cs => field "task_id_commitments" (jsonTexts cs)
  | .taskIDCommitment c => taskIDCommitmentField c
  | .score c s executionDType =>
    taskIDCommitmentField c ++ field "score" (.str s) ++
      omitEmpty "execution_dtype" (if executionDType = [] then none else some (.str executionDType))
  | .taskError c e => taskIDCommitmentField c ++ field "task_error" (jsonNat e)
  | .address a => addressField a
  | .modelFile a m => addressField a ++ field "model_file" (.obj m.fields)
  | .version a v => addressField a ++ field "version" (.str v)
  | .page startID limit => field "start_id" (jsonNat startID) ++ field "limit" (.num (.ofInt limit))
  | .fulfill n txHash => field "id" (jsonNat n) ++ field "tx_hash" (.str txHash)
  | .id n => field "id" (jsonNat n)

def V1Request.payload (r : V1Request) : Json NumberLit := .obj r.input.fields

/-! ## texts -/

/-- the letters of the escapes of `encoding/json`. -/
def escapeLetter (c : Char) : Option Char :=
  if c = '"' then some '"' else if c = '\\' then some '\\' else if c = '\n' then some 'n'
  else if c = '\r' then some 'r' else if c = '\t' then some 't' else if c = '\x08' then some 'b'
  else if c = '\x0c' then some 'f' else none

/-- control characters, and those that `encoding/json` escapes for HTML and for scripts. -/
def escapeCoded (c : Char) : Bool :=
  c.toNat < 0x20 ∨ c = '<' ∨ c = '>' ∨ c = '&' ∨ c.toNat = 0x2028 ∨ c.toNat = 0x2029

def marshalEscape : Char → Text := escapeWith escapeLetter escapeCoded

section

variable (codec : FloatCodec)

def jsonRemarshal (j : Json NumberLit) : Option Text :=
  (j.decode codec.parse).map (Json.render codec.text marshalEscape)

def signBytes (r : V1Request) (timestamp : Int) : Option Text :=
  (jsonRemarshal codec r.payload).map fun dataBytes => dataBytes ++ Text.ofInt timestamp

/-- the address that a signature of a message recovers to, if it verifies. -/
structure SignatureScheme where
  recover : Text → Text → Option Text

/-- a signature is checked at most a minute after or before its timestamp. -/
def validateSignature (scheme : SignatureScheme) (now : Int) (r : V1Request) (timestamp : Int)
    (signature : Text) : Option Text :=
  (signBytes codec r timestamp).bind fun message =>
    if signature.length = 132 ∧ signature.take 1 = ['0'] ∧
        ((signature.drop 1).take 1 = ['x'] ∨ (signature.drop 1).take 1 = ['X']) ∧
        (now - timestamp).natAbs ≤ 60 then
      scheme.recover message signature
    else none

end

end CrynuxRelay

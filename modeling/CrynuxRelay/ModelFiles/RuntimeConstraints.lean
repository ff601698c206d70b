import CrynuxRelay.Base.Run
import CrynuxRelay.Model.ModelFiles

/-!
# Runtime constraints of the hub

Whether a model runs on Linux CUDA only is read from its files on the hub, once for each kind of task,
and kept in memory and in a table.

* `detectLinuxCuda` -- what the files of a revision say;
* `resolveHubLinuxCudaConstraint` -- the same through both caches;
* `ConstraintStep` -- calls, restarts, and commits that move the branches of the hub;
* `CachesDetected` -- what the caches hold for a call is what detection finds for it;
* `constraints_transparent` -- **the caches cannot be seen when kinds do not share a model.**
-/

namespace CrynuxRelay

open Function List Option

variable {ν : Type} (cm : CaseMap)

/-- the errors of the client; `unexpectedStatus` wraps `modelNotFound` and is not equal to it. -/
inductive HubError
  | serviceUnavailable
  | modelNotFound
  | revisionNotFound
  | unexpectedStatus (statusCode : Nat)
deriving DecidableEq

/-- the JSON files of the hub, by repository, revision and path. -/
abbrev Hub (ν : Type) := Text → Text → Text → Except HubError (List (Text × Json ν))

inductive ConstraintKind
  | llm
  | sd
deriving DecidableEq

def ConstraintKind.text : ConstraintKind → Text
  | .llm => "llm".toList
  | .sd => "sd".toList

/-! ## detection -/

def isLinuxCudaOnlyQuantMethod (method : Text) : Bool :=
  (trimSpace method).map cm.lower ∈
    ["awq", "gptq", "gptqmodel", "nunchaku", "nunchaku_lite"].map String.toList

def quantMethodFromConfigJSON (raw : List (Text × Json ν)) : Text :=
  match Json.get "quantization_config".toList raw with
  | some (.obj cfg) =>
    match Json.get "quant_method".toList cfg with
    | some (.str method) => method
    | _ => []
  | _ => []

def detectLLMLinuxCuda (hub : Hub ν) (repository revision : Text) :
    Except HubError (Bool × Text) := do
  let cfg ← hub repository revision "config.json".toList
  pure (isLinuxCudaOnlyQuantMethod cm (quantMethodFromConfigJSON cfg), "hub_config".toList)

/-- the components that the index of a pipeline names; one without a configuration is passed over, and every
other error is returned. -/
def detectComponents (hub : Hub ν) (repository revision : Text) (index : List (Text × Json ν)) :
    List Text → Except HubError (Bool × Text)
  | [] => pure (false, "hub_model_index".toList)
  | name :: names =>
    if Json.get name index = none then detectComponents hub repository revision index names
    else
      match hub repository revision (name ++ "/config.json".toList) with
      | .error .modelNotFound | .error .revisionNotFound =>
        detectComponents hub repository revision index names
      | .error e => .error e
      | .ok cfg =>
        if isLinuxCudaOnlyQuantMethod cm (quantMethodFromConfigJSON cfg) then
          pure (true, "hub_transformer_config".toList)
        else detectComponents hub repository revision index names

def detectSDNunchakuLinuxCuda (hub : Hub ν) (repository revision : Text) :
    Except HubError (Bool × Text) := do
  let index ← hub repository revision "model_index.json".toList
  if isLinuxCudaOnlyQuantMethod cm (quantMethodFromConfigJSON index) then
    pure (true, "hub_model_index".toList)
  else
    detectComponents cm hub repository revision index ["transformer".toList, "unet".toList]

def detectLinuxCuda (hub : Hub ν) : ConstraintKind → Text → Text → Except HubError (Bool × Text)
  | .llm => detectLLMLinuxCuda cm hub
  | .sd => detectSDNunchakuLinuxCuda cm hub

/-! ## the caches -/

structure RuntimeConstraintMemoryEntry where
  requireLinuxCuda : Bool
  source : Text
  expiresAt : Time

structure ConstraintState (ν : Type) where
  memCache : Text → Option RuntimeConstraintMemoryEntry := fun _ => none
  rows : Text × Text → Option (Bool × Text) := fun _ => none
  hub : Hub ν

/-- a call with its time and the statements and requests of it that fail. -/
structure ConstraintCall where
  kind : ConstraintKind
  repository : Text
  revision : Text
  now : Time := 0
  selectFails : Bool := false
  hubFails : Bool := false
  upsertFails : Bool := false

inductive ConstraintError
  | database
  | baseModelCheckUnavailable
  | invalidBaseModel (e : HubError)
deriving DecidableEq

def runtimeConstraintTTL : Time := 5 * 60

def runtimeConstraintCacheKey (kind : ConstraintKind) (repository revision : Text) : Text :=
  kind.text ++ '|' :: (repository.map cm.lower ++ '|' :: revision)

def getRuntimeConstraintMemory (s : ConstraintState ν) (key : Text) (now : Time) :
    Option RuntimeConstraintMemoryEntry :=
  match s.memCache key with
  | none => none
  | some e => if e.expiresAt < now then none else some e

def putRuntimeConstraintMemory (s : ConstraintState ν) (key : Text) (r : Bool × Text) (now : Time) :
    ConstraintState ν :=
  { s with
    memCache := Function.update s.memCache key (some ⟨r.1, r.2, now + runtimeConstraintTTL⟩) }

def hubValidationError : HubError → ConstraintError
  | .serviceUnavailable => .baseModelCheckUnavailable
  | e => .invalidBaseModel e

def ConstraintCall.revisionOrMain (c : ConstraintCall) : Text :=
  if trimSpace c.revision = [] then "main".toList else c.revision

def ConstraintCall.key (c : ConstraintCall) : Text :=
  runtimeConstraintCacheKey cm c.kind c.repository c.revisionOrMain

def ConstraintCall.detected (c : ConstraintCall) (hub : Hub ν) : Except HubError (Bool × Text) :=
  detectLinuxCuda cm hub c.kind c.repository c.revisionOrMain

def resolveHubLinuxCudaConstraint (c : ConstraintCall) (s : ConstraintState ν) :
    Except ConstraintError Bool × ConstraintState ν :=
  match getRuntimeConstraintMemory s (c.key cm) c.now with
  | some e => (.ok e.requireLinuxCuda, s)
  | none =>
    if c.selectFails then (.error .database, s)
    else
      match s.rows (c.repository, c.revisionOrMain) with
      | some row => (.ok row.1, putRuntimeConstraintMemory s (c.key cm) row c.now)
      | none =>
        match if c.hubFails then .error .serviceUnavailable else c.detected cm s.hub with
        | .error e => (.error (hubValidationError e), s)
        | .ok r =>
          let s' := putRuntimeConstraintMemory s (c.key cm) r c.now
          if c.upsertFails then (.error .database, s')
          else
            (.ok r.1,
              { s' with rows := Function.update s'.rows (c.repository, c.revisionOrMain) (some r) })

inductive ConstraintStep (ν : Type)
  | call (c : ConstraintCall)
  | restart
  | push (hub : Hub ν)

/-- what is at a commit stays; the other revisions are names that move. -/
def Hub.pushed (hub hub' : Hub ν) : Hub ν := fun repository revision path =>
  if isCommitSHA revision then hub repository revision path else hub' repository revision path

def ConstraintStep.exec : ConstraintStep ν → ConstraintState ν → ConstraintState ν
  | .call c, s => (resolveHubLinuxCudaConstraint cm c s).2
  | .restart, s => { s with memCache := fun _ => none }
  | .push hub, s => { s with hub := s.hub.pushed hub }

def ConstraintStep.asCall : ConstraintStep ν → Option ConstraintCall
  | .call c => some c
  | _ => none

/-! ## transparency -/

/-- the answer of a call is what detection finds at that moment. -/
def ConstraintStep.Transparent (s : ConstraintState ν) : ConstraintStep ν → Prop
  | .call c => ∀ v, (resolveHubLinuxCudaConstraint cm c s).1 = .ok v →
      ∃ source, c.detected cm s.hub = .ok (v, source)
  | _ => True

/-- calls ask for commits, and a model is asked for by one name and for one kind of task. -/
structure OneKind (calls : List ConstraintCall) : Prop where
  commit : ∀ c ∈ calls, isCommitSHA c.revisionOrMain = true
  agree : ∀ c ∈ calls, ∀ c' ∈ calls, c.repository.map cm.lower = c'.repository.map cm.lower →
    c.revisionOrMain = c'.revisionOrMain → c.kind = c'.kind ∧ c.repository = c'.repository

structure CachesDetected (calls : List ConstraintCall) (s : ConstraintState ν) : Prop where
  mem : ∀ c ∈ calls, ∀ e, s.memCache (c.key cm) = some e →
    c.detected cm s.hub = .ok (e.requireLinuxCuda, e.source)
  rows : ∀ c ∈ calls, ∀ r, s.rows (c.repository, c.revisionOrMain) = some r →
    c.detected cm s.hub = .ok r

variable {cm} {calls : List ConstraintCall} {s : ConstraintState ν} {c c' : ConstraintCall}

lemma length_of_isCommitSHA {revision : Text} (h : isCommitSHA revision = true) :
    revision.length = 40 :=
  eq_of_beq (Bool.and_eq_true_iff.1 h).1

/-- the key ends with a commit, so its parts can be told apart. -/
lemma key_inj (hc : isCommitSHA c.revisionOrMain = true) (hc' : isCommitSHA c'.revisionOrMain = true)
    (h : c.key cm = c'.key cm) :
    c.repository.map cm.lower = c'.repository.map cm.lower ∧ c.revisionOrMain = c'.revisionOrMain := by
  have hkind : c.kind = c'.kind := by
    unfold ConstraintCall.key runtimeConstraintCacheKey at h
    cases hk : c.kind <;> cases hk' : c'.kind <;> simp [hk, hk', ConstraintKind.text] at h ⊢
  unfold ConstraintCall.key runtimeConstraintCacheKey at h
  rw [hkind] at h
  have htail := cons.inj (append_cancel_left h)
  have hlen : ('|' :: c.revisionOrMain).length = ('|' :: c'.revisionOrMain).length := by
    simp [length_of_isCommitSHA hc, length_of_isCommitSHA hc']
  have hparts := append_inj' htail.2 hlen
  exact ⟨hparts.1, (cons.inj hparts.2).2⟩

lemma OneKind.detected_eq (h : OneKind cm calls) (hc : c ∈ calls) (hc' : c' ∈ calls)
    (hrepo : c.repository.map cm.lower = c'.repository.map cm.lower)
    (hrev : c.revisionOrMain = c'.revisionOrMain) (hub : Hub ν) :
    c.detected cm hub = c'.detected cm hub := by
  obtain ⟨hkind, hname⟩ := h.agree c hc c' hc' hrepo hrev
  unfold ConstraintCall.detected
  rw [hkind, hname, hrev]

lemma detected_pushed (hc : isCommitSHA c.revisionOrMain = true) (hub hub' : Hub ν) :
    c.detected cm (hub.pushed hub') = c.detected cm hub := by
  have hfiles : (hub.pushed hub') c.repository c.revisionOrMain =
      hub c.repository c.revisionOrMain := by
    funext path
    exact if_pos hc
  unfold ConstraintCall.detected detectLinuxCuda
  cases c.kind with
  | llm => simp only [detectLLMLinuxCuda, hfiles]
  | sd =>
    have hcomp : ∀ index names, detectComponents cm (hub.pushed hub') c.repository c.revisionOrMain
        index names = detectComponents cm hub c.repository c.revisionOrMain index names := by
      intro index names
      induction names with
      | nil => rfl
      | cons name names ih => simp only [detectComponents, hfiles, ih]
    simp only [detectSDNunchakuLinuxCuda, hfiles, hcomp]

lemma CachesDetected.put (hone : OneKind cm calls) (h : CachesDetected cm calls s) (hc : c ∈ calls)
    {r : Bool × Text} (hr : c.detected cm s.hub = .ok r) (now : Time) :
    CachesDetected cm calls (putRuntimeConstraintMemory s (c.key cm) r now) := by
  refine ⟨fun c' hc' e he => ?_, h.rows⟩
  replace he : Function.update s.memCache (c.key cm) _ (c'.key cm) = some e := he
  rw [update_apply] at he
  split at he
  · next hkey =>
    obtain ⟨hrepo, hrev⟩ := key_inj (hone.commit c' hc') (hone.commit c hc) hkey
    rw [← some.inj he]
    exact (hone.detected_eq hc' hc hrepo hrev s.hub).trans hr
  · exact h.mem c' hc' e he

/-- one call: its answer is detected, and so is what it leaves in the caches. -/
lemma resolve_spec (hone : OneKind cm calls) (hc : c ∈ calls) (h : CachesDetected cm calls s) :
    (∀ v, (resolveHubLinuxCudaConstraint cm c s).1 = .ok v →
        ∃ source, c.detected cm s.hub = .ok (v, source)) ∧
      CachesDetected cm calls (resolveHubLinuxCudaConstraint cm c s).2 := by
  unfold resolveHubLinuxCudaConstraint
  split
  · next e he =>
    have hmem : s.memCache (c.key cm) = some e := by
      unfold getRuntimeConstraintMemory at he
      split at he
      · cases he
      · split at he
        · cases he
        · rwa [← some.inj he]
    exact ⟨fun v hv => ⟨e.source, Except.ok.inj hv ▸ h.mem c hc e hmem⟩, h⟩
  · split
    · exact ⟨nofun, h⟩
    · split
      · next r hr =>
        have hdet := h.rows c hc r hr
        exact ⟨fun v hv => ⟨r.2, Except.ok.inj hv ▸ hdet⟩, h.put hone hc hdet c.now⟩
      · split
        · exact ⟨nofun, h⟩
        · next r hr =>
          have hdet : c.detected cm s.hub = .ok r := by
            split at hr
            · cases hr
            · exact hr
          have hput := h.put hone hc hdet c.now
          split
          · exact ⟨nofun, hput⟩
          · refine ⟨fun v hv => ⟨r.2, Except.ok.inj hv ▸ hdet⟩, hput.mem, fun c' hc' r' hr' => ?_⟩
            replace hr' : Function.update s.rows _ _ (c'.repository, c'.revisionOrMain) = some r' := hr'
            rw [update_apply] at hr'
            split at hr'
            · next hk =>
              have hrepo := congrArg (fun k => k.1.map cm.lower) hk
              rw [← some.inj hr']
              exact (hone.detected_eq hc' hc hrepo (congrArg Prod.snd hk) s.hub).trans hdet
            · exact hput.rows c' hc' r' hr'

lemma CachesDetected.step (hone : OneKind cm calls) (h : CachesDetected cm calls s)
    {i : ConstraintStep ν} (hi : ∀ c, i = .call c → c ∈ calls) :
    CachesDetected cm calls (i.exec cm s) := by
  cases i with
  | call c => exact (resolve_spec hone (hi c rfl) h).2
  | restart => exact ⟨fun _ _ => nofun, h.rows⟩
  | push hub =>
    have hsame : ∀ c ∈ calls, c.detected cm (s.hub.pushed hub) = c.detected cm s.hub :=
      fun c hc => detected_pushed (hone.commit c hc) _ _
    exact ⟨fun c hc e he => (hsame c hc).trans (h.mem c hc e he),
      fun c hc r hr => (hsame c hc).trans (h.rows c hc r hr)⟩

/-- **Transparency.**  In every history of calls, restarts and pushes whose calls ask for commits, each
model under one name and for one kind of task, every answer is what detection finds. -/
theorem constraints_transparent (cm : CaseMap) (l : List (ConstraintStep ν)) (hub : Hub ν)
    (hone : OneKind cm (l.filterMap ConstraintStep.asCall)) :
    Along (ConstraintStep.exec cm) (ConstraintStep.Transparent cm) l { hub := hub } := by
  have hcall : ∀ {c : ConstraintCall}, .call c ∈ l → c ∈ l.filterMap ConstraintStep.asCall :=
    fun hi => mem_filterMap.2 ⟨_, hi, rfl⟩
  have hstep : ∀ s i, CachesDetected cm (l.filterMap ConstraintStep.asCall) s → i ∈ l →
      CachesDetected cm (l.filterMap ConstraintStep.asCall) (i.exec cm s) :=
    fun s i hs hi => hs.step hone fun c hc => hcall (hc ▸ hi)
  refine Along.of_invariant hstep (fun s i hs hi => ?_) l _
    (Along.of_forall_mem (fun i hi => hi) _) ⟨fun _ _ => nofun, fun _ _ => nofun⟩
  cases i with
  | call c => exact (resolve_spec hone (hcall hi) hs).1
  | restart => trivial
  | push hub => trivial

/-! ## a model of two kinds -/

def commitText : Text := List.replicate 40 'a'

def awqHub : Hub NumberLit := fun _ _ path =>
  if path = "config.json".toList then
    .ok [("quantization_config".toList, .obj [("quant_method".toList, .str "awq".toList)])]
  else .ok []

def lowerCase : CaseMap := ⟨id, fun _ => rfl⟩

def llmCall : ConstraintCall := { kind := .llm, repository := "a/b".toList, revision := commitText }

theorem constraints_transparent_at_two_calls :
    Along (ConstraintStep.exec lowerCase) (ConstraintStep.Transparent lowerCase)
      [.call llmCall, .restart, .call llmCall] { hub := awqHub } :=
  constraints_transparent lowerCase _ awqHub
    { commit := by decide +kernel
      agree := by decide +kernel }

/-- the row of the language model answers for the pipeline. -/
theorem row_answers_other_kind :
    let sdCall := { llmCall with kind := .sd }
    let s := run (ConstraintStep.exec lowerCase) [.call llmCall] { hub := awqHub }
    (resolveHubLinuxCudaConstraint lowerCase sdCall s).1 = .ok true ∧
      sdCall.detected lowerCase s.hub = .ok (false, "hub_model_index".toList) := by
  decide +kernel

end CrynuxRelay

import CrynuxRelay.Model.SignedRequests
import Mathlib.Data.List.Forall2

/-!
# What is left of a signed input

The relay decodes an input into maps and floats before it hashes it.

* `V1Input.SameSigned` -- two inputs with the same fields, up to the rounding of integers to floats;
* `V1Input.kind`, `kind_of_fields` -- the fields that are present tell the kind of an input;
* `SameSigned.decode_eq`, `sameSigned_of_alike` -- inputs decode alike exactly if they are the same up
  to rounding.
-/

namespace CrynuxRelay

open List Option Json V1Item

variable {n m : Nat} {x y : Option Nat} {s : Text} {j j' : Json NumberLit} {i i' : V1Input}
  {codec : FloatCodec} {l l' : List (Text × Json NumberLit)} {t t' : SignedTaskInput}

/-! ## rounded inputs -/

def SignedTaskInput.rounded (t : SignedTaskInput) : SignedTaskInput :=
  { t with
    taskType := roundNat t.taskType
    minVram := t.minVram.map roundNat
    requiredGPUVram := t.requiredGPUVram.map roundNat
    timeout := roundNat t.timeout
    queueTimeout := t.queueTimeout.map roundNat }

def BatchAbortItem.rounded (t : BatchAbortItem) : BatchAbortItem :=
  { t with abortReason := roundNat t.abortReason }

def V1Item.rounded : V1Item → V1Item
  | .task t => .task t.rounded
  | .validation v => .validation v
  | .abort a => .abort a.rounded

def ModelFileEntry.kwargs (codec : FloatCodec) (e : ModelFileEntry NumberLit) :
    Option (Json codec.Value) :=
  (jsonOption .obj e.formatKwargs).decode codec.parse

structure ModelFileEntry.SameSigned (codec : FloatCodec) (e e' : ModelFileEntry NumberLit) : Prop where
  sourceType : e.sourceType = e'.sourceType
  repository : e.repository = e'.repository
  revision : e.revision = e'.revision
  format : e.format = e'.format
  formatKwargs : e.kwargs codec = e'.kwargs codec

/-- **inputs that differ at most in the low bits of large integers**, and in numbers of arguments that
are the same float. -/
inductive V1Input.SameSigned (codec : FloatCodec) : V1Input → V1Input → Prop
  | item {i i' : V1Item} : i.rounded = i'.rounded → SameSigned codec (.item i) (.item i')
  | items {l l' : List V1Item} : l.map V1Item.rounded = l'.map V1Item.rounded →
    SameSigned codec (.items l) (.items l')
  | taskIDCommitments (cs : List Text) :
    SameSigned codec (.taskIDCommitments cs) (.taskIDCommitments cs)
  | taskIDCommitment (c : Text) : SameSigned codec (.taskIDCommitment c) (.taskIDCommitment c)
  | score (c s d : Text) : SameSigned codec (.score c s d) (.score c s d)
  | taskError (c : Text) {e e' : Nat} : roundNat e = roundNat e' →
    SameSigned codec (.taskError c e) (.taskError c e')
  | address (a : Text) : SameSigned codec (.address a) (.address a)
  | modelFile (a : Text) {m m' : ModelFileEntry NumberLit} : m.SameSigned codec m' →
    SameSigned codec (.modelFile a m) (.modelFile a m')
  | version (a v : Text) : SameSigned codec (.version a v) (.version a v)
  | page {s s' : Nat} {l l' : Int} : roundNat s = roundNat s' → roundInt l = roundInt l' →
    SameSigned codec (.page s l) (.page s' l')
  | fulfill (h : Text) {n n' : Nat} : roundNat n = roundNat n' →
    SameSigned codec (.fulfill n h) (.fulfill n' h)
  | id {n n' : Nat} : roundNat n = roundNat n' → SameSigned codec (.id n) (.id n')

/-! ## numbers -/

lemma decode_int {n m : Int} (h : roundInt n = roundInt m) :
    (num (NumberLit.ofInt n)).decode codec.parse = (num (NumberLit.ofInt m)).decode codec.parse := by
  rw [decode, decode, codec.parse_round n m h]

lemma decode_jsonNat (h : roundNat n = roundNat m) :
    (jsonNat n).decode codec.parse = (jsonNat m).decode codec.parse :=
  decode_int (by rw [roundInt_natCast, roundInt_natCast, h])

lemma roundInt_of_alike {n m : Int}
    (h : Json.Alike codec.parse (.num (.ofInt n)) (.num (.ofInt m))) : roundInt n = roundInt m :=
  codec.round_parse n m h.num.1 h.num.2

lemma roundNat_of_alike (h : Json.Alike codec.parse (jsonNat n) (jsonNat m)) :
    roundNat n = roundNat m := by
  have hint := roundInt_of_alike h
  rw [roundInt_natCast, roundInt_natCast] at hint
  exact Int.ofNat.inj hint

lemma decode_jsonOption_nat (h : x.map roundNat = y.map roundNat) :
    (jsonOption jsonNat x).decode codec.parse = (jsonOption jsonNat y).decode codec.parse := by
  rcases x with _ | n <;> rcases y with _ | m
  · rfl
  · cases h
  · cases h
  · exact decode_jsonNat (some.inj h)

lemma not_alike_null_num {l : NumberLit} : ¬ Json.Alike codec.parse .null (.num l) := by
  rintro ⟨x, h, h'⟩
  obtain ⟨y, -, hy⟩ := map_eq_some_iff.1 h'
  rw [← hy] at h
  cases h

lemma not_alike_null_str : ¬ Json.Alike codec.parse .null (.str s) := by
  rintro ⟨x, h, h'⟩
  rw [← h] at h'
  cases h'

lemma Json.Alike.symm {ν μ : Type} {f : ν → Option μ} {j j' : Json ν} (h : Json.Alike f j j') :
    Json.Alike f j' j := by
  obtain ⟨x, h, h'⟩ := h
  exact ⟨x, h', h⟩

lemma map_roundNat_of_alike
    (h : Json.Alike codec.parse (jsonOption jsonNat x) (jsonOption jsonNat y)) :
    x.map roundNat = y.map roundNat := by
  rcases x with _ | n <;> rcases y with _ | m
  · rfl
  · exact absurd h not_alike_null_num
  · exact absurd (Json.Alike.symm h) not_alike_null_num
  · exact congrArg some (roundNat_of_alike h)

lemma eq_of_alike_jsonOption_str {x y : Option Text}
    (h : Json.Alike codec.parse (jsonOption .str x) (jsonOption .str y)) : x = y := by
  rcases x with _ | n <;> rcases y with _ | m
  · rfl
  · exact absurd h not_alike_null_str
  · exact absurd (Json.Alike.symm h) not_alike_null_str
  · exact congrArg some h.str

lemma jsonTexts_of_alike {l l' : List Text}
    (h : Json.Alike codec.parse (jsonTexts l) (jsonTexts l')) : l = l' := by
  have hitems := h.arr
  rw [forall₂_map_left_iff, forall₂_map_right_iff] at hitems
  have heq : List.Forall₂ (fun s s' => s = s') l l' := hitems.imp fun s s' hs => hs.str
  rwa [forall₂_eq_eq_eq] at heq

/-! ## fields -/

def fieldOf (l : List (Text × Json NumberLit)) (k : String) : Option (Json NumberLit) :=
  Json.get k.toList l

lemma fieldOf_append (l l' : List (Text × Json NumberLit)) (k : String) :
    fieldOf (l ++ l') k = (fieldOf l' k).or (fieldOf l k) :=
  get_append _ l l'

lemma fieldOf_field (k n : String) (v : Json NumberLit) :
    fieldOf (field n v) k = if k = n then some v else none := by
  simp only [fieldOf, field, Json.get, none_or, String.toList_inj]

lemma fieldOf_omitEmpty (k n : String) (v : Option (Json NumberLit)) :
    fieldOf (omitEmpty n v) k = if k = n then v else none := by
  cases v with
  | none => exact (ite_self none).symm
  | some v => exact fieldOf_field k n v

lemma fieldOf_rel (h : Json.Alike codec.parse (.obj l) (.obj l')) (k : String) :
    Option.Rel (Json.Alike codec.parse) (fieldOf l k) (fieldOf l' k) :=
  h.get k.toList

def kindOf (has : String → Bool) : Nat :=
  if has "items" then 0 else if has "task_args" then 1 else if has "task_id" then 2
  else if has "abort_reason" then 3 else if has "task_error" then 4 else if has "score" then 5
  else if has "task_id_commitments" then 6 else if has "task_id_commitment" then 7
  else if has "model_file" then 8 else if has "version" then 9 else if has "address" then 10
  else if has "start_id" then 11 else if has "tx_hash" then 12 else 13

def V1Item.kind : V1Item → Nat
  | .task _ => 1
  | .validation _ => 2
  | .abort _ => 3

def V1Input.kind : V1Input → Nat
  | .item i => i.kind
  | .items _ => 0
  | .taskIDCommitments _ => 6
  | .taskIDCommitment _ => 7
  | .score _ _ _ => 5
  | .taskError _ _ => 4
  | .address _ => 10
  | .modelFile _ _ => 8
  | .version _ _ => 9
  | .page _ _ => 11
  | .fulfill _ _ => 12
  | .id _ => 13

lemma V1Item.kind_bounds (i : V1Item) : 1 ≤ i.kind ∧ i.kind ≤ 3 := by
  cases i <;> simp [kind]

lemma kind_of_fields (i : V1Input) : kindOf (fun k => (fieldOf i.fields k).isSome) = i.kind := by
  cases i with
  | item i =>
    cases i with
    | task t =>
      simp [kindOf, V1Input.fields, V1Item.fields, SignedTaskInput.fields,
        taskIDCommitmentField, fieldOf_append, fieldOf_field, fieldOf_omitEmpty, V1Input.kind, V1Item.kind]
    | validation v =>
      simp [kindOf, V1Input.fields, V1Item.fields, ValidateTaskInput.fields,
        fieldOf_append, fieldOf_field, V1Input.kind, V1Item.kind]
    | abort a =>
      simp [kindOf, V1Input.fields, V1Item.fields, BatchAbortItem.fields,
        taskIDCommitmentField, fieldOf_append, fieldOf_field, V1Input.kind, V1Item.kind]
  | _ =>
    simp [kindOf, V1Input.fields, taskIDCommitmentField, addressField, fieldOf_append,
      fieldOf_field, fieldOf_omitEmpty, V1Input.kind]

lemma kind_of_alike (h : Json.Alike codec.parse (.obj i.fields) (.obj i'.fields)) :
    i.kind = i'.kind := by
  rw [← kind_of_fields i, ← kind_of_fields i']
  refine congrArg kindOf (funext fun k => ?_)
  have hrel := fieldOf_rel h k
  show (fieldOf i.fields k).isSome = (fieldOf i'.fields k).isSome
  generalize fieldOf i.fields k = x at hrel ⊢
  generalize fieldOf i'.fields k = y at hrel ⊢
  cases hrel with
  | none => rfl
  | some _ => rfl

/-! ## inputs that decode alike -/

lemma field_alike (h : Json.Alike codec.parse (.obj l) (.obj l')) {k : String}
    (hj : fieldOf l k = some j) (hj' : fieldOf l' k = some j') : Json.Alike codec.parse j j' := by
  have hrel := fieldOf_rel h k
  rw [hj, hj'] at hrel
  cases hrel with
  | some h => exact h

lemma alike_single {n : String} (h : Json.Alike codec.parse (.obj (field n j)) (.obj (field n j'))) :
    Json.Alike codec.parse j j' := by
  have hget : ∀ v, fieldOf (field n v) n = some v := fun v => by rw [fieldOf_field, if_pos rfl]
  exact field_alike h (hget j) (hget j')

lemma alike_pair {n m : String} (hne : n ≠ m) {v v' : Json NumberLit}
    (h : Json.Alike codec.parse (.obj (field n j ++ field m v)) (.obj (field n j' ++ field m v'))) :
    Json.Alike codec.parse j j' ∧ Json.Alike codec.parse v v' := by
  have hfst : ∀ j v, fieldOf (field n j ++ field m v) n = some j := fun j v => by
    rw [fieldOf_append, fieldOf_field, fieldOf_field, if_neg hne, if_pos rfl, none_or]
  have hsnd : ∀ j v, fieldOf (field n j ++ field m v) m = some v := fun j v => by
    rw [fieldOf_append, fieldOf_field, if_pos rfl, some_or]
  exact ⟨field_alike h (hfst j v) (hfst j' v'), field_alike h (hsnd j v) (hsnd j' v')⟩

/-- a member that is left out at its zero value. -/
lemma eq_of_omitted {α β : Type} [DecidableEq α] {z a b : α} {f : α → Json NumberLit} (g : α → β)
    (hg : Json.Alike codec.parse (f a) (f b) → g a = g b)
    (h : Option.Rel (Json.Alike codec.parse) (if a = z then none else some (f a))
      (if b = z then none else some (f b))) : g a = g b := by
  by_cases ha : a = z
  · by_cases hb : b = z
    · rw [ha, hb]
    · rw [if_pos ha, if_neg hb] at h
      cases h
  · by_cases hb : b = z
    · rw [if_neg ha, if_pos hb] at h
      cases h
    · rw [if_neg ha, if_neg hb] at h
      cases h with
      | some h => exact hg h

lemma map_roundNat_of_rel (h : Option.Rel (Json.Alike codec.parse) (x.map jsonNat) (y.map jsonNat)) :
    x.map roundNat = y.map roundNat := by
  rcases x with _ | n <;> rcases y with _ | m
  · rfl
  · cases h
  · cases h
  · cases h with
    | some h => exact congrArg some (roundNat_of_alike h)

lemma task_rounded
    (h : Json.Alike codec.parse (.obj t.fields) (.obj t'.fields)) : t.rounded = t'.rounded := by
  have hget : ∀ t : SignedTaskInput,
      fieldOf t.fields "task_id_commitment" = some (.str t.taskIDCommitment) ∧
      fieldOf t.fields "task_args" = some (.str t.taskArgs) ∧
      fieldOf t.fields "task_type" = some (jsonNat t.taskType) ∧
      fieldOf t.fields "nonce" = some (.str t.nonce) ∧
      fieldOf t.fields "min_vram" = some (jsonOption jsonNat t.minVram) ∧
      fieldOf t.fields "required_gpu" = some (jsonOption .str t.requiredGPU) ∧
      fieldOf t.fields "required_gpu_vram" = some (jsonOption jsonNat t.requiredGPUVram) ∧
      fieldOf t.fields "task_fee" = some (jsonBigInt t.taskFee) ∧
      fieldOf t.fields "timeout" = (if t.timeout = 0 then none else some (jsonNat t.timeout)) ∧
      fieldOf t.fields "queue_timeout" = t.queueTimeout.map jsonNat := by
    simp [SignedTaskInput.fields, taskIDCommitmentField, fieldOf_append, fieldOf_field,
      fieldOf_omitEmpty]
  obtain ⟨h1, h2, h3, h4, h5, h6, h7, h8, h9, h10⟩ := hget t
  obtain ⟨h1', h2', h3', h4', h5', h6', h7', h8', h9', h10'⟩ := hget t'
  have hfee : Text.ofInt t.taskFee = Text.ofInt t'.taskFee := (field_alike h h8 h8').str
  have htimeout := fieldOf_rel h "timeout"
  rw [h9, h9'] at htimeout
  have hqueue := fieldOf_rel h "queue_timeout"
  rw [h10, h10'] at hqueue
  simp only [SignedTaskInput.rounded, SignedTaskInput.mk.injEq]
  exact ⟨(field_alike h h1 h1').str, (field_alike h h2 h2').str,
    roundNat_of_alike (field_alike h h3 h3'), (field_alike h h4 h4').str,
    map_roundNat_of_alike (field_alike h h5 h5'), eq_of_alike_jsonOption_str (field_alike h h6 h6'),
    map_roundNat_of_alike (field_alike h h7 h7'), Text.ofInt_inj hfee,
    eq_of_omitted roundNat roundNat_of_alike htimeout, map_roundNat_of_rel hqueue⟩

lemma item_rounded {i i' : V1Item} (h : Json.Alike codec.parse (.obj i.fields) (.obj i'.fields)) :
    i.rounded = i'.rounded := by
  have hkind : (V1Input.item i).kind = (V1Input.item i').kind := kind_of_alike h
  cases i with
  | task t =>
    cases i' with
    | task t' => exact congrArg task (task_rounded h)
    | _ => cases hkind
  | validation v =>
    cases i' with
    | validation v' =>
      have hget : ∀ v : ValidateTaskInput,
          fieldOf v.fields "task_id_commitments" = some (jsonTexts v.taskIDCommitments) ∧
          fieldOf v.fields "task_id" = some (.str v.taskID) ∧
          fieldOf v.fields "vrf_proof" = some (.str v.vrfProof) ∧
          fieldOf v.fields "public_key" = some (.str v.publicKey) := by
        simp [ValidateTaskInput.fields, fieldOf_append, fieldOf_field]
      obtain ⟨h1, h2, h3, h4⟩ := hget v
      obtain ⟨h1', h2', h3', h4'⟩ := hget v'
      simp only [rounded, validation.injEq]
      cases v
      cases v'
      simp only [ValidateTaskInput.mk.injEq]
      exact ⟨jsonTexts_of_alike (field_alike h h1 h1'), (field_alike h h2 h2').str,
        (field_alike h h3 h3').str, (field_alike h h4 h4').str⟩
    | _ => cases hkind
  | abort a =>
    cases i' with
    | abort a' =>
      have hget : ∀ a : BatchAbortItem,
          fieldOf a.fields "task_id_commitment" = some (.str a.taskIDCommitment) ∧
          fieldOf a.fields "abort_reason" = some (jsonNat a.abortReason) := by
        simp [BatchAbortItem.fields, taskIDCommitmentField, fieldOf_append, fieldOf_field]
      obtain ⟨h1, h2⟩ := hget a
      obtain ⟨h1', h2'⟩ := hget a'
      simp only [rounded, abort.injEq, BatchAbortItem.rounded, BatchAbortItem.mk.injEq]
      exact ⟨(field_alike h h1 h1').str, roundNat_of_alike (field_alike h h2 h2')⟩
    | _ => cases hkind

lemma modelFile_sameSigned {m m' : ModelFileEntry NumberLit}
    (h : Json.Alike codec.parse (.obj m.fields) (.obj m'.fields)) : m.SameSigned codec m' := by
  have hget : ∀ m : ModelFileEntry NumberLit,
      fieldOf m.fields "source_type" = some (.str m.sourceType) ∧
      fieldOf m.fields "repository" = some (.str m.repository) ∧
      fieldOf m.fields "revision" = some (.str m.revision) ∧
      fieldOf m.fields "format" = some (.str m.format) ∧
      fieldOf m.fields "format_kwargs" = some (jsonOption .obj m.formatKwargs) := by
    simp [ModelFileEntry.fields, fieldOf_append, fieldOf_field]
  obtain ⟨h1, h2, h3, h4, h5⟩ := hget m
  obtain ⟨h1', h2', h3', h4', h5'⟩ := hget m'
  obtain ⟨x, hx, hx'⟩ := field_alike h h5 h5'
  exact
    { sourceType := (field_alike h h1 h1').str
      repository := (field_alike h h2 h2').str
      revision := (field_alike h h3 h3').str
      format := (field_alike h h4 h4').str
      formatKwargs := by rw [ModelFileEntry.kwargs, ModelFileEntry.kwargs, hx, hx'] }

lemma score_eq {c d c' s' d' : Text} (h : Json.Alike codec.parse (.obj (V1Input.score c s d).fields)
      (.obj (V1Input.score c' s' d').fields)) : c = c' ∧ s = s' ∧ d = d' := by
  have hget : ∀ c s d : Text,
      fieldOf (V1Input.score c s d).fields "task_id_commitment" = some (.str c) ∧
      fieldOf (V1Input.score c s d).fields "score" = some (.str s) ∧
      fieldOf (V1Input.score c s d).fields "execution_dtype" =
        (if d = [] then none else some (.str d)) := by
    simp [V1Input.fields, taskIDCommitmentField, fieldOf_append, fieldOf_field, fieldOf_omitEmpty]
  obtain ⟨h1, h2, h3⟩ := hget c s d
  obtain ⟨h1', h2', h3'⟩ := hget c' s' d'
  have hdtype := fieldOf_rel h "execution_dtype"
  rw [h3, h3'] at hdtype
  exact ⟨(field_alike h h1 h1').str, (field_alike h h2 h2').str,
    eq_of_omitted id Json.Alike.str hdtype⟩

/-- **inputs that decode alike are the same up to rounding.** -/
theorem sameSigned_of_alike (h : Json.Alike codec.parse (.obj i.fields) (.obj i'.fields)) :
    i.SameSigned codec i' := by
  have hkind := kind_of_alike h
  cases i <;> cases i'
  case item.item i i' => exact .item (item_rounded h)
  case items.items l l' =>
    have hitems := (alike_single h).arr
    rw [forall₂_map_left_iff, forall₂_map_right_iff] at hitems
    have heq : List.Forall₂ (fun i i' => rounded i = rounded i') l l' :=
      hitems.imp fun i i' hi => item_rounded hi
    refine .items ?_
    rwa [← forall₂_eq_eq_eq, forall₂_map_left_iff, forall₂_map_right_iff]
  case taskIDCommitments.taskIDCommitments cs cs' =>
    rw [jsonTexts_of_alike (alike_single h)]
    exact .taskIDCommitments cs'
  case taskIDCommitment.taskIDCommitment c c' =>
    rw [(alike_single h).str]
    exact .taskIDCommitment c'
  case score.score c s d c' s' d' =>
    obtain ⟨rfl, rfl, rfl⟩ := score_eq h
    exact .score c s d
  case taskError.taskError c e c' e' =>
    obtain ⟨hc, he⟩ := alike_pair (by decide) h
    rw [hc.str]
    exact .taskError c' (roundNat_of_alike he)
  case address.address a a' =>
    rw [(alike_single h).str]
    exact .address a'
  case modelFile.modelFile a m a' m' =>
    obtain ⟨ha, hm⟩ := alike_pair (by decide) h
    rw [ha.str]
    exact .modelFile a' (modelFile_sameSigned hm)
  case version.version a v a' v' =>
    obtain ⟨ha, hv⟩ := alike_pair (by decide) h
    rw [ha.str, hv.str]
    exact .version a' v'
  case page.page s l s' l' =>
    obtain ⟨hs, hl⟩ := alike_pair (by decide) h
    exact .page (roundNat_of_alike hs) (roundInt_of_alike hl)
  case fulfill.fulfill n t n' t' =>
    obtain ⟨hn, ht⟩ := alike_pair (by decide) h
    rw [ht.str]
    exact .fulfill t' (roundNat_of_alike hn)
  case id.id n n' => exact .id (roundNat_of_alike (alike_single h))
  -- inputs of different kinds
  all_goals first
    | cases hkind
    | have hitem := kind_bounds ‹_›
      simp only [V1Input.kind] at hkind
      omega

/-! ## the converse -/

lemma decodeFields_field {n : String} (h : j.decode codec.parse = j'.decode codec.parse) :
    decodeFields codec.parse (field n j) = decodeFields codec.parse (field n j') := by
  simp only [field, decodeFields, h]

lemma decodeFields_append_congr {l1 l1' l2 l2' : List (Text × Json NumberLit)}
    (h1 : decodeFields codec.parse l1 = decodeFields codec.parse l1')
    (h2 : decodeFields codec.parse l2 = decodeFields codec.parse l2') :
    decodeFields codec.parse (l1 ++ l2) = decodeFields codec.parse (l1' ++ l2') := by
  rw [decodeFields_append, decodeFields_append, h1, h2]

lemma decodeFields_timeout (h : roundNat n = roundNat m) (k : String) :
    decodeFields codec.parse (omitEmpty k (if n = 0 then none else some (jsonNat n))) =
      decodeFields codec.parse (omitEmpty k (if m = 0 then none else some (jsonNat m))) := by
  by_cases hn : n = 0
  · have hm : m = 0 := by
      rw [hn] at h
      exact roundNat_eq_zero.1 h.symm
    rw [hn, hm]
  · have hm : m ≠ 0 := fun hm => by
      rw [hm] at h
      exact hn (roundNat_eq_zero.1 h)
    rw [if_neg hn, if_neg hm]
    exact decodeFields_field (decode_jsonNat h)

lemma decodeFields_queueTimeout (h : x.map roundNat = y.map roundNat) (k : String) :
    decodeFields codec.parse (omitEmpty k (x.map jsonNat)) =
      decodeFields codec.parse (omitEmpty k (y.map jsonNat)) := by
  rcases x with _ | n <;> rcases y with _ | m
  · rfl
  · cases h
  · cases h
  · exact decodeFields_field (decode_jsonNat (some.inj h))

lemma decodeFields_task (h : t.rounded = t'.rounded) :
    decodeFields codec.parse t.fields = decodeFields codec.parse t'.fields := by
  simp only [SignedTaskInput.rounded, SignedTaskInput.mk.injEq] at h
  obtain ⟨h1, h2, h3, h4, h5, h6, h7, h8, h9, h10⟩ := h
  rw [SignedTaskInput.fields, SignedTaskInput.fields, h1, h2, h4, h6, h8]
  refine decodeFields_append_congr ?_ (decodeFields_queueTimeout h10 _)
  refine decodeFields_append_congr ?_ (decodeFields_timeout h9 _)
  refine decodeFields_append_congr ?_ rfl
  refine decodeFields_append_congr ?_ (decodeFields_field (decode_jsonOption_nat h7))
  refine decodeFields_append_congr ?_ rfl
  refine decodeFields_append_congr ?_ (decodeFields_field (decode_jsonOption_nat h5))
  refine decodeFields_append_congr ?_ rfl
  exact decodeFields_append_congr rfl (decodeFields_field (decode_jsonNat h3))

lemma decodeFields_item {i i' : V1Item} (h : i.rounded = i'.rounded) :
    decodeFields codec.parse i.fields = decodeFields codec.parse i'.fields := by
  cases i with
  | task t =>
    cases i' with
    | task t' => exact decodeFields_task (task.inj h)
    | _ => cases h
  | validation v =>
    cases i' with
    | validation v' => rw [validation.inj h]
    | _ => cases h
  | abort a =>
    cases i' with
    | abort a' =>
      simp only [rounded, abort.injEq, BatchAbortItem.rounded, BatchAbortItem.mk.injEq] at h
      rw [fields, fields, BatchAbortItem.fields, BatchAbortItem.fields, h.1]
      exact decodeFields_append_congr rfl (decodeFields_field (decode_jsonNat h.2))
    | _ => cases h

lemma decodeItems_items {l l' : List V1Item} (h : l.map rounded = l'.map rounded) :
    decodeItems codec.parse (l.map fun i => .obj i.fields) =
      decodeItems codec.parse (l'.map fun i => .obj i.fields) := by
  induction l generalizing l' with
  | nil =>
    cases l' with
    | nil => rfl
    | cons i' l' => cases h
  | cons i l ih =>
    cases l' with
    | nil => cases h
    | cons i' l' =>
      obtain ⟨hi, hl⟩ := cons.inj h
      simp only [map_cons, decodeItems, decode, decodeFields_item hi, ih hl]

/-- **inputs that are the same up to rounding decode alike.** -/
theorem SameSigned.decode_eq (h : i.SameSigned codec i') :
    (obj i.fields).decode codec.parse = (obj i'.fields).decode codec.parse := by
  have hfields : decodeFields codec.parse i.fields = decodeFields codec.parse i'.fields := by
    cases h with
    | item h => exact decodeFields_item h
    | items h =>
      refine decodeFields_field ?_
      rw [decode, decode, decodeItems_items h]
    | taskError c h => exact decodeFields_append_congr rfl (decodeFields_field (decode_jsonNat h))
    | modelFile a h =>
      refine decodeFields_append_congr rfl (decodeFields_field ?_)
      rw [decode, decode, ModelFileEntry.fields, ModelFileEntry.fields, h.sourceType, h.repository, h.revision,
        h.format, decodeFields_append_congr rfl (decodeFields_field h.formatKwargs)]
    | page hs hl =>
      exact decodeFields_append_congr (decodeFields_field (decode_jsonNat hs))
        (decodeFields_field (decode_int hl))
    | fulfill t h => exact decodeFields_append_congr (decodeFields_field (decode_jsonNat h)) rfl
    | id h => exact decodeFields_field (decode_jsonNat h)
    | _ => rfl
  rw [decode, decode, hfields]

end CrynuxRelay

import CrynuxRelay.Requests.Inputs

/-!
# What a signature binds

* `escapeCode_marshal` -- the escapes of `encoding/json` are unambiguous;
* `signBytes_eq_iff` -- the signed text is that of a timestamp and of an input up to rounding;
* `signature_binding` -- **a signature is accepted for every request with the same input up to
  rounding**: neither the endpoint nor the low bits of a large integer are signed;
* `pause_accepted_as_quit` -- a signature of a pause is one of a quit.
-/

namespace CrynuxRelay

open Option

variable {r : V1Request} {t : Int} {a b : Text}

/-! ## escapes -/

lemma escapeLetter_cases {c l : Char} (h : escapeLetter c = some l) :
    c = '"' ∧ l = '"' ∨ c = '\\' ∧ l = '\\' ∨ c = '\n' ∧ l = 'n' ∨ c = '\r' ∧ l = 'r' ∨
      c = '\t' ∧ l = 't' ∨ c = '\x08' ∧ l = 'b' ∨ c = '\x0c' ∧ l = 'f' := by
  simp only [escapeLetter] at h
  split at h
  · next hc => exact .inl ⟨hc, (some.inj h).symm⟩
  split at h
  · next hc => exact .inr (.inl ⟨hc, (some.inj h).symm⟩)
  split at h
  · next hc => exact .inr (.inr (.inl ⟨hc, (some.inj h).symm⟩))
  split at h
  · next hc => exact .inr (.inr (.inr (.inl ⟨hc, (some.inj h).symm⟩)))
  split at h
  · next hc => exact .inr (.inr (.inr (.inr (.inl ⟨hc, (some.inj h).symm⟩))))
  split at h
  · next hc => exact .inr (.inr (.inr (.inr (.inr (.inl ⟨hc, (some.inj h).symm⟩)))))
  split at h
  · next hc => exact .inr (.inr (.inr (.inr (.inr (.inr ⟨hc, (some.inj h).symm⟩)))))
  · cases h

lemma escapeTable {coded : Char → Bool} (hcode : ∀ c, coded c = true → c.toNat < 65536) :
    EscapeTable escapeLetter coded where
  inj := by
    intro c c' l h h'
    rcases escapeLetter_cases h with ⟨rfl, rfl⟩ | ⟨rfl, rfl⟩ | ⟨rfl, rfl⟩ | ⟨rfl, rfl⟩ |
      ⟨rfl, rfl⟩ | ⟨rfl, rfl⟩ | ⟨rfl, rfl⟩ <;>
    rcases escapeLetter_cases h' with ⟨rfl, hl⟩ | ⟨rfl, hl⟩ | ⟨rfl, hl⟩ | ⟨rfl, hl⟩ |
      ⟨rfl, hl⟩ | ⟨rfl, hl⟩ | ⟨rfl, hl⟩ <;>
    first | rfl | exact absurd hl (by decide)
  ne_u := by
    intro c h
    rcases escapeLetter_cases h with ⟨-, hl⟩ | ⟨-, hl⟩ | ⟨-, hl⟩ | ⟨-, hl⟩ | ⟨-, hl⟩ | ⟨-, hl⟩ |
      ⟨-, hl⟩ <;>
    exact absurd hl (by decide)
  quote := by decide
  backslash := by decide
  code := hcode

lemma escapeCode_marshal : EscapeCode marshalEscape := by
  refine (escapeTable fun c hc => ?_).escapeCode
  rcases of_decide_eq_true hc with h | rfl | rfl | rfl | h | h
  · omega
  · decide
  · decide
  · decide
  · omega
  · omega

/-! ## signed texts -/

variable {codec : FloatCodec}

lemma signBytes_eq_some (h : signBytes codec r t = some b) :
    ∃ v fields, r.payload.decode codec.parse = some v ∧ v = .obj fields ∧
      b = v.render codec.text marshalEscape ++ Text.ofInt t := by
  obtain ⟨d, hd, rfl⟩ := map_eq_some_iff.1 h
  obtain ⟨v, hv, rfl⟩ := map_eq_some_iff.1 hd
  have hobj := hv
  obtain ⟨l, -, hl⟩ := map_eq_some_iff.1 hobj
  exact ⟨v, _, hv, hl.symm, rfl⟩

/-- **the signed text determines the timestamp and the input up to rounding**, and nothing else. -/
theorem signBytes_eq_iff {r' : V1Request} {t' : Int} {b' : Text} (h : signBytes codec r t = some b)
    (h' : signBytes codec r' t' = some b') : b = b' ↔ t = t' ∧ r.input.SameSigned codec r'.input := by
  constructor
  · rintro rfl
    obtain ⟨v, l, hv, rfl, hb⟩ := signBytes_eq_some h
    obtain ⟨v', l', hv', rfl, hb'⟩ := signBytes_eq_some h'
    -- an object ends with its bracket, so the digits of the timestamp are not taken for its own
    obtain ⟨hobj, ht⟩ := Json.render_inj codec.numberText escapeCode_marshal (.obj l) (.obj l')
      (Text.ofInt t) (Text.ofInt t') (fun n hn => by cases hn) (fun n hn => by cases hn)
      (hb.symm.trans hb')
    rw [← hobj] at hv'
    exact ⟨Text.ofInt_inj ht, sameSigned_of_alike ⟨_, hv, hv'⟩⟩
  · rintro ⟨rfl, hsame⟩
    have hpayload : r.payload.decode codec.parse = r'.payload.decode codec.parse :=
      SameSigned.decode_eq hsame
    rw [signBytes, jsonRemarshal, hpayload] at h
    exact some.inj (h.symm.trans h')

/-! ## signatures -/

def wellTimed (now timestamp : Int) (signature : Text) : Prop :=
  signature.length = 132 ∧ signature.take 1 = ['0'] ∧
    ((signature.drop 1).take 1 = ['x'] ∨ (signature.drop 1).take 1 = ['X']) ∧
    (now - timestamp).natAbs ≤ 60

lemma validateSignature_eq_some {scheme : SignatureScheme} {now : Int} {signature : Text} :
    validateSignature codec scheme now r t signature = some a ↔
      ∃ b, signBytes codec r t = some b ∧ wellTimed now t signature ∧
        scheme.recover b signature = some a := by
  rw [validateSignature, bind_eq_some_iff]
  refine exists_congr fun b => and_congr_right fun hb => ?_
  split
  · next hw => exact ⟨fun h => ⟨hw, h⟩, fun h => h.2⟩
  · next hw => exact ⟨fun h => (by cases h), fun h => absurd h.1 hw⟩

/-- a signer's signature is for one message. -/
def SignatureScheme.Unforgeable (scheme : SignatureScheme) : Prop :=
  ∀ b b' signature a, scheme.recover b signature = some a → scheme.recover b' signature = some a →
    b = b'

/-- **a signature binds the timestamp and the input up to rounding, and no more**: the texts that are
hashed for two requests are the same exactly if the timestamps are and the inputs are, up to the rounding
of integers to floats, and one signature is accepted for both in exactly these cases. -/
theorem signature_binding (r r' : V1Request) (t t' : Int) {b b' : Text}
    (hb : signBytes codec r t = some b) (hb' : signBytes codec r' t' = some b') :
    (b = b' ↔ t = t' ∧ r.input.SameSigned codec r'.input) ∧
    ∀ (scheme : SignatureScheme) (now now' : Int) (signature a : Text), scheme.Unforgeable →
      validateSignature codec scheme now r t signature = some a → (now' - t').natAbs ≤ 60 →
      (validateSignature codec scheme now' r' t' signature = some a ↔
        t = t' ∧ r.input.SameSigned codec r'.input) := by
  have htexts := signBytes_eq_iff hb hb'
  refine ⟨htexts, fun scheme now now' signature a hunf hval hage => ?_⟩
  obtain ⟨b1, hb1, hw, hrec⟩ := validateSignature_eq_some.1 hval
  obtain rfl : b1 = b := some.inj (hb1.symm.trans hb)
  rw [← htexts]
  constructor
  · intro hval'
    obtain ⟨b2, hb2, -, hrec'⟩ := validateSignature_eq_some.1 hval'
    obtain rfl : b2 = b' := some.inj (hb2.symm.trans hb')
    exact hunf _ _ signature a hrec hrec'
  · rintro rfl
    exact validateSignature_eq_some.2 ⟨b1, hb', ⟨hw.1, hw.2.1, hw.2.2.1, hage⟩, hrec⟩

/-! ## a pause that is a quit -/

def oneSignature (message signature address : Text) : SignatureScheme where
  recover := fun b s => if b = message ∧ s = signature then some address else none

lemma oneSignature_unforgeable (message signature address : Text) :
    (oneSignature message signature address).Unforgeable := by
  intro b b' s a h h'
  simp only [oneSignature, ite_none_right_eq_some] at h h'
  rw [h.1.1, h'.1.1]

def nodeText : Text := ['0', 'x', 'a', '1']

def sampleSignature : Text := '0' :: 'x' :: List.replicate 130 'c'

def pauseText : Text := (signBytes integerCodec (.nodePause nodeText) 1000).getD []

def pauseScheme : SignatureScheme := oneSignature pauseText sampleSignature nodeText

lemma signBytes_address (h : r.input = .address a) (t : Int) :
    (signBytes codec r t).isSome = true := by
  rw [signBytes, jsonRemarshal, V1Request.payload, h, isSome_map, isSome_map]
  simp only [V1Input.fields, addressField, field, Json.decode, Json.decodeFields, map_some,
    bind_some, isSome_some]

lemma signBytes_pause : signBytes integerCodec (.nodePause nodeText) 1000 = some pauseText := by
  have hsome : (signBytes integerCodec (.nodePause nodeText) 1000).isSome = true :=
    signBytes_address (a := nodeText) rfl 1000
  exact (some_get hsome).symm.trans (congrArg some (get_eq_getD _))

lemma pause_accepted :
    validateSignature integerCodec pauseScheme 1030 (.nodePause nodeText) 1000 sampleSignature =
      some nodeText := by
  refine validateSignature_eq_some.2 ⟨pauseText, signBytes_pause, ?_, ?_⟩
  · exact ⟨rfl, rfl, .inl rfl, by decide⟩
  · show (if pauseText = pauseText ∧ sampleSignature = sampleSignature then some nodeText else none) = _
    exact if_pos ⟨rfl, rfl⟩

theorem signature_binding_at_pause :
    validateSignature integerCodec pauseScheme 1050 (.nodeQuit nodeText) 1000 sampleSignature =
      some nodeText :=
  ((signature_binding (.nodePause nodeText) (.nodeQuit nodeText) 1000 1000 signBytes_pause
    signBytes_pause).2 pauseScheme 1030 1050 sampleSignature nodeText
    (oneSignature_unforgeable _ _ _) pause_accepted (by decide)).2 ⟨rfl, .address nodeText⟩

/-- **a signature of a pause is one of a quit**, for every scheme; and the withdrawal requests `2 ^ 53`
and `2 ^ 53 + 1` are rejected with the same signatures. -/
theorem pause_accepted_as_quit :
    (V1Request.nodePause nodeText ≠ .nodeQuit nodeText ∧ pauseScheme.Unforgeable ∧
      validateSignature integerCodec pauseScheme 1030 (.nodePause nodeText) 1000 sampleSignature =
        some nodeText ∧
      validateSignature integerCodec pauseScheme 1030 (.nodeQuit nodeText) 1000 sampleSignature =
        some nodeText ∧
      ∀ (codec : FloatCodec) (scheme : SignatureScheme) (now t : Int) (signature : Text),
        validateSignature codec scheme now (.nodePause nodeText) t signature =
          validateSignature codec scheme now (.nodeQuit nodeText) t signature) ∧
    V1Request.rejectWithdrawRequest (2 ^ 53) ≠ .rejectWithdrawRequest (2 ^ 53 + 1) ∧
      ∀ (codec : FloatCodec) (scheme : SignatureScheme) (now t : Int) (signature : Text),
        validateSignature codec scheme now (.rejectWithdrawRequest (2 ^ 53)) t signature =
          validateSignature codec scheme now (.rejectWithdrawRequest (2 ^ 53 + 1)) t signature := by
  refine ⟨⟨fun h => (by cases h), oneSignature_unforgeable _ _ _, pause_accepted, pause_accepted,
    fun codec scheme now t signature => rfl⟩, fun h => ?_, fun codec scheme now t signature => ?_⟩
  · have hid := V1Request.rejectWithdrawRequest.inj h
    omega
  · have hround : roundNat (2 ^ 53) = roundNat (2 ^ 53 + 1) := by decide +kernel
    have hpayload : (V1Request.rejectWithdrawRequest (2 ^ 53)).payload.decode codec.parse =
        (V1Request.rejectWithdrawRequest (2 ^ 53 + 1)).payload.decode codec.parse :=
      SameSigned.decode_eq (.id hround)
    rw [validateSignature, validateSignature, signBytes, signBytes, jsonRemarshal, jsonRemarshal,
      hpayload]

end CrynuxRelay

import CrynuxRelay.Accounts.Deposits
import CrynuxRelay.Accounts.Marks
import CrynuxRelay.Model.Erc20Deposits

/-!
# Deposits of a receipt

* `Erc20Network.deposits` -- what the logs of a receipt transfer to the deposit address;
* `parse_eq`, `validate_eq` -- the parser takes every such log, the validator the first one;
* `ingest_ok` -- the ingestion credits the first one;
* `erc20_credited_iff` -- the validator accepts what was ingested, and a receipt is credited in full
  exactly when it has at most one such log.
-/

namespace CrynuxRelay

open List Option Tx

variable {l : ReceiptLog} {logs : List ReceiptLog} {network txHash : Text} {w : World}

lemma AddressCodec.hexToAddress_hex (codec : AddressCodec) (a : BitVec 160) :
    codec.hexToAddress (codec.hex a) = a := codec.hexToAddress_of_fold a _ (equalFold_refl _)

lemma AddressCodec.hex_inj (codec : AddressCodec) {a b : BitVec 160} :
    codec.hex a = codec.hex b ↔ a = b := by
  refine ⟨fun h => ?_, fun h => by rw [h]⟩
  rw [← codec.hexToAddress_hex a, h, codec.hexToAddress_hex]

namespace Erc20Network

variable (net : Erc20Network)

/-! ## what a receipt transfers -/

def sender (l : ReceiptLog) : BitVec 160 := bytesToAddress ((l.topics[1]?).getD 0)

/-- a `Transfer` log of the token to the deposit address, with an amount and a sender. -/
def IsDeposit (l : ReceiptLog) : Prop :=
  l.topics.length = 3 ∧ l.topics[0]? = some net.transferTopic ∧
    equalFold (net.codec.hex l.address) net.tokenAddress = true ∧
    l.topics[2]? = some (net.addressTopic net.depositAddress) ∧
    setBytes l.data ≠ 0 ∧ sender l ≠ 0

instance (l : ReceiptLog) : Decidable (net.IsDeposit l) :=
  inferInstanceAs (Decidable (_ ∧ _))

def transfer (l : ReceiptLog) : DepositTxData := ⟨net.codec.hex (sender l), setBytes l.data⟩

def deposits (logs : List ReceiptLog) : List DepositTxData :=
  (logs.filter fun l => net.IsDeposit l).map net.transfer

def depositSum (logs : List ReceiptLog) (a : Text) : Int :=
  total ((net.deposits logs).map fun d => (⟨d.fromAddress, d.amount⟩ : Posting Text Int)) a

lemma deposits_cons_of_pos (logs : List ReceiptLog) (h : net.IsDeposit l) :
    net.deposits (l :: logs) = net.transfer l :: net.deposits logs := by
  rw [deposits, filter_cons, if_pos (decide_eq_true h)]
  rfl

lemma deposits_cons_of_neg (logs : List ReceiptLog) (h : ¬ net.IsDeposit l) :
    net.deposits (l :: logs) = net.deposits logs := by
  rw [deposits, filter_cons, if_neg (by simpa using h)]
  rfl

lemma amount_pos {d : DepositTxData} (h : d ∈ net.deposits logs) : 0 < d.amount := by
  obtain ⟨l, hl, rfl⟩ := mem_map.1 h
  have hdep : net.IsDeposit l := of_decide_eq_true (mem_filter.1 hl).2
  have hne := hdep.2.2.2.2.1
  show (0 : Int) < (setBytes l.data : Nat)
  omega

/-! ## the two readers of a log -/

theorem parse_eq (l : ReceiptLog) :
    net.parseERC20DepositLog l = if net.IsDeposit l then some (net.transfer l) else none := by
  rw [parseERC20DepositLog]
  split
  · next t0 t1 t2 ht =>
    simp only [IsDeposit, transfer, sender, ht, net.codec.hex_inj]
    split_ifs <;> simp_all
  · next hno =>
    rw [if_neg]
    rintro ⟨hlen, -⟩
    obtain ⟨t0, t1, t2, ht⟩ := length_eq_three.1 hlen
    exact hno t0 t1 t2 ht

lemma query_of_isDeposit (h : net.IsDeposit l) : net.query l = true := by
  obtain ⟨-, h0, haddr, h2, -⟩ := h
  have htoken := net.codec.hexToAddress_of_fold _ _ haddr
  exact decide_eq_true ⟨htoken.symm, h0, h2⟩

/-- **the validator takes the first deposit**, when the logs have a word of data. -/
theorem validate_eq (logs : List ReceiptLog)
    (hdata : ∀ l ∈ logs, net.IsDeposit l → l.data.length = 32) :
    net.validateERC20RelayAccountDepositReceipt logs = (net.deposits logs).head? := by
  induction logs with
  | nil => rfl
  | cons l logs ih =>
    have htail := ih fun x hx => hdata x (mem_cons_of_mem l hx)
    by_cases hl : net.IsDeposit l
    · have hlen := hdata l mem_cons_self hl
      rw [net.deposits_cons_of_pos logs hl]
      obtain ⟨t0, t1, t2, ht⟩ := length_eq_three.1 hl.1
      simp only [IsDeposit, sender, ht] at hl
      obtain ⟨-, h0, haddr, h2, hamount, hsender⟩ := hl
      have hzero : net.codec.hex (bytesToAddress t1) ≠ net.codec.hex 0 :=
        fun h => hsender (net.codec.hex_inj.1 h)
      have hmatch : ¬ (t0 ≠ net.transferTopic ∨
          equalFold (net.codec.hex l.address) net.tokenAddress = false ∨
          t2 ≠ net.addressTopic net.depositAddress ∨ l.data.length ≠ 32) := by
        have h0' : t0 = net.transferTopic := some.inj h0
        have h2' : t2 = net.addressTopic net.depositAddress := some.inj h2
        simp [h0', h2', haddr, hlen]
      rw [validateERC20RelayAccountDepositReceipt, ht]
      simp only
      rw [if_neg hmatch, if_neg hamount, if_neg hzero]
      simp [transfer, sender, ht]
    · rw [net.deposits_cons_of_neg logs hl, ← htail]
      have hparse := net.parse_eq l
      rw [if_neg hl, parseERC20DepositLog] at hparse
      rw [validateERC20RelayAccountDepositReceipt]
      split
      · next t0 t1 t2 ht =>
        rw [ht] at hparse
        simp only at hparse
        split_ifs at hparse ⊢ <;> first | rfl | tauto
      · rfl

/-! ## ingestion -/

lemma ingest_recorded (h : Recorded w.db (depositReason txHash network)) (logs : List ReceiptLog) :
    Ok (net.processERC20DepositLogs txHash network logs) w () w := by
  rw [processERC20DepositLogs]
  induction logs.filter net.query with
  | nil => exact ok_each_nil.2 rfl
  | cons l rest ih =>
    refine ok_each_cons.2 ⟨w, ?_, ih⟩
    cases net.parseERC20DepositLog l with
    | none => exact ok_pure.2 ⟨rfl, rfl⟩
    | some d => exact processDeposit_skip h d

/-- **the ingestion credits the first deposit** of a receipt, and no other. -/
theorem ingest_ok (h : ¬ Recorded w.db (depositReason txHash network)) (logs : List ReceiptLog) :
    ∃ w', Ok (net.processERC20DepositLogs txHash network logs) w () w' ∧
      Posts ((net.deposits logs).head?.toList.map (depositDraft txHash network)) w w' := by
  induction logs with
  | nil => exact ⟨w, ok_each_nil.2 rfl, (FundsEffect.refl w).posts⟩
  | cons l logs ih =>
    by_cases hl : net.IsDeposit l
    · have hposts : Posts [depositDraft txHash network (net.transfer l)] w
          (withDepositRecord txHash network (net.transfer l) (w.db.relayAccountEvents.rows.length + 1)
            (credit (depositDraft txHash network (net.transfer l)) w)) :=
        (posts_credit rfl (not_recorded_iff.2 h)).quiet ⟨rfl, rfl, rfl⟩
      have hrec := (hposts.appends.recorded_iff _).2 (.inr ⟨_, mem_singleton_self _, rfl⟩)
      refine ⟨_, ?_, by rw [net.deposits_cons_of_pos logs hl]; exact hposts⟩
      rw [processERC20DepositLogs, filter_cons, if_pos (net.query_of_isDeposit hl)]
      refine ok_each_cons.2 ⟨_, ?_, net.ingest_recorded hrec logs⟩
      rw [net.parse_eq, if_pos hl]
      exact processDeposit_run h
    · obtain ⟨w', hok, hposts⟩ := ih
      refine ⟨w', ?_, by rw [net.deposits_cons_of_neg logs hl]; exact hposts⟩
      rw [processERC20DepositLogs, filter_cons]
      split
      · refine ok_each_cons.2 ⟨w, ?_, hok⟩
        rw [net.parse_eq, if_neg hl]
        exact ok_pure.2 ⟨rfl, rfl⟩
      · exact hok

end Erc20Network

/-! ## credited in full -/

def depositEvents (db : Db) (txHash network : Text) : List RelayAccountEvent :=
  db.relayAccountEvents.rows.filter fun e => e.reason = depositReason txHash network

/-- the two readers agree: no batch of the projector rejects an event of the transaction. -/
def NeverInvalid (chain : Chain) (db : Db) (txHash network : Text) : Prop :=
  ∀ e ∈ depositEvents db txHash network, ∀ (db' : Db) (batch valid invalid : List RelayAccountEvent),
    e ∈ batch → validatePendingRelayAccountEvents chain db' batch = .ok (valid, invalid) →
      e ∈ valid ∧ e ∉ invalid

/-- the ingestion from `w` to `w'` adds the deposits of the receipt to the cached balances, and a batch
with its events adds them to the projected ones, next to the other events of the batch. -/
structure CreditedInFull (net : Erc20Network) (chain : Chain) (txHash network : Text)
    (logs : List ReceiptLog) (w w' : World) : Prop where
  cached : ∀ a, cachedBalance w' a = cachedBalance w a + net.depositSum logs a
  projected : ∀ (w₁ w₂ : World) (batch : List RelayAccountEvent), batch.Nodup →
    (∀ e ∈ depositEvents w'.db txHash network, e ∈ batch) →
    Ok (processPendingRelayAccountEvents chain batch) w₁ () w₂ →
    ∃ others : List RelayAccountEvent, others.Sublist batch ∧
      (∀ e ∈ others, e ∉ depositEvents w'.db txHash network) ∧
      ∀ a, projectedBalance w₂.db a =
        projectedBalance w₁.db a + net.depositSum logs a + total (others.map (·.posting)) a

section

variable {net : Erc20Network} {chain : Chain} {w' : World}

lemma Chain.ShowsReceipt.validDepositTx (h : chain.ShowsReceipt net txHash network logs) :
    chain.validDepositTx txHash network = .ok (net.validateERC20RelayAccountDepositReceipt logs) := by
  rw [Chain.validDepositTx, h.client, h.successful, h.tokenType, h.deposit]
  rfl

lemma depositEvents_of_appends {ds : List EventDraft}
    (h : ¬ Recorded w.db (depositReason txHash network)) (happ : Appends ds w.db w'.db)
    (hds : ∀ d ∈ ds, d.reason = depositReason txHash network) :
    (depositEvents w'.db txHash network).map (·.draft) = ds := by
  obtain ⟨es, hrows, hdrafts, -⟩ := happ
  have hold : w.db.relayAccountEvents.rows.filter
      (fun e => e.reason = depositReason txHash network) = [] := by
    apply filter_eq_nil_iff.2
    intro e he hr
    exact h (recorded_iff.2 ⟨e, he, of_decide_eq_true hr⟩)
  have hnew : es.filter (fun e => e.reason = depositReason txHash network) = es := by
    apply filter_eq_self.2
    intro e he
    exact decide_eq_true (hds e.draft (hdrafts ▸ mem_map_of_mem he))
  rw [depositEvents, hrows, filter_append, hold, hnew, nil_append, hdrafts]

/-- **the readers agree** on the event of the first deposit. -/
theorem neverInvalid_of_head (hdash : '-' ∉ txHash)
    (hchain : chain.validDepositTx txHash network = .ok (net.deposits logs).head?)
    (hes : (depositEvents w'.db txHash network).map (·.draft) =
      (net.deposits logs).head?.toList.map (depositDraft txHash network)) :
    NeverInvalid chain w'.db txHash network := by
  intro e he db' batch valid invalid hmem hv
  have hdraft : e.draft ∈ (net.deposits logs).head?.toList.map (depositDraft txHash network) :=
    hes ▸ mem_map_of_mem he
  obtain ⟨d, hd, hed⟩ := mem_map.1 hdraft
  have hhead : (net.deposits logs).head? = some d := mem_toList.1 hd
  have hrule : eventRule chain db' e = true :=
    eventRule_deposit hed.symm hdash (hhead ▸ hchain)
  have htype : e.type = .deposit := congrArg EventDraft.type hed.symm
  have hno : e ∉ invalid := by
    intro hinv
    have hdebit := (validatePending_invalid hv hinv).2 hrule
    rw [htype] at hdebit
    cases hdebit
  exact ⟨(validatePending_mem hv hmem).resolve_right hno, hno⟩

/-- a batch adds the events of the transaction, once each, and some of the others. -/
lemma projected_depositEvents (hagree : NeverInvalid chain w'.db txHash network) {w1 w2 : World}
    {batch : List RelayAccountEvent} (hnd : batch.Nodup)
    (hin : ∀ e ∈ depositEvents w'.db txHash network, e ∈ batch)
    (hok : Ok (processPendingRelayAccountEvents chain batch) w1 () w2) :
    ∃ others : List RelayAccountEvent, others.Sublist batch ∧
      (∀ e ∈ others, e ∉ depositEvents w'.db txHash network) ∧
      ∀ a, projectedBalance w2.db a = projectedBalance w1.db a +
        total ((depositEvents w'.db txHash network).map (·.posting)) a +
          total (others.map (·.posting)) a := by
  obtain ⟨valid, invalid, hv, -, rfl⟩ := processPending_ok.1 hok
  have hsub := validatePending_sublist hv
  have hes : (depositEvents w'.db txHash network).Nodup :=
    (List.Nodup.of_map _ w'.db.relayAccountEvents.ids_nodup).filter _
  have hmine : (valid.filter fun e => e ∈ depositEvents w'.db txHash network).Perm
      (depositEvents w'.db txHash network) := by
    apply (perm_ext_iff_of_nodup ((hsub.nodup hnd).filter _) hes).2
    intro e
    rw [mem_filter, decide_eq_true_eq]
    exact ⟨And.right, fun he => ⟨(hagree e he _ batch valid invalid (hin e he) hv).1, he⟩⟩
  refine ⟨valid.filter fun e => !decide (e ∈ depositEvents w'.db txHash network),
    filter_sublist.trans hsub, ?_, ?_⟩
  · intro e he hmem
    have hno := (mem_filter.1 he).2
    rw [decide_eq_true hmem] at hno
    cases hno
  · intro a
    have hall := (filter_append_perm
      (fun e => decide (e ∈ depositEvents w'.db txHash network)) valid).map (·.posting)
    rw [map_append] at hall
    have hadd : projectedBalance (markProcessed valid (addMergedAccounts valid
        (markInvalid invalid w1.db))) a =
          projectedBalance w1.db a + total (valid.map (·.posting)) a :=
      projectedBalance_addMergedAccounts valid (markInvalid invalid w1.db) a
    rw [hadd, ← total_perm hall, total_append, total_perm (hmine.map _), add_assoc]

end

/-! ## receipts with one deposit -/

lemma head?_toList_of_length_le_one {α : Type} {l : List α} (h : l.length ≤ 1) :
    l.head?.toList = l := by
  match l, h with
  | [], _ => rfl
  | [x], _ => rfl

lemma Erc20Network.depositSum_gt_head {net : Erc20Network}
    {d1 d2 : DepositTxData} {rest : List DepositTxData} (h : net.deposits logs = d1 :: d2 :: rest) :
    total [(⟨d1.fromAddress, d1.amount⟩ : Posting Text Int)] d2.fromAddress <
      net.depositSum logs d2.fromAddress := by
  have hpos : ∀ d ∈ d1 :: d2 :: rest, 0 < d.amount := fun d hd => net.amount_pos (h ▸ hd)
  have h2 := hpos d2 (mem_cons_of_mem _ mem_cons_self)
  have hrest : 0 ≤ total (rest.map fun d => (⟨d.fromAddress, d.amount⟩ : Posting Text Int))
      d2.fromAddress := by
    apply total_nonneg
    intro p hp
    obtain ⟨d, hd, rfl⟩ := mem_map.1 hp
    exact (hpos d (mem_cons_of_mem _ (mem_cons_of_mem _ hd))).le
  rw [Erc20Network.depositSum, h, map_cons, map_cons, total_cons, total_cons, total_cons,
    total_nil, if_pos rfl]
  show _ + 0 < _ + (d2.amount + _)
  omega

/-- **a receipt is credited in full exactly when it has at most one deposit**; the projector accepts
what was ingested either way. -/
theorem erc20_credited_iff (net : Erc20Network) (chain : Chain) (txHash network : Text)
    (logs : List ReceiptLog) (w : World) (hdash : '-' ∉ txHash)
    (hnew : ¬ Recorded w.db (depositReason txHash network))
    (hshows : chain.ShowsReceipt net txHash network logs)
    (hdata : ∀ l ∈ logs, net.IsDeposit l → l.data.length = 32) :
    ∃ w', Ok (net.processERC20DepositLogs txHash network logs) w () w' ∧
      NeverInvalid chain w'.db txHash network ∧
      (CreditedInFull net chain txHash network logs w w' ↔ (net.deposits logs).length ≤ 1) := by
  obtain ⟨w', hok, hposts⟩ := net.ingest_ok hnew logs
  have hes := depositEvents_of_appends hnew hposts.appends (by
    intro d hd
    obtain ⟨x, -, rfl⟩ := List.mem_map.1 hd
    rfl)
  have hchain := hshows.validDepositTx
  rw [net.validate_eq logs hdata] at hchain
  have hagree := neverInvalid_of_head hdash hchain hes
  refine ⟨w', hok, hagree, fun hfull => ?_, fun hone => ?_⟩
  · match hds : net.deposits logs with
    | [] => exact Nat.zero_le _
    | [_] => exact le_rfl
    | d1 :: d2 :: rest =>
      have hlt := Erc20Network.depositSum_gt_head hds
      have hfull := hfull.cached d2.fromAddress
      have hfirst := hposts.cached d2.fromAddress
      rw [hds] at hfirst
      have hpost : total (([d1].map (depositDraft txHash network)).map (·.posting)) d2.fromAddress =
          total [(⟨d1.fromAddress, d1.amount⟩ : Posting Text Int)] d2.fromAddress := rfl
      have : cachedBalance w' d2.fromAddress = cachedBalance w d2.fromAddress +
        total (([d1].map (depositDraft txHash network)).map (·.posting)) d2.fromAddress := hfirst
      omega
  · rw [head?_toList_of_length_le_one hone] at hposts hes
    have hsum : ∀ a, total (((net.deposits logs).map (depositDraft txHash network)).map (·.posting)) a =
        net.depositSum logs a := by
      intro a
      rw [Erc20Network.depositSum, List.map_map]
      rfl
    refine ⟨fun a => by rw [hposts.cached a, hsum], fun w1 w2 batch hnd hin hproc => ?_⟩
    obtain ⟨others, hsub, hnot, hproj⟩ := projected_depositEvents hagree hnd hin hproc
    refine ⟨others, hsub, hnot, fun a => ?_⟩
    have hmine : (depositEvents w'.db txHash network).map (·.posting) =
        ((net.deposits logs).map (depositDraft txHash network)).map (·.posting) := by
      rw [← hes, List.map_map]
      rfl
    rw [hproj a, hmine, hsum]

/-! ## two senders in one transaction -/

/-- the last `k` hexadecimal digits of a number. -/
def hexDigits : Nat → Nat → Text
  | 0, _ => []
  | k + 1, n => hexDigits k (n / 16) ++ [Nat.digitChar (n % 16)]

def ofHexDigits (t : Text) : Nat := t.foldl (fun n c => 16 * n + "0123456789abcdef".toList.idxOf c.toLower) 0

lemma ofHexDigits_fold {t t' : Text} (h : t.map Char.toLower = t'.map Char.toLower) :
    ofHexDigits t = ofHexDigits t' := by
  have hlower : ∀ t : Text, ofHexDigits t =
      (t.map Char.toLower).foldl (fun n c => 16 * n + "0123456789abcdef".toList.idxOf c) 0 := by
    intro t
    rw [foldl_map, ofHexDigits]
  rw [hlower, hlower, h]

lemma ofHexDigits_hexDigits (k n : Nat) : ofHexDigits (hexDigits k n) = n % 16 ^ k := by
  have hdigit : ∀ d < 16, "0123456789abcdef".toList.idxOf (Nat.digitChar d).toLower = d := by decide
  induction k generalizing n with
  | zero => exact (Nat.mod_one n).symm
  | succ k ih =>
    have hlast := hdigit (n % 16) (Nat.mod_lt n (by decide))
    rw [ofHexDigits, hexDigits, foldl_append, ← ofHexDigits, ih, foldl_cons, foldl_nil, hlast, pow_succ', Nat.mod_mul]
    exact Nat.add_comm _ _

lemma ofHexDigits_address (a : BitVec 160) (t : Text) (h : equalFold ('0' :: 'x' :: hexDigits 40 a.toNat) t = true) :
    BitVec.ofNat 160 (ofHexDigits (t.drop 2)) = a := by
  have hfold := congrArg (List.drop 2) (of_decide_eq_true h : _ = t.map Char.toLower)
  have hlt : a.toNat < 16 ^ 40 := a.isLt
  rw [← map_drop, ← map_drop] at hfold
  rw [← ofHexDigits_fold hfold, drop_succ_cons, drop_succ_cons, drop_zero, ofHexDigits_hexDigits,
    Nat.mod_eq_of_lt hlt, BitVec.ofNat_toNat, BitVec.setWidth_eq]

/-- `Address.Hex`, without the capitals of the checksum. -/
def hexCodec : AddressCodec where
  hex := fun a => '0' :: 'x' :: hexDigits 40 a.toNat
  hexToAddress := fun t => BitVec.ofNat 160 (ofHexDigits (t.drop 2))
  hexToAddress_of_fold := ofHexDigits_address

def tokenNetwork : Erc20Network where
  codec := hexCodec
  transferTopic := 7
  tokenAddress := hexCodec.hex 9
  depositAddress := hexCodec.hex 8

def transferLog (a : BitVec 256) (amount : Fin 256) : ReceiptLog where
  address := 9
  topics := [7, a, 8]
  data := List.replicate 31 0 ++ [amount]

def receiptChain (logs : List ReceiptLog) : Chain where
  hasClient := fun _ => true
  receiptStatus := fun _ _ => .ok (some true)
  fundingTokenType := fun _ => some .erc20
  transactionTransfer := fun _ _ => .ok none
  erc20Deposit := fun _ _ => tokenNetwork.validateERC20RelayAccountDepositReceipt logs

theorem erc20_credited_iff_at_oneTransfer :
    ∃ w', Ok (tokenNetwork.processERC20DepositLogs ['h'] ['e'] [transferLog 1 5]) ⟨{}, {}⟩ () w' ∧
      CreditedInFull tokenNetwork (receiptChain [transferLog 1 5]) ['h'] ['e'] [transferLog 1 5]
        ⟨{}, {}⟩ w' := by
  obtain ⟨w', hok, -, hiff⟩ := erc20_credited_iff tokenNetwork (receiptChain [transferLog 1 5]) ['h']
    ['e'] [transferLog 1 5] ⟨{}, {}⟩ (by decide) (by decide) ⟨rfl, rfl, rfl, rfl⟩ (by
      intro l hl _
      rw [mem_singleton.1 hl]
      rfl)
  exact ⟨w', hok, hiff.2 (by decide)⟩

/-- **the second log of a transaction is lost**: the router transaction pays 5 for one sender and 7 for
another, and the other sender's balance stays at zero. -/
theorem second_transfer_lost :
    ∃ w', Ok (tokenNetwork.processERC20DepositLogs ['h'] ['e'] [transferLog 1 5, transferLog 2 7])
        ⟨{}, {}⟩ () w' ∧ tokenNetwork.depositSum [transferLog 1 5, transferLog 2 7] (hexCodec.hex 2) = 7 ∧
      cachedBalance w' (hexCodec.hex 2) = 0 ∧ pendingSum w'.db (hexCodec.hex 2) = 0 := by
  refine ⟨_, rfl, by decide +kernel, by decide +kernel, by decide +kernel⟩

end CrynuxRelay

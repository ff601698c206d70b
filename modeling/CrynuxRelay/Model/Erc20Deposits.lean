import CrynuxRelay.Model.Funding

/-!
# Deposits in an ERC20 token

On a network that is used for deposits and withdrawals only, a deposit is a `Transfer` log of the
configured token.  The block processor works log by log; the projector reads the receipt of the
transaction again and takes its first log that matches.

* `ReceiptLog`, `AddressCodec` -- the logs of a receipt, and the library's functions on addresses;
* `parseERC20DepositLog`, `processERC20DepositLogs` -- the ingestion;
* `validateERC20RelayAccountDepositReceipt` -- the validation.
-/

namespace CrynuxRelay

/-! ## logs -/

structure ReceiptLog where
  address : BitVec 160
  topics : List (BitVec 256)
  data : List (Fin 256)

/-- `Address.Hex` and `HexToAddress` of the Ethereum library: an address is read back from its text,
whatever the case of the digits. -/
structure AddressCodec where
  hex : BitVec 160 → Text
  hexToAddress : Text → BitVec 160
  hexToAddress_of_fold : ∀ a t, equalFold (hex a) t = true → hexToAddress t = a

/-- what the configuration says about a network; `transferTopic` is the hash of the signature of
`Transfer`. -/
structure Erc20Network where
  codec : AddressCodec
  transferTopic : BitVec 256
  tokenAddress : Text
  depositAddress : Text

/-- `SetBytes`: a number from its bytes, the highest one first. -/
def setBytes (data : List (Fin 256)) : Nat := data.foldl (fun n b => 256 * n + b) 0

/-- `BytesToAddress`: the last twenty bytes of a topic. -/
def bytesToAddress (topic : BitVec 256) : BitVec 160 := topic.setWidth 160

namespace Erc20Network

variable (net : Erc20Network)

def addressTopic (address : Text) : BitVec 256 := (net.codec.hexToAddress address).setWidth 256

/-! ## ingestion -/

def query (l : ReceiptLog) : Bool :=
  l.address = net.codec.hexToAddress net.tokenAddress ∧ l.topics[0]? = some net.transferTopic ∧
    l.topics[2]? = some (net.addressTopic net.depositAddress)

def parseERC20DepositLog (l : ReceiptLog) : Option DepositTxData :=
  match l.topics with
  | [t₀, t₁, t₂] =>
    if t₀ ≠ net.transferTopic ∨ equalFold (net.codec.hex l.address) net.tokenAddress = false ∨
        t₂ ≠ net.addressTopic net.depositAddress then none
    else if setBytes l.data = 0 then none
    else if net.codec.hex (bytesToAddress t₁) = net.codec.hex 0 then none
    else some ⟨net.codec.hex (bytesToAddress t₁), setBytes l.data⟩
  | _ => none

/-- the logs of one successful transaction, one after the other. -/
def processERC20DepositLogs (txHash network : Text) (logs : List ReceiptLog) : Relay Unit :=
  Tx.each (fun l => processERC20DepositLog true txHash network (net.parseERC20DepositLog l))
    (logs.filter net.query)

/-! ## validation -/

def validateERC20RelayAccountDepositReceipt : List ReceiptLog → Option DepositTxData
  | [] => none
  | l :: logs =>
    match l.topics with
    | [t₀, t₁, t₂] =>
      if t₀ ≠ net.transferTopic ∨ equalFold (net.codec.hex l.address) net.tokenAddress = false ∨
          t₂ ≠ net.addressTopic net.depositAddress ∨ l.data.length ≠ 32 then
        validateERC20RelayAccountDepositReceipt logs
      else if setBytes l.data = 0 then validateERC20RelayAccountDepositReceipt logs
      else if net.codec.hex (bytesToAddress t₁) = net.codec.hex 0 then
        validateERC20RelayAccountDepositReceipt logs
      else some ⟨net.codec.hex (bytesToAddress t₁), setBytes l.data⟩
    | _ => validateERC20RelayAccountDepositReceipt logs

end Erc20Network

/-- the chain client of a network shows a successful transaction with the given logs. -/
structure Chain.ShowsReceipt (chain : Chain) (net : Erc20Network) (txHash network : Text)
    (logs : List ReceiptLog) : Prop where
  client : chain.hasClient network = true
  successful : chain.receiptStatus network txHash = .ok (some true)
  tokenType : chain.fundingTokenType network = some .erc20
  deposit : chain.erc20Deposit network txHash = net.validateERC20RelayAccountDepositReceipt logs

end CrynuxRelay

import AveroWallet.Transaction
import Mathlib.Data.String.Basic

set_option autoImplicit false

/- The inputs and results of `WalletModel::sendCoins`, and the collaborators it calls. The
collaborators (address parsing, stealth key agreement, the narration cipher, the wallet's
coin, transaction and address-book operations, the fee prompt) are not in this repository:
each is a field of an environment, so that every statement holds for every behaviour of them,
and only the laws the real collaborators keep are stated as fields. -/
namespace AveroWallet

/-- `SendCoinsRecipient`, with the fields `sendCoins` reads. -/
structure SendCoinsRecipient where
  address : String
  label : String
  narration : String
  typeInd : Int
  amount : Int64
deriving DecidableEq

/-- `WalletModel::StatusCode`. -/
inductive StatusCode
  | ok
  | invalidAmount
  | invalidAddress
  | amountExceedsBalance
  | amountWithFeeExceedsBalance
  | duplicateAddress
  | transactionCreationFailed
  | transactionCommitFailed
  | aborted
  | narrationTooLong
deriving DecidableEq, Repr

/-- `WalletModel::SendCoinsReturn`: a status, the fee it reports and the transaction id. -/
structure SendCoinsReturn where
  status : StatusCode
  fee : Int64 := 0
  hex : String := ""
deriving DecidableEq

/-- `return InvalidAddress;` and the like: a status alone converts to a `SendCoinsReturn`. -/
instance : Coe StatusCode SendCoinsReturn := ⟨fun status => { status }⟩

/-- `CCoinControl`, passed through to the wallet unchanged. -/
structure CCoinControl where
  setSelected : List COutPoint
  destChange : CTxDestination
deriving DecidableEq

abbrev EcSecret := Bytes

abbrev EcPoint := Bytes

/-- A decoded `CStealthAddress`. -/
structure CStealthAddress where
  scanPubkey : EcPoint
  spendPubkey : EcPoint
deriving DecidableEq

/-- The address parsers. `IsStealthAddress` and `CStealthAddress::SetEncoded` check the same
base58 stealth format, so a string the first accepts also decodes under the second. -/
structure AddressCodec where
  bitcoinAddress : String → CBitcoinAddress
  isStealthAddress : String → Bool
  setEncoded : String → Option CStealthAddress
  setEncoded_of_isStealthAddress :
    ∀ address, isStealthAddress address = true → (setEncoded address).isSome = true

/-- Stealth key agreement (`stealth.cpp`) and the narration cipher (`SecMsgCrypter`).
Randomness is an oracle tape: `generateRandomSecret k` is the outcome of the `k`-th call. -/
structure StealthOps where
  generateRandomSecret : Nat → Option EcSecret
  stealthSecret : EcSecret → EcPoint → EcPoint → Option (EcSecret × EcPoint)
  pubKeyIsValid : EcPoint → Bool
  pubKeyGetID : EcPoint → Bytes
  secretToPublicKey : EcSecret → Option EcPoint
  encrypt : EcSecret → EcPoint → String → Option Bytes

/-- What `CWallet::CreateTransaction` reports: success, the transaction, `nFeeRequired`,
`nChangePos`, and whether it reserved the change key. -/
structure CreateTransactionResult where
  fCreated : Bool
  wtx : CWalletTx
  nFeeRequired : Int64
  nChangePos : Int
  reservesKey : Bool

/-- What `CWallet::CommitTransaction` reports: success, the wallet after it, and whether it
kept the reserved key. -/
structure CommitResult where
  committed : Bool
  wallet : CWallet
  keepsKey : Bool

/-- The wallet and interface operations `sendCoins` calls. `AvailableCoins` returns outputs
whose index is inside their transaction. -/
structure WalletOps where
  availableCoins : CWallet → Option CCoinControl → List { out : COutput // out.InRange }
  createTransaction :
    CWallet → List (CScript × Int64) → Option CCoinControl → CreateTransactionResult
  commitTransaction : CWallet → CWalletTx → CommitResult
  getHashHex : CWalletTx → String
  updateStealthAddress : CWallet → String → String → CWallet
  setAddressBookName : CWallet → CTxDestination → String → CWallet
  threadSafeAskFee : Int64 → Bool

/-- Everything `sendCoins` reads besides its arguments, the globals `nTransactionFee` and
`AddressTableModel::AT_Stealth` included. -/
structure SendEnv where
  codec : AddressCodec
  stealth : StealthOps
  wallet : WalletOps
  nTransactionFee : Int64
  atStealth : Int

/-- `WalletModel::validateAddress`. -/
def validateAddress (codec : AddressCodec) (address : String) : Bool :=
  if address.utf8ByteSize > 75 && codec.isStealthAddress address then true
  else (codec.bitcoinAddress address).IsValid

/-- A stealth address in `validateAddress`'s sense: longer than 75 bytes and accepted by
`IsStealthAddress`. -/
def IsStealthFormat (codec : AddressCodec) (address : String) : Prop :=
  address.utf8ByteSize > 75 ∧ codec.isStealthAddress address = true

instance (codec : AddressCodec) (address : String) : Decidable (IsStealthFormat codec address) :=
  inferInstanceAs (Decidable (_ ∧ _))

/-- An accepted address that is not a stealth address parses as a standard address. -/
theorem valid_of_validateAddress {codec : AddressCodec} {address : String}
    (accepted : validateAddress codec address = true) (standard : ¬ IsStealthFormat codec address) :
    (codec.bitcoinAddress address).IsValid = true := by
  unfold IsStealthFormat at standard
  by_cases long : address.utf8ByteSize > 75 <;>
    simp_all [validateAddress]

/-- A concrete environment for the statements about fixed inputs: `A` and `B` are standard
addresses, every string longer than 75 bytes is a stealth address, key agreement and
encryption succeed, the wallet's one coin is worth 10, `CreateTransaction` fails with no fee,
and every fee is approved. -/
def sampleEnv : SendEnv where
  codec :=
    { bitcoinAddress := fun address =>
        ⟨if address = "A" then some (.keyID [1])
          else if address = "B" then some (.keyID [2]) else none⟩
      isStealthAddress := fun address => 75 < address.utf8ByteSize
      setEncoded := fun address =>
        if 75 < address.utf8ByteSize then some ⟨[2], [3]⟩ else none
      setEncoded_of_isStealthAddress := fun address long => by simp_all }
  stealth :=
    { generateRandomSecret := fun _ => some [7]
      stealthSecret := fun _ _ _ => some ([8], [9])
      pubKeyIsValid := fun _ => true
      pubKeyGetID := fun _ => [4]
      secretToPublicKey := fun _ => some [5]
      encrypt := fun _ _ _ => some [6] }
  wallet :=
    { availableCoins := fun _ _ =>
        [⟨⟨⟨[], [⟨10, setDestination (.keyID [9])⟩], []⟩, 0, 1, true⟩, by decide⟩]
      createTransaction := fun _ _ _ => ⟨false, ⟨[], [], []⟩, 0, -1, false⟩
      commitTransaction := fun wallet _ => ⟨true, wallet, true⟩
      getHashHex := fun _ => "00"
      updateStealthAddress := fun wallet _ _ => wallet
      setAddressBookName := fun wallet _ _ => wallet
      threadSafeAskFee := fun _ => true }
  nTransactionFee := 0
  atStealth := 2

/-- The empty wallet. -/
def emptyWallet : CWallet := ⟨⟨[], .nil⟩, [], ∅⟩

/-- An 80-byte string, a stealth address for `sampleEnv`. -/
def sampleStealthAddress : String := ⟨List.replicate 80 's'⟩

end AveroWallet

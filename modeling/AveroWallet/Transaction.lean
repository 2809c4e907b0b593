import AveroWallet.Int64
import Mathlib.Data.Finset.Max

set_option autoImplicit false

/- Scripts, destinations, wallet transactions and the key pool, with the fields the modelled
functions of `walletmodel.cpp` read. Byte strings are `List UInt8`; hashes are `Nat`. -/
namespace AveroWallet

abbrev Bytes := List UInt8

/-- The opcodes of the scripts `sendCoins` builds. -/
inductive Opcode
  | opDup
  | opHash160
  | opEqualVerify
  | opCheckSig
  | opEqual
  | opReturn
deriving DecidableEq, Repr

/-- One element of a `CScript`: an opcode, or a data push (`script << vch`). -/
inductive ScriptItem
  | op (code : Opcode)
  | push (data : Bytes)
deriving DecidableEq, Repr

abbrev CScript := List ScriptItem

/-- `CTxDestination` as the modelled code builds it. -/
inductive CTxDestination
  | noDestination
  | keyID (id : Bytes)
  | scriptID (id : Bytes)
deriving DecidableEq, Repr

/-- What a valid `CBitcoinAddress` holds: a key hash or a script hash. -/
inductive AddressPayload
  | keyID (id : Bytes)
  | scriptID (id : Bytes)
deriving DecidableEq, Repr

def AddressPayload.toDestination : AddressPayload → CTxDestination
  | .keyID id => .keyID id
  | .scriptID id => .scriptID id

/-- A parsed `CBitcoinAddress`: its payload, or nothing when the string does not decode. -/
structure CBitcoinAddress where
  payload : Option AddressPayload
deriving DecidableEq, Repr

namespace CBitcoinAddress

def IsValid (address : CBitcoinAddress) : Bool := address.payload.isSome

/-- `CBitcoinAddress::Get`: `CNoDestination` for an address that is not valid. -/
def Get (address : CBitcoinAddress) : CTxDestination :=
  match address.payload with
  | some payload => payload.toDestination
  | none => .noDestination

theorem Get_ne_noDestination {address : CBitcoinAddress} (valid : address.IsValid = true) :
    address.Get ≠ .noDestination := by
  rcases address with ⟨_ | ⟨id⟩ | ⟨id⟩⟩ <;> simp_all [IsValid, Get, AddressPayload.toDestination]

end CBitcoinAddress

/-- Modelled from the spec: `CScript::SetDestination` (script.cpp) writes the standard
pay-to-destination script, and nothing for `CNoDestination`. -/
def setDestination : CTxDestination → CScript
  | .noDestination => []
  | .keyID id => [.op .opDup, .op .opHash160, .push id, .op .opEqualVerify, .op .opCheckSig]
  | .scriptID id => [.op .opHash160, .push id, .op .opEqual]

theorem setDestination_eq_nil_iff (dest : CTxDestination) :
    setDestination dest = [] ↔ dest = .noDestination := by
  cases dest <;> simp [setDestination]

structure COutPoint where
  hash : Nat
  n : Nat
deriving DecidableEq, Repr

structure CTxIn where
  prevout : COutPoint
deriving DecidableEq, Repr

structure CTxOut where
  nValue : Int64
  scriptPubKey : CScript
deriving DecidableEq

/-- `map[key] = value` on a `std::map` kept as its entries in increasing key order. -/
def mapAssign {κ ν : Type} [LT κ] [DecidableRel (@LT.lt κ _)] [DecidableEq κ] :
    List (κ × ν) → κ → ν → List (κ × ν)
  | [], key, value => [(key, value)]
  | (k, v) :: rest, key, value =>
    if key < k then (key, value) :: (k, v) :: rest
    else if key = k then (key, value) :: rest
    else (k, v) :: mapAssign rest key value

/-- Assigning a key above every key of the map appends it. -/
theorem mapAssign_of_lt {κ ν : Type} [LinearOrder κ] (entries : List (κ × ν)) (key : κ)
    (value : ν) (above : ∀ entry ∈ entries, entry.1 < key) :
    mapAssign entries key value = entries ++ [(key, value)] := by
  induction entries with
  | nil => rfl
  | cons entry rest ih =>
    have lt := above entry (List.mem_cons_self _ _)
    simp only [mapAssign, not_lt_of_lt lt, ne_of_gt lt, if_false, List.cons_append,
      ih fun other mem => above other (List.mem_cons_of_mem _ mem)]

theorem lookup_mapAssign {κ ν : Type} [LT κ] [DecidableRel (@LT.lt κ _)] [DecidableEq κ]
    (entries : List (κ × ν)) (key other : κ) (value : ν) :
    (mapAssign entries key value).lookup other =
      if other = key then some value else entries.lookup other := by
  induction entries with
  | nil => by_cases same : other = key <;> simp [mapAssign, List.lookup_cons, same, beq_false_of_ne]
  | cons entry rest ih =>
    obtain ⟨k, v⟩ := entry
    unfold mapAssign
    by_cases same : other = k <;> by_cases new : other = key <;> split_ifs <;>
      simp_all [List.lookup_cons, beq_false_of_ne]

/-- A wallet transaction: its inputs, its outputs and its `mapValue` metadata, a `std::map`
kept as its list of entries. -/
structure CWalletTx where
  vin : List CTxIn
  vout : List CTxOut
  mapValue : List (String × String)
deriving DecidableEq

/-- `COutput`: output `i` of the transaction `tx` points into `mapWallet`. -/
structure COutput where
  tx : CWalletTx
  i : Nat
  nDepth : Int
  fSpendable : Bool
deriving DecidableEq

/-- An output whose index is inside its transaction, as `AvailableCoins` returns them. -/
def COutput.InRange (out : COutput) : Prop := out.i < out.tx.vout.length

instance (out : COutput) : Decidable out.InRange := inferInstanceAs (Decidable (_ < _))

/-- `mapWallet`: transactions by hash, one entry per hash. -/
structure MapWallet where
  entries : List (Nat × CWalletTx)
  nodupKeys : (entries.map Prod.fst).Nodup

namespace MapWallet

def find (mapWallet : MapWallet) (hash : Nat) : Option CWalletTx := mapWallet.entries.lookup hash

/-- `mapWallet.count(hash)`. -/
def count (mapWallet : MapWallet) (hash : Nat) : Nat := if (mapWallet.find hash).isSome then 1 else 0

/-- `mapWallet.size()`. -/
def size (mapWallet : MapWallet) : Nat := mapWallet.entries.length

end MapWallet

instance : DecidableEq MapWallet := fun a b =>
  decidable_of_iff (a.entries = b.entries) (by cases a; cases b; simp)

/-- The wallet state `sendCoins` reads and changes. -/
structure CWallet where
  mapWallet : MapWallet
  mapAddressBook : List (CTxDestination × String)
  setKeyPool : Finset Nat
deriving DecidableEq

/-- `CReserveKey`: the key-pool index it holds (`nIndex`, -1 when it holds none). -/
structure CReserveKey where
  nIndex : Option Nat
deriving DecidableEq

namespace CReserveKey

/-- Modelled from the spec: a change key is reserved from the pool (`CReserveKey` with
`CWallet::ReserveKeyFromKeyPool`, which takes the first index of `setKeyPool`). -/
def GetReservedKey (key : CReserveKey) (wallet : CWallet) : CReserveKey × CWallet :=
  match key.nIndex with
  | some _ => (key, wallet)
  | none =>
    if nonempty : wallet.setKeyPool.Nonempty then
      let nIndex := wallet.setKeyPool.min' nonempty
      (⟨some nIndex⟩, { wallet with setKeyPool := wallet.setKeyPool.erase nIndex })
    else (key, wallet)

/-- Modelled from the spec: the destructor `~CReserveKey` returns a key still held to the
pool. -/
def ReturnKey (key : CReserveKey) (wallet : CWallet) : CWallet :=
  match key.nIndex with
  | some nIndex => { wallet with setKeyPool := insert nIndex wallet.setKeyPool }
  | none => wallet

/-- Modelled from the spec: `KeepKey` takes the held key out of the pool for good. -/
def KeepKey (_key : CReserveKey) : CReserveKey := ⟨none⟩

@[simp] theorem ReturnKey_none (wallet : CWallet) : ReturnKey ⟨none⟩ wallet = wallet := rfl

@[simp] theorem KeepKey_nIndex (key : CReserveKey) : (KeepKey key).nIndex = none := rfl

/-- Reserving a fresh key and returning it leaves the wallet as it was. -/
theorem ReturnKey_GetReservedKey (wallet : CWallet) :
    ReturnKey (GetReservedKey ⟨none⟩ wallet).1 (GetReservedKey ⟨none⟩ wallet).2 = wallet := by
  unfold GetReservedKey
  split_ifs with nonempty
  · simp only [ReturnKey, Finset.insert_erase (Finset.min'_mem _ nonempty)]
  · rfl

end CReserveKey

end AveroWallet

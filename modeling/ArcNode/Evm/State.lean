/-
**Accounts, logs and the journal of a transaction.**

The state that a transaction works on, in the words of `revm`, which is not part of the repository:
accounts as the database has them, and during a transaction also what was there at its start, what
is warm, and the flags touched, created and self-destructed. The operations are those the node
calls: loads, storage reads and writes, transfers, the creation of an account, SELFDESTRUCT under
EIP-6780, and the commit.

`Record` is what a revert takes back besides the accounts: the logs and, as an observation that no
code reads, the moves of coins, each with a note whether a party was blocklisted at that moment.
-/

import Mathlib
import ArcNode.Lib.Journal
import ArcNode.Lib.Ledger
import ArcNode.Types.Basic

namespace ArcNode.Evm

open ArcNode.Lib ArcNode.Types

/-! ### Numbers -/

abbrev U256 := Fin (2 ^ 256)

namespace U256

def saturatingAdd (first second : U256) : U256 :=
  if first.val + second.val < 2 ^ 256 then first + second else Fin.ofNat _ (2 ^ 256 - 1)

def saturatingSub (first second : U256) : U256 := Fin.ofNat _ (first.val - second.val)

theorem val_saturatingSub (first second : U256) :
    (saturatingSub first second).val = first.val - second.val :=
  Nat.mod_eq_of_lt (lt_of_le_of_lt (Nat.sub_le _ _) first.isLt)

theorem val_add_of_lt {first second : U256} (fits : first.val + second.val < 2 ^ 256) :
    (first + second).val = first.val + second.val := by
  rw [Fin.val_add]
  exact Nat.mod_eq_of_lt fits

theorem val_sub_of_le {first second : U256} (enough : second.val ≤ first.val) :
    (first - second).val = first.val - second.val :=
  Fin.sub_val_of_le (Fin.le_def.mpr enough)

theorem val_saturatingAdd_of_lt {first second : U256} (fits : first.val + second.val < 2 ^ 256) :
    (saturatingAdd first second).val = first.val + second.val := by
  rw [saturatingAdd, if_pos fits, val_add_of_lt fits]

end U256

/-! ### Hardforks -/

inductive ArcHardfork where
  | zero3
  | zero4
  | zero5
  | zero6
  | zero7
  | zero8
  deriving DecidableEq

/-- Which forks are active; each can be enabled without the others. -/
structure ArcHardforkFlags where
  zero3 : Bool
  zero4 : Bool
  zero5 : Bool
  zero6 : Bool
  zero7 : Bool
  zero8 : Bool
  deriving DecidableEq, Inhabited

def ArcHardforkFlags.isActive (flags : ArcHardforkFlags) : ArcHardfork → Bool
  | .zero3 => flags.zero3
  | .zero4 => flags.zero4
  | .zero5 => flags.zero5
  | .zero6 => flags.zero6
  | .zero7 => flags.zero7
  | .zero8 => flags.zero8

/-! ### Addresses and messages -/

def nativeCoinAuthorityAddress : Address := 0x1800000000000000000000000000000000000000

def nativeCoinControlAddress : Address := 0x1800000000000000000000000000000000000001

def systemAccountingAddress : Address := 0x1800000000000000000000000000000000000002

def callFromAddress : Address := 0x1800000000000000000000000000000000000003

def nativeFiatTokenAddress : Address := 0x3600000000000000000000000000000000000000

def memoAddress : Address := 0x5294E9927c3306DcBaDb03fe70b92e01cCede505

def multicall3FromAddress : Address := 0x522fAf9A91c41c443c66765030741e4AaCe147D0

/-- The system address of EIP-4788, which emits the transfer logs. -/
def systemAddress : Address := 0xfffffffffffffffffffffffffffffffffffffffe

/-- The slot of the total supply in the storage of NativeCoinAuthority. -/
def totalSupplyStorageKey : U256 := 2

def errZeroAddress : String := "Zero address not allowed"

def errBlockedAddress : String := "Blocked address"

def errSelfdestructedBalanceIncreased : String :=
  "Cannot increase the balance of selfdestructed account"

/-- What the node takes from hashing: the slot of an address in the blocklist, and the addresses of
created contracts. -/
structure Hashes where
  isBlocklistedStorageSlot : Address → U256
  createAddress : Address → ℕ → Address
  create2Address : Address → U256 → List Byte → Address
  deriving Inhabited

/-- `is_blocklisted_status`: every non-zero word means blocked. -/
def isBlocklistedStatus (status : U256) : Bool := decide (status ≠ 0)

/-! ### Accounts -/

/-- The code of an account: none, that of a contract, or an EIP-7702 delegation. -/
inductive Code where
  | empty
  | contract (bytes : List Byte)
  | delegated (delegate : Address)
  deriving DecidableEq

/-- An account between two transactions. -/
structure StoredAccount where
  balance : U256
  nonce : ℕ
  code : Code
  storage : U256 → U256

/-- An account within a transaction. -/
structure Account where
  balance : U256
  nonce : ℕ
  code : Code
  storage : U256 → U256
  original : U256 → U256
  warm : Bool
  warmSlots : U256 → Bool
  touched : Bool
  created : Bool
  destroyed : Bool

namespace StoredAccount

/-- What an address without an account reads as. -/
def absent : StoredAccount := ⟨0, 0, .empty, fun _ => 0⟩

/-- The account as a transaction first sees it. -/
def load (account : StoredAccount) : Account :=
  ⟨account.balance, account.nonce, account.code, account.storage, account.storage, false,
    fun _ => false, false, false, false⟩

end StoredAccount

namespace Account

/-- `AccountInfo::is_empty`, of EIP-161. -/
def isEmpty (account : Account) : Bool :=
  decide (account.balance = 0) && decide (account.nonce = 0) && decide (account.code = .empty)

/-- What the commit leaves in the database: a self-destructed account is deleted, and so is an empty
one that was touched. -/
def commit (account : Account) : StoredAccount :=
  if account.destroyed || (account.touched && account.isEmpty) then .absent
  else ⟨account.balance, account.nonce, account.code, account.storage⟩

end Account

/-! ### Logs and records -/

/-- The content of a log: the events of the native coin, or whatever a contract emits. -/
inductive LogData where
  | transfer (sender receiver : Address) (amount : U256)
  | blocklisted (account : Address)
  | unBlocklisted (account : Address)
  | other (topics : List U256) (data : List Byte)
  deriving DecidableEq

structure Log where
  address : Address
  data : LogData
  deriving DecidableEq

/-- What stands on record in the journal. -/
inductive Record where
  | log (log : Log)
  | move (move : Move Address)
  deriving DecidableEq

def Record.move? : Record → Option (Move Address)
  | .log _ => none
  | .move coins => some coins

def Record.log? : Record → Option Log
  | .log entry => some entry
  | .move _ => none

/-- What a transfer log of the system address says. -/
def Record.notice? : Record → Option (Notice Address)
  | .log ⟨address, .transfer sender receiver amount⟩ =>
    if address = systemAddress then some ⟨sender, receiver, amount.val⟩ else none
  | _ => none

/-- `create_eip7708_transfer_log`. -/
def createEip7708TransferLog (sender receiver : Address) (amount : U256) : Log :=
  ⟨systemAddress, .transfer sender receiver amount⟩

/-- The journal of a transaction: accounts, and the logs and moves so far. -/
abbrev EvmJournal := Journal Address Account Record

/-! ### Journal operations -/

section Operations

variable (hashes : Hashes)

/-- `isBlocklistedStatus` of the word that NativeCoinControl stores for an address. -/
def blocklisted (journal : EvmJournal) (address : Address) : Bool :=
  isBlocklistedStatus ((journal.cells nativeCoinControlAddress).storage
    (hashes.isBlocklistedStorageSlot address))

variable (address : Address)

def modifyAccount (change : Account → Account) (journal : EvmJournal) : EvmJournal :=
  journal.write address (change (journal.cells address))

def loadAccount : EvmJournal → EvmJournal :=
  modifyAccount address fun account => { account with warm := true }

/-- The slot becomes warm; its value is `storage` of the account. -/
def sload (key : U256) : EvmJournal → EvmJournal :=
  modifyAccount address fun account =>
    { account with warm := true, warmSlots := Function.update account.warmSlots key true }

def sstore (key value : U256) : EvmJournal → EvmJournal :=
  modifyAccount address fun account =>
    { account with storage := Function.update account.storage key value, touched := true }

def touchAccount : EvmJournal → EvmJournal :=
  modifyAccount address fun account => { account with touched := true }

def setCode (code : Code) : EvmJournal → EvmJournal :=
  modifyAccount address fun account => { account with code := code, touched := true }

/-- `bump_nonce`; the caller checks that the nonce is not at the top of its range. -/
def bumpNonce : EvmJournal → EvmJournal :=
  modifyAccount address fun account =>
    { account with nonce := account.nonce + 1, touched := true }

def emitLog (log : Log) (journal : EvmJournal) : EvmJournal := journal.record (.log log)

/-- The observation of a move of coins that is about to be made. -/
def noteMove (debited credited : Option Address) (amount : U256) (journal : EvmJournal) :
    EvmJournal :=
  journal.record (.move ⟨debited, credited, amount.val,
    debited.any (blocklisted hashes journal) || credited.any (blocklisted hashes journal)⟩)

def credit (amount : U256) : EvmJournal → EvmJournal :=
  modifyAccount address fun account =>
    { account with balance := account.balance + amount, touched := true }

def debit (amount : U256) : EvmJournal → EvmJournal :=
  modifyAccount address fun account =>
    { account with balance := account.balance - amount, touched := true }

/-- The coins of a transfer between two different accounts. -/
def moveCoins (sender receiver : Address) (amount : U256) (journal : EvmJournal) : EvmJournal :=
  credit receiver amount
    (debit sender amount (noteMove hashes (some sender) (some receiver) amount journal))

/-- Why a transfer fails. -/
inductive TransferError where
  | outOfFunds
  | overflowPayment
  | createCollision
  deriving DecidableEq

/-- `transfer_loaded`: a transfer to oneself only checks the funds, one of nothing only touches. -/
def transferLoaded (sender receiver : Address) (amount : U256) (journal : EvmJournal) :
    Except TransferError EvmJournal :=
  if sender = receiver then
    if (journal.cells sender).balance < amount then .error .outOfFunds else .ok journal
  else if amount = 0 then .ok (touchAccount receiver journal)
  else if (journal.cells sender).balance < amount then .error .outOfFunds
  else if (journal.cells receiver).balance.val + amount.val < 2 ^ 256 then
    .ok (moveCoins hashes sender receiver amount journal)
  else .error .overflowPayment

/-- `create_account_checkpoint`, after its checkpoint is taken: an address with code or a nonce is
taken, otherwise the account starts with nonce 1 and receives the endowment. -/
def createAccount (caller target : Address) (value : U256) (journal : EvmJournal) :
    Except TransferError EvmJournal :=
  if (journal.cells target).code ≠ .empty ∨ (journal.cells target).nonce ≠ 0 then
    .error .createCollision
  else
    let born := modifyAccount target (fun account =>
      { account with
        nonce := 1, code := .empty, storage := fun _ => 0, original := fun _ => 0
        touched := true, created := true }) journal
    if value = 0 then .ok born
    else if (journal.cells target).balance.val + value.val < 2 ^ 256 then
      .ok (moveCoins hashes caller target value born)
    else .error .overflowPayment

/-- `selfdestruct` of the journal: the balance goes to the target and, as EIP-6780 has it, only an
account created in the same transaction is destroyed. -/
def selfdestruct (address target : Address) (journal : EvmJournal) : EvmJournal :=
  let balance := (journal.cells address).balance
  let swept :=
    if address = target then
      if (journal.cells address).created then debit address balance journal else journal
    else if balance = 0 then touchAccount target journal
    else moveCoins hashes address target balance journal
  if (journal.cells address).created then
    modifyAccount address (fun account => { account with destroyed := true }) swept
  else swept

end Operations

/-! ### Journals as ledgers -/

/-- The accounts and records of a journal, read as a ledger of coins. -/
def ledger (hashes : Hashes) (cells : Address → Account) (records : List Record) :
    Ledger Address where
  balance address := (cells address).balance.val
  supply := ((cells nativeCoinAuthorityAddress).storage totalSupplyStorageKey).val
  alive address := decide ((cells address).nonce ≠ 0)
  created address := (cells address).created
  destroyed address := (cells address).destroyed
  blocked address := isBlocklistedStatus ((cells nativeCoinControlAddress).storage
    (hashes.isBlocklistedStorageSlot address))
  moves := records.filterMap Record.move?
  notices := records.filterMap Record.notice?

/-- A journal, as the ledger of its coins. -/
abbrev view (hashes : Hashes) (journal : EvmJournal) : Ledger Address :=
  ledger hashes journal.cells journal.records

end ArcNode.Evm

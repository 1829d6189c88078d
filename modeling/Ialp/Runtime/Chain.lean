import Ialp.Pallets.Epochs
import Ialp.Pallets.Transfers
import Ialp.Pallets.Governance
import Ialp.Lib.Transition

/-!
The composed runtime of one domain. A block opens with the hooks in pallet order (epochs, then
governance), applies extrinsics, and closes with the epochs observation. Block numbers and extrinsic
indices are `u32`: there is no block after the last number and no extrinsic after the last index.
-/

namespace Ialp

open Scale

structure Chain (Balances : Type) where
  domainId : DomainId
  number : UInt32
  inBlock : Bool
  extrinsicIndex : UInt32
  epochs : Epochs.State
  transfers : Transfers.State
  governance : Governance.State
  balances : Balances

structure GenesisConfig (Balances : Type) where
  domainId : DomainId
  epochLengthBlocks : UInt32
  transfersImporter : Option AccountId
  protocolVersion : UInt32
  governanceImporter : Option AccountId
  governanceVoters : List AccountId
  balances : Balances

namespace Chain

variable {Balances : Type} (blake2 : Bytes → Hash32) (currency : Currency Balances)

def genesis (config : GenesisConfig Balances) : Chain Balances where
  domainId := config.domainId
  number := 0
  inBlock := false
  extrinsicIndex := 0
  epochs := Epochs.genesis config.epochLengthBlocks
  transfers := Transfers.genesis config.transfersImporter
  governance := Governance.genesis config.protocolVersion config.governanceImporter
    config.governanceVoters
  balances := config.balances

def epochsConfig (domainId : DomainId) : Epochs.Config (Transfers.State × Governance.State) where
  domainId := domainId
  commitEpochExports epochId startHeight endHeight rest :=
    let (root, transfers) :=
      Transfers.commitEpochExports blake2 domainId epochId startHeight endHeight rest.1
    (root, (transfers, rest.2))
  commitEpochImports epochId startHeight endHeight rest :=
    let (root, transfers) :=
      Transfers.commitEpochImports blake2 domainId epochId startHeight endHeight rest.1
    (root, (transfers, rest.2))
  commitEpochGovernance epochId startHeight endHeight rest :=
    (Governance.commitEpochGovernance blake2 domainId epochId startHeight endHeight rest.2, rest)

def openBlock (context : Epochs.BlockContext) (chain : Chain Balances) : Chain Balances :=
  let number := chain.number + 1
  let (epochs, transfers, governance) :=
    Epochs.onInitialize blake2 (epochsConfig blake2 chain.domainId) context
    number chain.epochs (chain.transfers, chain.governance)
  { chain with
    number
    inBlock := true
    extrinsicIndex := 0
    epochs
    transfers
    governance := Governance.onInitialize epochs.currentEpoch number governance }

def callContext (chain : Chain Balances) : CallContext where
  domainId := chain.domainId
  currentEpoch := chain.epochs.currentEpoch
  blockNumber := chain.number
  extrinsicIndex := chain.extrinsicIndex

/-- A failed call is rolled back; its extrinsic still takes an index. -/
def applyTransfers (origin : Origin) (call : Transfers.Call) (chain : Chain Balances) :
    Chain Balances :=
  match Transfers.dispatch blake2 currency chain.callContext origin call chain.transfers
    chain.balances with
  | .ok (transfers, balances) =>
      { chain with transfers, balances, extrinsicIndex := chain.extrinsicIndex + 1 }
  | .error _ => { chain with extrinsicIndex := chain.extrinsicIndex + 1 }

def applyGovernance (origin : Origin) (call : Governance.Call) (chain : Chain Balances) :
    Chain Balances :=
  match Governance.dispatch blake2 currency chain.callContext origin call chain.balances
    chain.governance with
  | .ok governance => { chain with governance, extrinsicIndex := chain.extrinsicIndex + 1 }
  | .error _ => { chain with extrinsicIndex := chain.extrinsicIndex + 1 }

def closeBlock (totals : Epochs.BlockTotals) (chain : Chain Balances) : Chain Balances :=
  { chain with inBlock := false, epochs := Epochs.onFinalize totals chain.number chain.epochs }

/-- What can happen on a chain. `external` is everything else the runtime does, such as fees,
balance transfers and other extrinsics: it changes balances and may advance the extrinsic index. -/
inductive Action (Balances : Type) where
  | openBlock (context : Epochs.BlockContext)
  | transfers (origin : Origin) (call : Transfers.Call)
  | governance (origin : Origin) (call : Governance.Call)
  | external (balances : Balances) (extrinsicIndex : UInt32)
  | closeBlock (totals : Epochs.BlockTotals)

def apply (chain : Chain Balances) : Action Balances → Chain Balances
  | .openBlock context => chain.openBlock blake2 context
  | .transfers origin call => chain.applyTransfers blake2 currency origin call
  | .governance origin call => chain.applyGovernance blake2 currency origin call
  | .external balances extrinsicIndex => { chain with balances, extrinsicIndex }
  | .closeBlock totals => chain.closeBlock totals

/-- When an action can happen. No code but the transfers pallet touches the hold it uses. -/
def Enabled (chain : Chain Balances) : Action Balances → Prop
  | .openBlock _ => chain.inBlock = false ∧ chain.number.toNat + 1 < 2 ^ 32
  | .transfers _ _ => chain.inBlock = true ∧ chain.extrinsicIndex.toNat + 1 < 2 ^ 32
  | .governance _ _ => chain.inBlock = true ∧ chain.extrinsicIndex.toNat + 1 < 2 ^ 32
  | .external balances extrinsicIndex =>
      chain.inBlock = true ∧ chain.extrinsicIndex ≤ extrinsicIndex ∧
        ∀ account, currency.balanceOnHold balances account =
          currency.balanceOnHold chain.balances account
  | .closeBlock _ => chain.inBlock = true

def system (config : GenesisConfig Balances) : Transition.System (Chain Balances) where
  initial chain := chain = genesis config
  step chain chain' := ∃ action, chain.Enabled currency action ∧
    chain' = chain.apply blake2 currency action

end Chain

end Ialp

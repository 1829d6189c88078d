import Ialp.Runtime.Runs

/-! The funds a chain holds for its unresolved exports. -/

namespace Ialp.Chain

open Scale Function

/-- In every state of every run, the balance an account has on hold for cross-domain transfers is
the sum of the amounts of its exports that are not yet finalized remotely. -/
theorem held_funds_backed {Balances : Type} (blake2 : Bytes → Hash32) (currency : Currency Balances)
    (config : GenesisConfig Balances)
    (unheld : ∀ account, currency.balanceOnHold config.balances account = 0)
    (chain : Chain Balances) (reachable : (system blake2 currency config).Reachable chain)
    (distinct : Transfers.IdsDistinct blake2 config.domainId chain.transfers.nextExportSequence)
    (account : AccountId) :
    (currency.balanceOnHold chain.balances account).toNat =
      Transfers.outstanding chain.transfers.exportsById account :=
  Transfers.backed_of_reachable unheld (ledger_reachable reachable) distinct account

section Sample

structure Purse where
  free : U128
  held : U128

def sampleCurrency : Currency (AccountId → Purse) where
  balance purses account := (purses account).free
  balanceOnHold purses account := (purses account).held
  hold purses who amount :=
    if amount ≤ (purses who).free ∧ (purses who).held.toNat + amount.toNat < 2 ^ 128 then
      some (update purses who {
        free := (purses who).free - amount
        held := (purses who).held + amount })
    else none
  burnHeld purses who amount :=
    if amount ≤ (purses who).held then
      some (update purses who { purses who with held := (purses who).held - amount })
    else none
  mintInto purses who amount :=
    if (purses who).free.toNat + amount.toNat < 2 ^ 128 then
      some (update purses who { purses who with free := (purses who).free + amount })
    else none
  hold_exact := by
    intro before after who amount held account
    split at held
    · rename_i room
      cases held
      by_cases same : account = who
      · subst same
        simp only [update_self, if_true]
        exact BitVec.toNat_add_of_lt room.2
      · simp [same]
    · cases held
  burnHeld_exact := by
    intro before after who amount burned account
    split at burned
    · rename_i enough
      cases burned
      by_cases same : account = who
      · subst same
        simp only [update_self, if_true]
        rw [BitVec.toNat_sub_of_le enough]
        exact Nat.sub_add_cancel (BitVec.le_def.mp enough)
      · simp [same]
    · cases burned
  mintInto_held := by
    intro before after who amount minted account
    split at minted
    · cases minted
      by_cases same : account = who
      · subst same
        simp
      · simp [same]
    · cases minted

def sampleGenesis : GenesisConfig (AccountId → Purse) where
  domainId := .earth
  epochLengthBlocks := 1
  transfersImporter := none
  protocolVersion := 1
  governanceImporter := none
  governanceVoters := []
  balances _ := { free := 100, held := 0 }

def sampleActions : List (Action (AccountId → Purse)) :=
  [.openBlock { parentHash := emptyHash, validatorSetHash := emptyHash },
    .transfers (.signed emptyHash) (.createCrossDomainTransfer .moon emptyHash 5)]

theorem idsDistinct_one (blake2 : Bytes → Hash32) (domainId : DomainId) :
    Transfers.IdsDistinct blake2 domainId 1 := by
  intro i j hi hj _
  have one : ∀ k : UInt64, k < 1 → k = 0 := by grind
  exact (one i hi).trans (one j hj).symm

theorem held_funds_backed_sample :
    ∃ chain, runScript sampleHash sampleCurrency (genesis sampleGenesis) sampleActions =
      some chain ∧
      (sampleCurrency.balanceOnHold chain.balances emptyHash).toNat = 5 ∧
      (sampleCurrency.balanceOnHold chain.balances emptyHash).toNat =
        Transfers.outstanding chain.transfers.exportsById emptyHash := by
  refine ⟨_, rfl, by decide, ?_⟩
  apply held_funds_backed sampleHash sampleCurrency sampleGenesis (fun _ => rfl)
  · exact reachable_of_script (.start rfl) (rfl : runScript _ _ _ sampleActions = some _)
  · exact idsDistinct_one _ _

end Sample

end Ialp.Chain

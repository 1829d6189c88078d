import Ialp.Pallets.GovernanceLifecycle
import Ialp.Runtime.Roots
import Ialp.Services.ImporterNode

/-!
The runtime keeps what it has recorded: a view of the chain at a later block has the effects of an
earlier one, as the importer's node is assumed to answer.
-/

namespace Ialp

open Scale Function Relation Hashing

namespace Governance

variable {Balances : Type} {blake2 : Bytes → Hash32} {currency : Currency Balances}
  {context : CallContext} {balances : Balances} {state state' : State} {cause : Option Call}

theorem Touch.acks_kept (touch : Touch blake2 currency context balances state cause state')
    {key : GovernanceProposalId × DomainId} (known : (state.ackRecordsByKey key).isSome) :
    (state'.ackRecordsByKey key).isSome := by
  cases touch with
  | created => exact known
  | voted => exact known
  | rejected => exact known
  | approved => exact known
  | imported => exact isSome_update known
  | acknowledged => exact isSome_update known
  | scheduled => exact known
  | activated => exact known
  | dequeued => exact known

theorem moves_kept_entries {domainId : DomainId} {chamber chamber' : Chamber}
    (moves : ReflTransGen (Move blake2 currency domainId) chamber chamber') :
    (∀ proposalId, (chamber.state.proposalsById proposalId).isSome →
      (chamber'.state.proposalsById proposalId).isSome) ∧
    ∀ key, (chamber.state.ackRecordsByKey key).isSome →
      (chamber'.state.ackRecordsByKey key).isSome := by
  induction moves with
  | refl => exact ⟨fun _ => id, fun _ => id⟩
  | tail _ move kept =>
      cases move with
      | touched _ _ _ touch =>
          exact ⟨fun proposalId known => touch.proposals_kept (kept.1 proposalId known),
            fun key known => touch.acks_kept (kept.2 key known)⟩
      | advanced => exact kept

end Governance

namespace Chain

variable {Balances : Type} {blake2 : Bytes → Hash32} {currency : Currency Balances}
  {config : GenesisConfig Balances} {chain chain' : Chain Balances}

def nodeView (chain : Chain Balances) : Services.NodeView where
  observedImportsById := chain.transfers.observedImportsById
  exportsById := chain.transfers.exportsById
  proposalsById := chain.governance.proposalsById
  ackRecordsByKey := chain.governance.ackRecordsByKey

theorem nodeView_le (reachable : (system blake2 currency config).Reachable chain)
    (step : (system blake2 currency config).step chain chain')
    (free : ¬ Collides blake2 chain'.log) : chain.nodeView ≤ chain'.nodeView := by
  have counted := counted_of_reachable reachable
  have effect := effect_of_step reachable step
  have domain := domainId_of_reachable reachable
  have ledgers : ReflTransGen (Transfers.Move blake2 currency config.domainId)
      chain.ledger chain'.ledger :=
    domain ▸ effect.ledger_moves counted
  have chambers : ReflTransGen (Governance.Move blake2 currency config.domainId)
      chain.chamber chain'.chamber :=
    domain ▸ effect.chamber_moves counted
  have distinct := idsDistinct_of_free (.next reachable step) free
  have entries := Governance.moves_kept_entries chambers
  refine ⟨fun exportId finalized => ?_, fun exportId finalized => ?_, fun leaf imported => ?_⟩
  · obtain ⟨record, stored, final⟩ := finalized
    exact ⟨record, Transfers.moves_finalizedImport_kept ledgers stored final, final⟩
  · obtain ⟨record, stored, final⟩ := finalized
    exact ⟨record, Transfers.moves_finalizedExport_kept (ledger_reachable reachable) ledgers
      distinct stored final, final⟩
  · cases leaf with
    | proposalV1 leaf => exact entries.1 _ imported
    | ackV1 leaf => exact entries.2 _ imported

end Chain

end Ialp

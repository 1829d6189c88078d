import Ialp.Runtime.Runs
import Ialp.Runtime.Funds

/-!
The roots in the headers of closed epochs. What a header commits to is what the present storage
still lists for its epoch, and the byte strings hashed for the transfer roots are in the log.
-/

namespace Ialp.Chain

open Scale Function Transition Relation Hashing

variable {Balances : Type} {blake2 : Bytes → Hash32} {currency : Currency Balances}
  {config : GenesisConfig Balances} {chain chain' : Chain Balances}

def log (chain : Chain Balances) : List Bytes := chain.transfers.hashed ++ chain.governance.hashed

def rootStrings (blake2 : Bytes → Hash32) (transfers : Transfers.State)
    (header : EpochSummaryHeader) : List Bytes :=
  exportFamily.rootPreimages blake2 header.domainId header.epochId header.startBlockHeight
    header.endBlockHeight
      (Transfers.canonicalEpochExports transfers header.epochId) ++
    importFamily.rootPreimages blake2 header.domainId header.epochId header.startBlockHeight
      header.endBlockHeight
      (Transfers.canonicalEpochFinalizedImports blake2 transfers header.epochId)

structure ClosedEpochs (blake2 : Bytes → Hash32) (chain : Chain Balances) : Prop where
  past : ∀ {e header}, chain.epochs.summaryHeaders e = some header → e < chain.epochs.currentEpoch
  certified : ∀ {e}, e < chain.epochs.currentEpoch → ∃ header,
    chain.epochs.summaryHeaders e = some header
  commits : ∀ {e header}, chain.epochs.summaryHeaders e = some header →
    Commits blake2 chain.domainId e chain.transfers chain.governance header
  logged : ∀ {e header}, chain.epochs.summaryHeaders e = some header →
    rootStrings blake2 chain.transfers header ⊆ chain.transfers.hashed

theorem genesis_closedEpochs (config : GenesisConfig Balances) :
    ClosedEpochs blake2 (genesis config) := by
  constructor
  · simp [genesis, Epochs.genesis]
  · intro e past
    exact absurd past (by simp [genesis, Epochs.genesis])
  · simp [genesis, Epochs.genesis]
  · simp [genesis, Epochs.genesis]

theorem Effect.headers (effect : Effect blake2 currency chain chain') :
    (chain'.epochs.currentEpoch = chain.epochs.currentEpoch ∧
      chain'.epochs.summaryHeaders = chain.epochs.summaryHeaders) ∨
    ∃ header, chain'.epochs.currentEpoch = chain.epochs.currentEpoch + 1 ∧
      chain'.epochs.summaryHeaders =
        update chain.epochs.summaryHeaders chain.epochs.currentEpoch (some header) ∧
      Commits blake2 chain.domainId chain.epochs.currentEpoch chain.transfers
        chain.governance header ∧
      chain'.transfers = Transfers.commitEpoch blake2 chain.domainId chain.epochs.currentEpoch
        header.startBlockHeight header.endBlockHeight chain.transfers ∧
      chain'.governance =
        Governance.onInitialize (chain.epochs.currentEpoch + 1)
        (chain.number + 1) chain.governance ∧
      chain.inBlock = false ∧ chain.number.toNat + 1 < 2 ^ 32 := by
  cases effect with
  | opened idle bound _ _ _ _ _ _ opened =>
      cases opened with
      | within epoch headers => exact .inl ⟨epoch, headers⟩
      | closed header epoch headers commits transfers governance =>
          exact .inr ⟨header, epoch, headers, commits, transfers, governance, idle, bound⟩
  | transferred => exact .inl ⟨rfl, rfl⟩
  | governed => exact .inl ⟨rfl, rfl⟩
  | failed => exact .inl ⟨rfl, rfl⟩
  | external => exact .inl ⟨rfl, rfl⟩
  | closed => exact .inl ⟨by simp, by simp⟩

theorem log_subset (reachable : (system blake2 currency config).Reachable chain)
    (step : (system blake2 currency config).step chain chain') : chain.log ⊆ chain'.log := by
  have counted := counted_of_reachable reachable
  have effect := effect_of_step reachable step
  have transfers := Transfers.moves_hashed_subset (effect.ledger_moves counted)
  have chambers : ReflTransGen (Governance.Move blake2 currency config.domainId)
      chain.chamber chain'.chamber :=
    domainId_of_reachable reachable ▸ effect.chamber_moves counted
  have governance := Governance.moves_hashed_subset (chamber_reachable reachable) chambers
  exact List.append_subset.mpr ⟨List.Subset.trans transfers (List.subset_append_left _ _),
    List.Subset.trans governance (List.subset_append_right _ _)⟩

theorem idsDistinct_of_free (reachable : (system blake2 currency config).Reachable chain)
    (free : ¬ Collides blake2 chain.log) :
    Transfers.IdsDistinct blake2 config.domainId chain.transfers.nextExportSequence :=
  Transfers.idsDistinct_of_logged (Transfers.idsLogged_of_reachable (ledger_reachable reachable))
    fun collides => free (collides.mono (List.subset_append_left _ _))

theorem Commits.congr {domainId : DomainId} {e : EpochId} {transfers transfers' : Transfers.State}
    {governance governance' : Governance.State} {header : EpochSummaryHeader}
    (commits : Commits blake2 domainId e transfers governance header)
    (exports : Transfers.canonicalEpochExports transfers' e =
      Transfers.canonicalEpochExports transfers e)
    (imports : Transfers.canonicalEpochFinalizedImports blake2 transfers' e =
      Transfers.canonicalEpochFinalizedImports blake2 transfers e)
    (leaves : Governance.canonicalEpochGovernanceLeaves governance' e =
      Governance.canonicalEpochGovernanceLeaves governance e) :
    Commits blake2 domainId e transfers' governance' header where
  domain := commits.domain
  epoch := commits.epoch
  exports := exports ▸ commits.exports
  imports := imports ▸ commits.imports
  governance := leaves ▸ commits.governance

section Step

variable (reachable : (system blake2 currency config).Reachable chain)
  (step : (system blake2 currency config).step chain chain') (free : ¬ Collides blake2 chain'.log)
include reachable step free

theorem leaves_kept {e : EpochId} (past : e < chain.epochs.currentEpoch) :
    (Transfers.canonicalEpochExports chain'.transfers e =
      Transfers.canonicalEpochExports chain.transfers e ∧
      Transfers.canonicalEpochFinalizedImports blake2 chain'.transfers e =
        Transfers.canonicalEpochFinalizedImports blake2 chain.transfers e) ∧
    Governance.canonicalEpochGovernanceLeaves chain'.governance e =
      Governance.canonicalEpochGovernanceLeaves chain.governance e := by
  have counted := counted_of_reachable reachable
  have effect := effect_of_step reachable step
  have domain := domainId_of_reachable reachable
  have ledgers : ReflTransGen (Transfers.Move blake2 currency config.domainId)
      chain.ledger chain'.ledger :=
    domain ▸ effect.ledger_moves counted
  have chambers : ReflTransGen (Governance.Move blake2 currency config.domainId)
      chain.chamber chain'.chamber :=
    domain ▸ effect.chamber_moves counted
  have distinct := idsDistinct_of_free (.next reachable step) free
  have freeLeaves : ¬ Collides blake2 chain'.governance.hashed := fun collides =>
    free (collides.mono (List.subset_append_right _ _))
  exact ⟨Transfers.moves_kept (ledger_reachable reachable) ledgers distinct past,
    Governance.moves_kept (chamber_reachable reachable) chambers freeLeaves past⟩

theorem leaves_closed {startHeight endHeight : UInt32} (idle : chain.inBlock = false)
    (bound : chain.number.toNat + 1 < 2 ^ 32)
    (transfers : chain'.transfers =
      Transfers.commitEpoch blake2 chain.domainId chain.epochs.currentEpoch
      startHeight endHeight chain.transfers)
    (governance : chain'.governance =
      Governance.onInitialize (chain.epochs.currentEpoch + 1) (chain.number + 1) chain.governance) :
    (Transfers.canonicalEpochExports chain'.transfers chain.epochs.currentEpoch =
        Transfers.canonicalEpochExports chain.transfers chain.epochs.currentEpoch ∧
      Transfers.canonicalEpochFinalizedImports blake2 chain'.transfers chain.epochs.currentEpoch =
        Transfers.canonicalEpochFinalizedImports blake2 chain.transfers chain.epochs.currentEpoch) ∧
    Governance.canonicalEpochGovernanceLeaves chain'.governance chain.epochs.currentEpoch =
      Governance.canonicalEpochGovernanceLeaves chain.governance chain.epochs.currentEpoch := by
  have counted := counted_of_reachable reachable
  have room := counted.epoch_room bound
  have domain := domainId_of_reachable reachable
  have next := UInt64.lt_succ_self room
  have distinct' := idsDistinct_of_free (.next reachable step) free
  have freeLeaves : ¬ Collides blake2 chain'.governance.hashed := fun collides =>
    free (collides.mono (List.subset_append_right _ _))
  constructor
  · have move : Transfers.Move blake2 currency config.domainId chain.ledger
        ⟨chain.epochs.currentEpoch + 1, chain'.transfers, chain.balances⟩ := by
      rw [transfers, domain]
      exact .closed startHeight endHeight room
    have distinct := distinct'.mono move.sequence_le
    have exports := Transfers.exports_of_reachable (ledger_reachable reachable) distinct
    have imports := Transfers.imports_of_reachable (ledger_reachable reachable)
    exact ⟨move.canonicalEpochExports_kept exports distinct' next,
      move.canonicalEpochFinalizedImports_kept imports next⟩
  · have advanced : (Governance.system blake2 currency config.domainId config.protocolVersion
        config.governanceImporter config.governanceVoters).Reachable
        ⟨chain.epochs.currentEpoch + 1, chain.governance⟩ :=
      .next (chamber_reachable reachable) (.advanced room)
    have moves := onInitialize_moves blake2 currency config.domainId chain.balances
      (chain.epochs.currentEpoch + 1) (chain.number + 1) (counted.idle_room idle bound)
    rw [← governance] at moves
    exact Governance.moves_kept advanced moves freeLeaves next

theorem closedEpochs_step (holds : ClosedEpochs blake2 chain) : ClosedEpochs blake2 chain' := by
  have effect := effect_of_step reachable step
  have domain : chain'.domainId = chain.domainId := effect.domainId
  have grown := Transfers.moves_hashed_subset (effect.ledger_moves (counted_of_reachable reachable))
  -- a header written before this step
  have old : ∀ {e header}, chain.epochs.summaryHeaders e = some header →
      Commits blake2 chain'.domainId e chain'.transfers chain'.governance header ∧
        rootStrings blake2 chain'.transfers header ⊆ chain'.transfers.hashed := by
    intro e header stored
    obtain ⟨⟨exports, imports⟩, leaves⟩ := leaves_kept reachable step free (holds.past stored)
    have commits := holds.commits stored
    refine ⟨domain ▸ commits.congr exports imports leaves, ?_⟩
    have logged := holds.logged stored
    rw [rootStrings, commits.epoch, exports, imports]
    rw [rootStrings, commits.epoch] at logged
    exact List.Subset.trans logged grown
  rcases effect.headers with ⟨epoch, headers⟩ | ⟨header, epoch, headers, commits, transfers,
    governance, idle, bound⟩
  · constructor
    · rw [headers, epoch]
      exact holds.past
    · rw [headers, epoch]
      exact holds.certified
    · rw [headers]
      exact fun stored => (old stored).1
    · rw [headers]
      exact fun stored => (old stored).2
  · have room := (counted_of_reachable reachable).epoch_room bound
    obtain ⟨⟨exports, imports⟩, leaves⟩ :=
      leaves_closed reachable step free idle bound transfers governance
    constructor
    · intro e written stored
      rw [headers] at stored
      rw [epoch, UInt64.lt_succ_iff room]
      rcases update_eq_some.mp stored with ⟨current, _⟩ | ⟨_, kept⟩
      · exact .inr current
      · exact .inl (holds.past kept)
    · intro e past
      rw [epoch, UInt64.lt_succ_iff room] at past
      rw [headers]
      rcases past with earlier | current
      · obtain ⟨kept, stored⟩ := holds.certified earlier
        exact ⟨kept, (update_of_ne (UInt64.ne_of_lt earlier) _ _).trans stored⟩
      · exact ⟨header, current ▸ update_self _ _ _⟩
    · intro e written stored
      rw [headers] at stored
      rcases update_eq_some.mp stored with ⟨rfl, rfl⟩ | ⟨_, kept⟩
      · exact domain ▸ commits.congr exports imports leaves
      · exact (old kept).1
    · intro e written stored
      rw [headers] at stored
      rcases update_eq_some.mp stored with ⟨rfl, rfl⟩ | ⟨_, kept⟩
      · rw [rootStrings, commits.epoch, exports, imports, transfers, commits.domain,
          Transfers.commitEpoch_hashed]
        exact List.subset_append_right _ _
      · exact (old kept).2

end Step

theorem closedEpochs_of_reachable (reachable : (system blake2 currency config).Reachable chain)
    (free : ¬ Collides blake2 chain.log) : ClosedEpochs blake2 chain := by
  apply reachable.guarded_invariant (fun chain => ¬ Collides blake2 chain.log) (ClosedEpochs blake2)
  · intro _ _ reached step free collides
    exact free (collides.mono (log_subset reached step))
  · intro _ initial
    subst initial
    exact genesis_closedEpochs config
  · intro _ _ reached free holds step
    exact closedEpochs_step reached step free holds
  · exact free

/-- Every closed epoch has a header, and its three roots can be recomputed from the present
storage. -/
theorem committed_roots_reproducible {Balances : Type} (blake2 : Bytes → Hash32)
    (currency : Currency Balances) (config : GenesisConfig Balances) (chain : Chain Balances)
    (reachable : (system blake2 currency config).Reachable chain)
    (free : ¬ Collides blake2 chain.log) (e : EpochId) (closed : e < chain.epochs.currentEpoch) :
    ∃ header, chain.epochs.summaryHeaders e = some header ∧
      header.exportRoot = exportMerkleRoot blake2 header.domainId header.epochId
        header.startBlockHeight
        header.endBlockHeight (Transfers.canonicalEpochExports chain.transfers e) ∧
      header.importRoot = importMerkleRoot blake2 header.domainId header.epochId
        header.startBlockHeight
        header.endBlockHeight (Transfers.canonicalEpochFinalizedImports blake2 chain.transfers e) ∧
      header.governanceRoot = governanceMerkleRoot blake2 header.domainId header.epochId
        header.startBlockHeight header.endBlockHeight
        (Governance.canonicalEpochGovernanceLeaves chain.governance e) := by
  have closedEpochs := closedEpochs_of_reachable reachable free
  obtain ⟨header, stored⟩ := closedEpochs.certified closed
  have commits := closedEpochs.commits stored
  exact ⟨header, stored, commits.exports, commits.imports, commits.governance⟩

def closingActions : List (Action (AccountId → Purse)) :=
  sampleActions ++
    [.closeBlock {
        stateRoot := emptyHash, extrinsicCount := 1, allExtrinsicsLen := 100, eventCount := 1 },
      .openBlock { parentHash := emptyHash, validatorSetHash := emptyHash }]

theorem committed_roots_reproducible_sample :
    ∃ chain, runScript sampleHash sampleCurrency (genesis sampleGenesis) closingActions =
      some chain ∧
      (Transfers.canonicalEpochExports chain.transfers 0).length = 1 ∧
      ∃ header, chain.epochs.summaryHeaders 0 = some header ∧
        header.exportRoot = exportMerkleRoot sampleHash header.domainId header.epochId
          header.startBlockHeight
          header.endBlockHeight (Transfers.canonicalEpochExports chain.transfers 0) ∧
        header.importRoot = importMerkleRoot sampleHash header.domainId header.epochId
          header.startBlockHeight
          header.endBlockHeight (Transfers.canonicalEpochFinalizedImports sampleHash
            chain.transfers 0) ∧
        header.governanceRoot = governanceMerkleRoot sampleHash header.domainId header.epochId
          header.startBlockHeight header.endBlockHeight
          (Governance.canonicalEpochGovernanceLeaves chain.governance 0) := by
  refine ⟨_, rfl, by decide +kernel, ?_⟩
  apply committed_roots_reproducible sampleHash sampleCurrency sampleGenesis
  · exact reachable_of_script (.start rfl) (rfl : runScript _ _ _ closingActions = some _)
  · decide +kernel
  · decide +kernel

end Ialp.Chain

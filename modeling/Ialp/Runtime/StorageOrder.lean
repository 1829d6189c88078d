import Ialp.Pallets.GovernanceOrder
import Ialp.Runtime.Funds

/-!
Roots and inclusion proofs are functions of the set of leaves. The sorts of the three families leave
the order of tied leaves as it was stored; no two leaves that are committed together tie.
-/

namespace Ialp.Chain

open Scale Transition

theorem exportId_of_tie {left right : ExportLeaf} (tie : exportLeafOrdering left right = .eq) :
    left.exportId = right.exportId := by
  simp only [exportLeafOrdering, Ordering.then_eq_eq] at tie
  exact compareBytes_eq tie.2.2

variable {Balances : Type}

/-- Every order of the same leaves gives the same root and the same proofs: for exports and
finalized imports with distinct ids, and for the governance leaves that a chain holds for an epoch.
Two governance leaves could only tie if two proposals of the domain had been given one id. -/
theorem roots_ignore_storage_order (blake2 : Bytes → Hash32) (currency : Currency Balances)
    (config : GenesisConfig Balances) :
    (∀ leaves leaves' : List ExportLeaf, (leaves.map fun leaf => leaf.exportId).Nodup →
      leaves.Perm leaves' →
      (∀ domain epoch startHeight endHeight,
        exportMerkleRoot blake2 domain epoch startHeight endHeight leaves =
          exportMerkleRoot blake2 domain epoch startHeight endHeight leaves') ∧
      ∀ id, buildExportInclusionProof blake2 leaves id =
        buildExportInclusionProof blake2 leaves' id) ∧
    (∀ leaves leaves' : List FinalizedImportLeaf, (leaves.map fun leaf => leaf.exportId).Nodup →
      leaves.Perm leaves' →
      (∀ domain epoch startHeight endHeight,
        importMerkleRoot blake2 domain epoch startHeight endHeight leaves =
          importMerkleRoot blake2 domain epoch startHeight endHeight leaves') ∧
      ∀ id, buildFinalizedImportInclusionProof blake2 leaves id =
        buildFinalizedImportInclusionProof blake2 leaves' id) ∧
    (∀ (chain : Chain Balances), (system blake2 currency config).Reachable chain →
      (∀ epochId leaves', (Governance.epochGovernanceLeaves chain.governance epochId).Perm leaves' →
        (∀ domain epoch startHeight endHeight,
          governanceMerkleRoot blake2 domain epoch startHeight endHeight
              (Governance.epochGovernanceLeaves chain.governance epochId) =
            governanceMerkleRoot blake2 domain epoch startHeight endHeight leaves') ∧
        ∀ leafHash, buildGovernanceInclusionProof blake2
            (Governance.epochGovernanceLeaves chain.governance epochId) leafHash =
          buildGovernanceInclusionProof blake2 leaves' leafHash) ∨
      ∃ m n, m ≠ n ∧
        governanceProposalId blake2 config.domainId m =
          governanceProposalId blake2 config.domainId n) := by
  refine ⟨?_, ?_, ?_⟩
  · intro leaves leaves' distinct perm
    have untied : ∀ a ∈ leaves, ∀ b ∈ leaves, exportFamily.ordering a b = .eq → a = b :=
      fun a ha b hb tie => List.inj_on_of_nodup_map distinct ha hb (exportId_of_tie tie)
    have same := LeafFamily.commitment_of_perm blake2 perm untied
    exact ⟨same.1, fun id => same.2 _⟩
  · intro leaves leaves' distinct perm
    have untied : ∀ a ∈ leaves, ∀ b ∈ leaves, importFamily.ordering a b = .eq → a = b :=
      fun a ha b hb tie => List.inj_on_of_nodup_map distinct ha hb (compareBytes_eq tie)
    have same := LeafFamily.commitment_of_perm blake2 perm untied
    exact ⟨same.1, fun id => same.2 _⟩
  · intro chain reachable
    by_cases own : Governance.OwnIds blake2 config.domainId
    · left
      intro epochId leaves' perm
      have untied : ∀ a ∈ Governance.epochGovernanceLeaves chain.governance epochId,
          ∀ b ∈ Governance.epochGovernanceLeaves chain.governance epochId,
          governanceFamily.ordering a b = .eq → a = b :=
        fun a ha b hb tie =>
          Governance.epochGovernanceLeaves_untied own (chamber_reachable reachable) epochId ha hb
            tie
      have same := LeafFamily.commitment_of_perm blake2 perm untied
      exact ⟨same.1, fun leafHash => same.2 _⟩
    · right
      simp only [Governance.OwnIds, not_forall] at own
      obtain ⟨m, n, same, distinct⟩ := own
      exact ⟨m, n, distinct, same⟩

section Sample

def approvalActions : List (Action (AccountId → Purse)) :=
  [opens, .governance (.signed emptyHash) (.createProposal [.moon, .mars] 2),
    .governance (.signed emptyHash) (.castVote (governanceProposalId sampleHash .earth 0) .yes),
    closes, opens,
    .governance (.signed emptyHash) (.closeProposal (governanceProposalId sampleHash .earth 0))]

theorem roots_ignore_storage_order_sample :
    exportMerkleRoot sampleHash .earth 0 1 2 [sampleExportLeaf 0, sampleExportLeaf 1] =
        exportMerkleRoot sampleHash .earth 0 1 2 [sampleExportLeaf 1, sampleExportLeaf 0] ∧
      importMerkleRoot sampleHash .moon 0 1 2 [sampleFinalizedImportLeaf 0,
        sampleFinalizedImportLeaf 1] =
        importMerkleRoot sampleHash .moon 0 1 2 [sampleFinalizedImportLeaf 1,
          sampleFinalizedImportLeaf 0] ∧
      ∃ chain, runScript sampleHash sampleCurrency
          (genesis { sampleGenesis with governanceVoters := [emptyHash] }) approvalActions =
            some chain ∧
        (Governance.epochGovernanceLeaves chain.governance 1).length = 2 ∧
        ((∀ domain epoch startHeight endHeight,
            governanceMerkleRoot sampleHash domain epoch startHeight endHeight
                (Governance.epochGovernanceLeaves chain.governance 1) =
              governanceMerkleRoot sampleHash domain epoch startHeight endHeight
                (Governance.epochGovernanceLeaves chain.governance 1).reverse) ∨
          ∃ m n, m ≠ n ∧ governanceProposalId sampleHash .earth m =
            governanceProposalId sampleHash .earth n) := by
  have evaluated : ((runScript sampleHash sampleCurrency
      (genesis { sampleGenesis with governanceVoters := [emptyHash] }) approvalActions).map
        fun chain => (Governance.epochGovernanceLeaves chain.governance 1).length) = some 2 := by
    decide +kernel
  obtain ⟨chain, ran, size⟩ := Option.map_eq_some_iff.mp evaluated
  have ignored := roots_ignore_storage_order sampleHash sampleCurrency
    { sampleGenesis with governanceVoters := [emptyHash] }
  refine ⟨?_, ?_, chain, ran, size, ?_⟩
  · exact (ignored.1 _ _ (by decide +kernel) (List.Perm.swap _ _ [])).1 _ _ _ _
  · exact (ignored.2.1 _ _ (by decide +kernel) (List.Perm.swap _ _ [])).1 _ _ _ _
  · rcases ignored.2.2 chain (reachable_of_script (.start rfl) ran) with same | collision
    · exact .inl (same 1 _ (List.reverse_perm _).symm).1
    · exact .inr collision

end Sample

end Ialp.Chain

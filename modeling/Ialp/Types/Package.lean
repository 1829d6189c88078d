import Ialp.Types.Summary
import Ialp.Types.Transfer
import Ialp.Types.Governance
import Mathlib.Data.FinEnum
import Mathlib.Logic.Equiv.List
import Mathlib.Tactic.DeriveCountable

/-!
Certified summary packages and the envelopes that carry them. Their bytes are written and read by
the SCALE codec, which is taken as a parameter: a pair of functions of which decoding inverts
encoding.
-/

namespace Ialp

open Scale

structure SummaryHeaderStorageProof where
  version : UInt16
  proofBlockNumber : UInt32
  proofBlockHash : Hash32
  proofBlockHeader : Bytes
  storageKey : Bytes
  trieNodes : List Bytes
  deriving DecidableEq

structure GrandpaFinalityCertificate where
  version : UInt16
  grandpaSetId : UInt64
  targetBlockNumber : UInt32
  targetBlockHash : Hash32
  proofBlockNumber : UInt32
  proofBlockHash : Hash32
  justification : Bytes
  ancestryHeaders : List Bytes
  deriving DecidableEq

inductive SummaryCertificate where
  | grandpaV1 (certificate : GrandpaFinalityCertificate)
  deriving DecidableEq

structure SummaryCertificationBundle where
  certificate : SummaryCertificate
  summaryHeaderStorageProof : SummaryHeaderStorageProof
  deriving DecidableEq

inductive InclusionProof where
  | summaryHeaderStorageV1 (proof : SummaryHeaderStorageProof)
  | exportV1 (proof : ExportInclusionProof)
  | finalizedImportV1 (proof : FinalizedImportInclusionProof)
  | governanceV1 (proof : GovernanceInclusionProof)
  deriving DecidableEq

structure CertifiedSummaryPackageHashInput where
  version : UInt16
  header : EpochSummaryHeader
  certificate : SummaryCertificate
  inclusionProofs : List Bytes
  artifacts : List Bytes
  deriving DecidableEq

structure CertifiedSummaryPackage extends CertifiedSummaryPackageHashInput where
  packageHash : Hash32
  deriving DecidableEq

structure RelayPackageEnvelopeV1 where
  version : UInt16
  sourceDomain : DomainId
  targetDomain : DomainId
  epochId : EpochId
  summaryHash : Hash32
  packageHash : Hash32
  packageBytes : Bytes
  exportCount : UInt32
  relaySubmittedAtUnixMs : UInt64
  deriving DecidableEq

def RelayPackageEnvelopeV1.create (sourceDomain targetDomain : DomainId) (epochId : EpochId)
    (summaryHash packageHash : Hash32) (packageBytes : Bytes) (exportCount : UInt32)
    (relaySubmittedAtUnixMs : UInt64) : RelayPackageEnvelopeV1 where
  version := 1
  sourceDomain
  targetDomain
  epochId
  summaryHash
  packageHash
  packageBytes
  exportCount
  relaySubmittedAtUnixMs

/-- Encoding and decoding of one type. A decoder that fails says why. -/
structure Codec (α : Type) where
  encode : α → Bytes
  decode : Bytes → Except String α
  decode_encode : ∀ value, decode (encode value) = .ok value

def Codec.IgnoresRest {α : Type} (codec : Codec α) : Prop :=
  ∀ value rest, codec.decode (codec.encode value ++ rest) = .ok value

/-- What the decoder accepts starts with the encoding of the value it reads. -/
def Codec.ReadsEncoding {α : Type} (codec : Codec α) : Prop :=
  ∀ value bytes, codec.decode bytes = .ok value → codec.encode value <+: bytes

structure PackageCodec where
  proof : Codec InclusionProof
  package : Codec CertifiedSummaryPackage
  envelope : Codec RelayPackageEnvelopeV1
  hashInput : CertifiedSummaryPackageHashInput → Bytes

namespace CertifiedSummaryPackage

variable (blake2 : Bytes → Hash32) (codec : PackageCodec)

def hashInput (package : CertifiedSummaryPackage) : CertifiedSummaryPackageHashInput :=
  package.toCertifiedSummaryPackageHashInput

def computePackageHash (package : CertifiedSummaryPackage) : Hash32 :=
  blake2 (codec.hashInput package.hashInput)

def fromFields (header : EpochSummaryHeader) (certificate : SummaryCertificate)
    (inclusionProofs artifacts : List Bytes) : CertifiedSummaryPackage :=
  let package : CertifiedSummaryPackage :=
    { version := 1, packageHash := emptyHash, header, certificate, inclusionProofs, artifacts }
  { package with packageHash := package.computePackageHash blake2 codec }

def fromBundleWithMixedProofs (header : EpochSummaryHeader) (bundle : SummaryCertificationBundle)
    (exportProofs : List ExportInclusionProof)
    (finalizedImportProofs : List FinalizedImportInclusionProof)
    (governanceProofs : List GovernanceInclusionProof) : CertifiedSummaryPackage :=
  fromFields blake2 codec header bundle.certificate
    ([codec.proof.encode (.summaryHeaderStorageV1 bundle.summaryHeaderStorageProof)] ++
      exportProofs.map (fun proof => codec.proof.encode (.exportV1 proof)) ++
      finalizedImportProofs.map (fun proof => codec.proof.encode (.finalizedImportV1 proof)) ++
      governanceProofs.map (fun proof => codec.proof.encode (.governanceV1 proof)))
    []

end CertifiedSummaryPackage

def hexEncode (hash : Hash32) : String :=
  String.join (hash.toList.map fun byte =>
    String.ofList [Nat.digitChar (byte.toNat / 16), Nat.digitChar (byte.toNat % 16)])

def hexHash (hash : Hash32) : String := "0x" ++ hexEncode hash

def DomainId.asStr : DomainId → String
  | .earth => "earth"
  | .moon => "moon"
  | .mars => "mars"

section Sample

-- All of these types are countable, so that a codec exists for each of them.

deriving instance Countable for SummaryHeaderStorageProof
deriving instance Countable for GrandpaFinalityCertificate
deriving instance Countable for SummaryCertificate
deriving instance Countable for LeafInclusionProof
deriving instance Countable for ExportLeafHashInput
deriving instance Countable for ExportLeaf
deriving instance Countable for FinalizedImportLeafHashInput
deriving instance Countable for FinalizedImportLeaf
deriving instance Countable for GovernanceProposalLeafHashInput
deriving instance Countable for GovernanceProposalLeaf
deriving instance Countable for GovernanceAckLeafHashInput
deriving instance Countable for GovernanceAckLeaf
deriving instance Countable for GovernanceLeaf
deriving instance Countable for InclusionProof
deriving instance Countable for EpochSummaryHashInput
deriving instance Countable for EpochSummaryHeader
deriving instance Countable for CertifiedSummaryPackageHashInput
deriving instance Countable for CertifiedSummaryPackage
deriving instance Countable for RelayPackageEnvelopeV1

/-- Some codec of a countable type: a value is encoded by its number, in unary. -/
noncomputable def Codec.ofCountable (α : Type) [Countable α] : Codec α :=
  let number := (exists_injective_nat α).choose
  have injective : Function.Injective number := (exists_injective_nat α).choose_spec
  { encode value := List.replicate (number value) 0
    decode bytes := by
      classical
      exact if known : ∃ value, number value = bytes.length then .ok known.choose
        else .error "unknown"
    decode_encode value := by
      have known : ∃ other, number other = (List.replicate (number value) (0 : UInt8)).length :=
        ⟨value, by simp⟩
      rw [dif_pos known]
      congr 1
      exact injective (known.choose_spec.trans (by simp)) }

def markedNumber (n : ℕ) : Bytes := List.replicate n 0 ++ [1]

theorem takeWhile_of_markedNumber {n : ℕ} {bytes : Bytes} (starts : markedNumber n <+: bytes) :
    (bytes.takeWhile (· = 0)).length = n := by
  obtain ⟨rest, rfl⟩ := starts
  simp [markedNumber]

theorem markedNumber_unique {m n : ℕ} {bytes : Bytes} (first : markedNumber m <+: bytes)
    (second : markedNumber n <+: bytes) : m = n :=
  (takeWhile_of_markedNumber first).symm.trans (takeWhile_of_markedNumber second)

/-- As before, with a mark at the end of the number, so that the decoder knows where to stop. -/
noncomputable def Codec.ofCountableMarked (α : Type) [Countable α] : Codec α :=
  let number := (exists_injective_nat α).choose
  have injective : Function.Injective number := (exists_injective_nat α).choose_spec
  { encode value := markedNumber (number value)
    decode bytes := by
      classical
      exact if known : ∃ value, markedNumber (number value) <+: bytes then .ok known.choose
        else .error "unknown"
    decode_encode value := by
      have known : ∃ other, markedNumber (number other) <+: markedNumber (number value) :=
        ⟨value, List.prefix_rfl⟩
      rw [dif_pos known]
      congr 1
      exact injective (markedNumber_unique known.choose_spec List.prefix_rfl) }

theorem Codec.ofCountableMarked_ignoresRest (α : Type) [Countable α] :
    (Codec.ofCountableMarked α).IgnoresRest := by
  intro value rest
  have known : ∃ other, (Codec.ofCountableMarked α).encode other <+:
      (Codec.ofCountableMarked α).encode value ++ rest := ⟨value, List.prefix_append _ _⟩
  refine (dif_pos known).trans ?_
  congr 1
  exact (exists_injective_nat α).choose_spec
    (markedNumber_unique known.choose_spec (List.prefix_append _ _))

theorem Codec.ofCountableMarked_readsEncoding (α : Type) [Countable α] :
    (Codec.ofCountableMarked α).ReadsEncoding := by
  intro value bytes decoded
  by_cases known : ∃ other, (Codec.ofCountableMarked α).encode other <+: bytes
  · have chosen : Except.ok known.choose = Except.ok value := (dif_pos known).symm.trans decoded
    cases chosen
    exact known.choose_spec
  · have failed : Except.error "unknown" = Except.ok value := (dif_neg known).symm.trans decoded
    cases failed

theorem Codec.encode_injective {α : Type} (codec : Codec α) : Function.Injective codec.encode := by
  intro a b same
  have decoded := (codec.decode_encode a).symm.trans (same ▸ codec.decode_encode b)
  exact Except.ok.inj decoded

noncomputable def sampleCodec : PackageCodec where
  proof := .ofCountable _
  package := .ofCountable _
  envelope := .ofCountable _
  hashInput := (Codec.ofCountable _).encode

noncomputable def markedCodec : PackageCodec where
  proof := .ofCountableMarked _
  package := .ofCountableMarked _
  envelope := .ofCountableMarked _
  hashInput := (Codec.ofCountableMarked _).encode

end Sample

end Ialp

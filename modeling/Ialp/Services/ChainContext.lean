import Ialp.Services.Readiness
import Mathlib.Data.Countable.Basic

/-!
How the importer checks that the header of a package is on the finalized chain of its source: a
storage proof shows the header in the state of a block, a GRANDPA justification shows that this
block is final, and the ancestry headers lead to it from the block the summary was staged in.
GRANDPA and the configuration of the domains are parameters.
-/

namespace Ialp.Services

open Scale

section Checks

/-- Justifications: their decoder, the block they are for, their check against a set id and weighted
authorities, and the authority key of a seed. -/
structure Grandpa (Justification Authority : Type) where
  decode : Bytes → Except String Justification
  targetHash : Justification → Hash32
  targetNumber : Justification → UInt32
  verify : Justification → UInt64 → List (Authority × UInt64) → Except String Unit
  fromSeed : String → Except String Authority

variable {Header Justification Authority : Type} (primitives : Primitives Header)
  (codec : PackageCodec) (build : Build) (grandpa : Grandpa Justification Authority)

def decodeSummaryStorageProof (bytes : Bytes) : Except String SummaryHeaderStorageProof := do
  match ← decodeAs codec.proof "failed to decode summary proof: " bytes with
  | .summaryHeaderStorageV1 proof => return proof
  | .exportV1 _ | .finalizedImportV1 _ | .governanceV1 _ =>
      .error "expected summary-header storage proof at index 0"

def verifySummaryStorageProof (package : CertifiedSummaryPackage)
    (summaryProof : SummaryHeaderStorageProof) (proofBlockHeader : Header) :
    Except String Unit := do
  ensure (summaryProof.storageKey =
    summaryHeaderStorageKey primitives.hashers package.header.epochId)
    "summary-header storage proof does not target SummaryHeaders[epoch_id]"
  let value ← (primitives.readProofCheck (primitives.stateRoot proofBlockHeader)
      summaryProof.trieNodes
    summaryProof.storageKey).mapError ("summary-header storage proof verification failed: " ++ ·)
  ensure (value = some (encode package.header))
    "summary-header storage proof did not return exact SCALE(package.header) bytes"

def verifySummaryChainContext (package : CertifiedSummaryPackage) :
    Except Halt GrandpaFinalityCertificate := do
  let .grandpaV1 certificate := package.certificate
  let first ← okOr package.inclusionProofs.head? (.failed "package is missing inclusion_proofs[0]")
  let summaryProof ← (decodeSummaryStorageProof codec first).mapError .failed
  ensure (summaryProof.proofBlockNumber = certificate.proofBlockNumber ∧
      summaryProof.proofBlockHash = certificate.proofBlockHash)
    (.failed "summary-header storage proof targets a different proof block than the certificate")
  let proofBlockHeader ← (decodeAs primitives.headers.toCodec
    "failed to decode proof block header from summary proof: "
      summaryProof.proofBlockHeader).mapError .failed
  ensure (primitives.headers.hash proofBlockHeader = summaryProof.proofBlockHash)
    (.failed "proof block header hash does not match certificate proof block hash")
  ensure (primitives.headers.number proofBlockHeader = summaryProof.proofBlockNumber)
    (.failed "proof block header number does not match certificate proof block number")
  (verifySummaryStorageProof primitives package summaryProof proofBlockHeader).mapError .failed
  verifyAncestryChain primitives.headers build certificate
  return certificate

def grandpaAuthorities (seeds : List String) : Except String (List (Authority × UInt64)) :=
  seeds.mapM fun seed => do
    let authority ← (grandpa.fromSeed seed).mapError fun error =>
      "failed to derive public key from seed '" ++ seed ++ "': " ++ error
    return (authority, 1)

def verifyGrandpaCertificate (loadSeeds : DomainId → Except String (List String))
    (certificate : GrandpaFinalityCertificate) (sourceDomain : DomainId) : Except String Unit := do
  let seeds ← (loadSeeds sourceDomain).mapError fun _ =>
    "failed to load source domain config for " ++ sourceDomain.asStr
  let authorities ← grandpaAuthorities grandpa seeds
  let justification ← (grandpa.decode certificate.justification).mapError
    ("failed to decode GRANDPA justification: " ++ ·)
  ensure (grandpa.targetHash justification = certificate.proofBlockHash ∧
      grandpa.targetNumber justification = certificate.proofBlockNumber)
    "GRANDPA justification target does not match certificate proof block"
  (grandpa.verify justification certificate.grandpaSetId authorities).mapError
    ("GRANDPA justification verification failed: " ++ ·)

/-- The checks of the certificate of a package, in the order of `process_package_by_identity`. -/
def verifyCertification (loadSeeds : DomainId → Except String (List String))
    (package : CertifiedSummaryPackage) : Except Halt Unit := do
  let certificate ← verifySummaryChainContext primitives codec build package
  (verifyGrandpaCertificate grandpa loadSeeds certificate package.header.domainId).mapError .failed

end Checks

section Exactness

variable {Header Justification Authority : Type} {primitives : Primitives Header}
  {codec : PackageCodec} {build : Build} {grandpa : Grandpa Justification Authority}
  {package : CertifiedSummaryPackage} {certificate : GrandpaFinalityCertificate}

structure InContext (primitives : Primitives Header) (codec : PackageCodec)
    (package : CertifiedSummaryPackage) (certificate : GrandpaFinalityCertificate)
    (proof : SummaryHeaderStorageProof) (header : Header) : Prop where
  certified : package.certificate = .grandpaV1 certificate
  first : ∃ bytes, package.inclusionProofs.head? = some bytes ∧
    codec.proof.decode bytes = .ok (.summaryHeaderStorageV1 proof)
  proofNumber : proof.proofBlockNumber = certificate.proofBlockNumber
  proofHash : proof.proofBlockHash = certificate.proofBlockHash
  decoded : primitives.headers.decode proof.proofBlockHeader = .ok header
  hash : primitives.headers.hash header = proof.proofBlockHash
  number : primitives.headers.number header = proof.proofBlockNumber
  key : proof.storageKey = summaryHeaderStorageKey primitives.hashers package.header.epochId
  value : primitives.readProofCheck (primitives.stateRoot header) proof.trieNodes proof.storageKey =
    .ok (some (encode package.header))

theorem decodeSummaryStorageProof_eq_ok {bytes : Bytes} {proof : SummaryHeaderStorageProof} :
    decodeSummaryStorageProof codec bytes = .ok proof ↔
      codec.proof.decode bytes = .ok (.summaryHeaderStorageV1 proof) := by
  simp only [decodeSummaryStorageProof, bind_eq_ok, decodeAs_eq_ok]
  constructor
  · intro decoded
    obtain ⟨item, decoded, selected⟩ := decoded
    cases item with
    | summaryHeaderStorageV1 found =>
        cases selected
        exact decoded
    | exportV1 | finalizedImportV1 | governanceV1 => cases selected
  · intro decoded
    exact ⟨_, decoded, rfl⟩

theorem verifySummaryChainContext_eq_ok :
    verifySummaryChainContext primitives codec build package = .ok certificate ↔
      (∃ proof header, InContext primitives codec package certificate proof header) ∧
        verifyAncestryChain primitives.headers build certificate = .ok () := by
  obtain ⟨own, certified⟩ : ∃ own, package.certificate = .grandpaV1 own := by
    cases package.certificate with
    | grandpaV1 own => exact ⟨own, rfl⟩
  simp only [verifySummaryChainContext, verifySummaryStorageProof, certified,
    bind_eq_ok, okOr_eq_ok, ensure_eq_ok, mapError_eq_ok, decodeAs_eq_ok,
    decodeSummaryStorageProof_eq_ok]
  constructor
  · intro accepted
    obtain ⟨bytes, first, proof, decoded, _, ⟨number, hash⟩, header, headerDecoded, _,
        hashed, _, numbered, _,
      ⟨_, key, value, checked, exact'⟩, _, ancestry, result⟩ := accepted
    cases result
    exact ⟨⟨proof, header, certified, ⟨bytes, first, decoded⟩, number, hash, headerDecoded,
      hashed, numbered, key, exact' ▸ checked⟩, ancestry⟩
  · intro accepted
    obtain ⟨⟨proof, header, context⟩, ancestry⟩ := accepted
    obtain ⟨bytes, first, decoded⟩ := context.first
    obtain rfl : own = certificate :=
      SummaryCertificate.grandpaV1.inj (certified.symm.trans context.certified)
    exact ⟨bytes, first, proof, decoded, (), ⟨context.proofNumber, context.proofHash⟩, header,
      context.decoded, (), context.hash, (), context.number, (),
      ⟨(), context.key, _, context.value, rfl⟩, (), ancestry, rfl⟩

structure JustifiedFor (grandpa : Grandpa Justification Authority)
    (authorities : List (Authority × UInt64)) (certificate : GrandpaFinalityCertificate)
    (justification : Justification) : Prop where
  decoded : grandpa.decode certificate.justification = .ok justification
  hash : grandpa.targetHash justification = certificate.proofBlockHash
  number : grandpa.targetNumber justification = certificate.proofBlockNumber
  verified : grandpa.verify justification certificate.grandpaSetId authorities = .ok ()

theorem verifyGrandpaCertificate_eq_ok {loadSeeds : DomainId → Except String (List String)}
    {source : DomainId} : verifyGrandpaCertificate grandpa loadSeeds certificate source = .ok () ↔
      ∃ seeds authorities justification, loadSeeds source = .ok seeds ∧
        grandpaAuthorities grandpa seeds = .ok authorities ∧
        JustifiedFor grandpa authorities certificate justification := by
  simp only [verifyGrandpaCertificate, bind_eq_ok, ensure_eq_ok, mapError_eq_ok]
  constructor
  · intro accepted
    obtain ⟨seeds, loaded, authorities, derived, justification, decoded, _, ⟨hash, number⟩,
        verified⟩ := accepted
    exact ⟨seeds, authorities, justification, loaded, derived, decoded, hash, number, verified⟩
  · intro accepted
    obtain ⟨seeds, authorities, justification, loaded, derived, justified⟩ := accepted
    exact ⟨seeds, loaded, authorities, derived, justification, justified.decoded, (),
      ⟨justified.hash, justified.number⟩, justified.verified⟩

theorem verifyCertification_eq_ok {loadSeeds : DomainId → Except String (List String)}
    (certified : package.certificate = .grandpaV1 certificate) :
    verifyCertification primitives codec build grandpa loadSeeds package = .ok () ↔
      (∃ proof header, InContext primitives codec package certificate proof header) ∧
      verifyAncestryChain primitives.headers build certificate = .ok () ∧
      ∃ seeds authorities justification, loadSeeds package.header.domainId = .ok seeds ∧
        grandpaAuthorities grandpa seeds = .ok authorities ∧
        JustifiedFor grandpa authorities certificate justification := by
  simp only [verifyCertification, bind_eq_ok, mapError_eq_ok, verifySummaryChainContext_eq_ok,
    verifyGrandpaCertificate_eq_ok]
  constructor
  · intro accepted
    obtain ⟨own, ⟨⟨proof, header, context⟩, ancestry⟩, justified⟩ := accepted
    obtain rfl : own = certificate :=
      SummaryCertificate.grandpaV1.inj (context.certified.symm.trans certified)
    exact ⟨⟨proof, header, context⟩, ancestry, justified⟩
  · intro accepted
    exact ⟨certificate, ⟨accepted.1, accepted.2.1⟩, accepted.2.2⟩

end Exactness

section Finality

variable {Header Justification Authority : Type} {primitives : Primitives Header}
  {codec : PackageCodec} {grandpa : Grandpa Justification Authority}
  {package : CertifiedSummaryPackage} {certificate : GrandpaFinalityCertificate}

structure Ledger {Header : Type} (headers : HeaderCodec Header) where
  height : Nat
  header : Nat → Header
  storage : Nat → Bytes → Option Bytes
  numbered : ∀ n ≤ height, (headers.number (header n)).toNat = n
  linked : ∀ n < height, headers.parentHash (header (n + 1)) = headers.hash (header n)

/-- What the importer's check rests on besides GRANDPA: no other header has the hash of a finalized
one, and a storage proof against the root of a finalized block shows what its storage has. -/
structure Trusted (primitives : Primitives Header) (ledger : Ledger primitives.headers) : Prop where
  identified : ∀ n ≤ ledger.height, ∀ header,
    primitives.headers.hash header = primitives.headers.hash (ledger.header n) →
      header = ledger.header n
  proved : ∀ n ≤ ledger.height, ∀ nodes key value,
    primitives.readProofCheck (primitives.stateRoot (ledger.header n)) nodes key =
      .ok (some value) →
      ledger.storage n key = some value

def Ledger.Has {headers : HeaderCodec Header} (ledger : Ledger headers) (hash : Hash32)
    (number : UInt32) : Prop :=
  number.toNat ≤ ledger.height ∧ hash = headers.hash (ledger.header number.toNat)

variable {ledger : Ledger primitives.headers}

theorem Trusted.start_of_linked (trusted : Trusted primitives ledger) {hash : Hash32} {number : Nat}
    {encoded : List Bytes} {chain : List Header}
    (linked : LinkedFrom primitives.headers hash number encoded chain)
    (within : number + chain.length ≤ ledger.height)
    (last : (hash :: chain.map primitives.headers.hash)[chain.length]? =
      some (primitives.headers.hash (ledger.header (number + chain.length)))) :
    hash = primitives.headers.hash (ledger.header number) := by
  induction chain generalizing hash number encoded with
  | nil => exact Option.some.inj last
  | cons header rest ih =>
      cases encoded with
      | nil => cases linked.decoded
      | cons bytes encoded =>
          obtain ⟨_, parent, _, linked⟩ := linkedFrom_cons_iff.mp linked
          rw [List.length_cons] at within last
          -- the block above is final by induction, hence it is the ledger's and has the ledger's
          -- parent
          have above := ih linked (by omega) (by
            rw [List.map_cons, List.getElem?_cons_succ] at last
            rw [last]
            congr 3
            omega)
          have same := trusted.identified (number + 1) (by omega) header above
          calc hash = primitives.headers.parentHash header := parent.symm
            _ = primitives.headers.parentHash (ledger.header (number + 1)) := by rw [same]
            _ = primitives.headers.hash (ledger.header number) := ledger.linked number (by omega)

/-- What the first proof of a package shows is not forged. If the block it is about is final, then
the header it gives is that block's, and no other one with the same hash; and what its nodes prove
against the root of that block is in the storage. -/
structure Genuine (primitives : Primitives Header) (codec : PackageCodec)
    (ledger : Ledger primitives.headers) (package : CertifiedSummaryPackage) : Prop where
  identified : ∀ certificate proof header,
    InContext primitives codec package certificate proof header →
    ledger.Has certificate.proofBlockHash certificate.proofBlockNumber →
      header = ledger.header certificate.proofBlockNumber.toNat
  proved : ∀ certificate proof header, InContext primitives codec package certificate proof header →
    ledger.Has certificate.proofBlockHash certificate.proofBlockNumber →
      ∀ value, primitives.readProofCheck
        (primitives.stateRoot (ledger.header certificate.proofBlockNumber.toNat))
          proof.trieNodes proof.storageKey = .ok (some value) →
        ledger.storage certificate.proofBlockNumber.toNat proof.storageKey = some value

theorem Trusted.genuine (trusted : Trusted primitives ledger) (package : CertifiedSummaryPackage) :
    Genuine primitives codec ledger package where
  identified _ _ header context final :=
    trusted.identified _ final.1 header ((context.hash.trans context.proofHash).trans final.2)
  proved _ _ _ _ final value shown := trusted.proved _ final.1 _ _ value shown

theorem Genuine.stored {proof : SummaryHeaderStorageProof} {header : Header}
    (genuine : Genuine primitives codec ledger package)
    (context : InContext primitives codec package certificate proof header)
    (final : ledger.Has certificate.proofBlockHash certificate.proofBlockNumber) :
    ledger.storage certificate.proofBlockNumber.toNat
      (summaryHeaderStorageKey primitives.hashers package.header.epochId) =
        some (encode package.header) := by
  have value := context.value
  rw [genuine.identified _ _ _ context final] at value
  rw [← context.key]
  exact genuine.proved _ _ _ context final _ value

/-- A header that the importer accepts is on the finalized chain of its source. If the authorities
that the domain of the header is configured with only justify blocks of that chain, then the state
of a finalized block has the header under its epoch; and unless a build that wraps comes past the
last block number, the block the certificate gives as target is an earlier block of the chain. -/
theorem accepted_header_finalized {build : Build} (trusted : Trusted primitives ledger)
    (loadSeeds : DomainId → Except String (List String))
    (safe : ∀ seeds authorities justification setId, loadSeeds package.header.domainId = .ok seeds →
      grandpaAuthorities grandpa seeds = .ok authorities →
        grandpa.verify justification setId authorities = .ok () →
        ledger.Has (grandpa.targetHash justification) (grandpa.targetNumber justification))
    (certified : package.certificate = .grandpaV1 certificate)
    (accepted : verifyCertification primitives codec build grandpa loadSeeds package = .ok ()) :
    ledger.Has certificate.proofBlockHash certificate.proofBlockNumber ∧
      ledger.storage certificate.proofBlockNumber.toNat
        (summaryHeaderStorageKey primitives.hashers package.header.epochId) =
          some (encode package.header) ∧
      ((build = .wrapping → ¬ PastLastNumber primitives.headers certificate) →
        ledger.Has certificate.targetBlockHash certificate.targetBlockNumber ∧
          certificate.targetBlockNumber ≤ certificate.proofBlockNumber) := by
  obtain ⟨⟨proof, header, context⟩, ancestry, seeds, authorities, justification, loaded,
      derived, justified⟩ :=
    (verifyCertification_eq_ok certified).mp accepted
  have final := safe seeds authorities justification _ loaded derived justified.verified
  rw [justified.hash, justified.number] at final
  refine ⟨final, (trusted.genuine package).stored context final, fun short => ?_⟩
  rw [verifyAncestryChain_eq_checked short] at ancestry
  obtain ⟨chain, linked, last, reaches⟩ := verifyAncestryChain_eq_ok.mp ancestry
  have within := final.1
  have start := trusted.start_of_linked linked (by omega) (by rw [last, reaches, ← final.2])
  exact ⟨⟨by omega, start⟩, UInt32.le_iff_toNat_le.mpr (by omega)⟩

end Finality

section Sample

deriving instance Countable for Epochs.SummarySlotStatus
deriving instance Countable for Epochs.EpochAccumulators
deriving instance Countable for Epochs.SummarySlotRecord

theorem byteHash_injective : Function.Injective byteHeaders.hash := by
  intro byte byte' same
  have fold (byte : UInt8) : sampleFold [byte] = byte.toNat + 1 := by
    have small := byte.toNat_lt
    simp only [sampleFold, List.foldl_cons, List.foldl_nil]
    omega
  have small := byte.toNat_lt
  have small' := byte'.toNat_lt
  have bytes : leBytes 32 (sampleFold [byte]) = leBytes 32 (sampleFold [byte']) :=
    congrArg List.Vector.toList same
  rw [fold, fold] at bytes
  have numbers := leBytes_injective 32 (by omega) (by omega) bytes
  exact UInt8.toNat_inj.mp (by omega)

/-- Justifications that name their block by one byte, of which those for blocks 0 and 3 have been
signed. -/
def byteGrandpa : Grandpa Bytes String where
  decode bytes := .ok bytes
  targetHash bytes := byteHeaders.hash (bytes.headD 0)
  targetNumber bytes := (bytes.headD 0).toUInt32
  verify bytes _ _ := ensure (bytes = [0] ∨ bytes = [3]) "not signed"
  fromSeed seed := .ok seed

def finalSummary : EpochSummaryHeader :=
  EpochSummaryHeader.fromHashInput sampleHash {
    version := 1, domainId := .earth, epochId := 0, prevSummaryHash :=
      emptyHash, startBlockHeight := 1
    endBlockHeight := 1, stateRoot := emptyHash, blockRoot := emptyHash, txRoot := emptyHash
    eventRoot := emptyHash, exportRoot := emptyHash, importRoot :=
      emptyHash, governanceRoot := emptyHash
    validatorSetHash := emptyHash }

noncomputable def summaryPrimitives : Primitives UInt8 where
  headers := byteHeaders
  stateRoot _ := emptyHash
  slots := .ofCountable _
  hashers := StorageItem.sampleHashers
  readProofCheck _ _ _ := .ok (some (encode finalSummary))
  display _ := "client error"

def summaryLedger : Ledger byteHeaders where
  height := 4
  header := UInt8.ofNat
  storage _ _ := some (encode finalSummary)
  numbered := by decide +kernel
  linked := by decide +kernel

theorem summaryTrusted : Trusted summaryPrimitives summaryLedger :=
  ⟨fun _ _ _ same => byteHash_injective same, fun _ _ _ _ _ shown => Except.ok.inj shown⟩

def finalCertificate : GrandpaFinalityCertificate :=
  { byteCertificate 1 3 1 3 [[2], [3]] with justification := [3] }

noncomputable def finalPackage : CertifiedSummaryPackage :=
  CertifiedSummaryPackage.fromFields sampleHash sampleCodec finalSummary
    (.grandpaV1 finalCertificate) [sampleCodec.proof.encode (.summaryHeaderStorageV1 {
      version := 1
      proofBlockNumber := 3
      proofBlockHash := byteHeaders.hash 3
      proofBlockHeader := [3]
      storageKey := summaryHeaderStorageKey StorageItem.sampleHashers 0
      trieNodes := [] })] []

theorem finalPackage_accepted :
    verifyCertification summaryPrimitives sampleCodec .checked byteGrandpa (fun _ =>
      .ok ["//Alice"]) finalPackage =
      .ok () := by
  refine (verifyCertification_eq_ok rfl).mpr
    ⟨⟨_, 3, rfl, ⟨_, rfl, sampleCodec.proof.decode_encode _⟩, rfl, rfl, rfl, rfl, rfl, rfl, rfl⟩,
      ?_, ["//Alice"], [("//Alice", 1)], [3], rfl, rfl, rfl, rfl, rfl, rfl⟩
  change verifyAncestryChain byteHeaders .checked finalCertificate = .ok ()
  decide +kernel

theorem accepted_header_finalized_sample :
    verifyCertification summaryPrimitives sampleCodec .checked byteGrandpa (fun _ =>
      .ok ["//Alice"]) finalPackage =
        .ok () ∧
      summaryLedger.Has finalCertificate.targetBlockHash 1 := by
  refine ⟨finalPackage_accepted, ?_⟩
  have final := accepted_header_finalized summaryTrusted (fun _ => .ok ["//Alice"]) ?_ rfl
    finalPackage_accepted
  · exact (final.2.2 fun wraps => by cases wraps).1
  · intro seeds authorities justification setId _ _ verified
    rcases ensure_eq_ok.mp verified with rfl | rfl
    · exact ⟨by decide, rfl⟩
    · exact ⟨by decide, rfl⟩

end Sample

end Ialp.Services

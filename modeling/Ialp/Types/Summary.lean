import Ialp.Types.Basic

namespace Ialp

open Scale

structure EpochSummaryHashInput where
  version : UInt16
  domainId : DomainId
  epochId : EpochId
  prevSummaryHash : Hash32
  startBlockHeight : UInt32
  endBlockHeight : UInt32
  stateRoot : Hash32
  blockRoot : Hash32
  txRoot : Hash32
  eventRoot : Hash32
  exportRoot : Hash32
  importRoot : Hash32
  governanceRoot : Hash32
  validatorSetHash : Hash32
  deriving DecidableEq

namespace EpochSummaryHashInput

instance : FixedEncode EpochSummaryHashInput :=
  FixedEncode.comap
    (fun input => (input.version, input.domainId, input.epochId, input.prevSummaryHash,
      input.startBlockHeight, input.endBlockHeight, input.stateRoot, input.blockRoot, input.txRoot,
      input.eventRoot, input.exportRoot, input.importRoot, input.governanceRoot,
      input.validatorSetHash))
    (by
      rintro ⟨⟩ ⟨⟩ same
      simpa using same)

def summaryHash (blake2 : Bytes → Hash32) (input : EpochSummaryHashInput) : Hash32 :=
  blake2 (encode input)

end EpochSummaryHashInput

structure EpochSummaryHeader extends EpochSummaryHashInput where
  summaryHash : Hash32
  deriving DecidableEq

namespace EpochSummaryHeader

variable (blake2 : Bytes → Hash32)

def fromHashInput (input : EpochSummaryHashInput) : EpochSummaryHeader :=
  { input with summaryHash := input.summaryHash blake2 }

def hashInput (header : EpochSummaryHeader) : EpochSummaryHashInput :=
  header.toEpochSummaryHashInput

def computeSummaryHash (header : EpochSummaryHeader) : Hash32 := header.hashInput.summaryHash blake2

end EpochSummaryHeader

section Accumulators

variable (blake2 : Bytes → Hash32)

def blockRootLabel : String := "IALP:block-root:v1"
def txRootLabel : String := "IALP:tx-root:v1"
def eventRootLabel : String := "IALP:event-root:v1"

def seedEpochAccumulator (label : String) (domain : DomainId) (epoch : EpochId) : Hash32 :=
  blake2 (encode (label, (1 : UInt16), domain, epoch))

def foldEpochAccumulator (accumulator : Hash32) (blockNumber : UInt32) (payloadHash : Hash32) :
    Hash32 :=
  blake2 (encode (accumulator, blockNumber, payloadHash))

def txEnvelopeHash (blockNumber extrinsicCount allExtrinsicsLen : UInt32) : Hash32 :=
  blake2 (encode (blockNumber, extrinsicCount, allExtrinsicsLen))

def eventEnvelopeHash (blockNumber eventCount : UInt32) : Hash32 :=
  blake2 (encode (blockNumber, eventCount))

def seededFold (label : String) (domain : DomainId) (epoch : EpochId)
    (payloadHash : UInt32 → Hash32) (numbers : List UInt32) : Hash32 :=
  numbers.foldl (fun accumulator number =>
    foldEpochAccumulator blake2 accumulator number (payloadHash number))
    (seedEpochAccumulator blake2 label domain epoch)

theorem seededFold_snoc (label : String) (domain : DomainId) (epoch : EpochId)
    (payloadHash : UInt32 → Hash32) (numbers : List UInt32) (number : UInt32) :
    seededFold blake2 label domain epoch payloadHash (numbers ++ [number]) =
      foldEpochAccumulator blake2 (seededFold blake2 label domain epoch payloadHash numbers) number
        (payloadHash number) := by
  simp [seededFold]

end Accumulators

end Ialp

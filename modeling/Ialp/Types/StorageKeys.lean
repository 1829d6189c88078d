import Ialp.Types.Summary
import Mathlib.Data.Set.Function
import Mathlib.Tactic.Common

/-!
The storage items that the node and the services read by key. A value lies under the hashes of its
pallet's and its own name; an entry of a map lies under that prefix, the hash of the encoded key and
the encoded key itself.
-/

namespace Ialp

open Scale

structure StorageHashers where
  twox128 : Bytes → List.Vector UInt8 16
  blake2128 : Bytes → List.Vector UInt8 16

def utf8 (text : String) : Bytes := text.toUTF8.data.toList

instance : FixedEncode Unit where
  encode _ := []
  width := 0
  length_encode _ := rfl
  encode_injective _ _ _ := rfl

instance : FixedEncode EpochSummaryHeader :=
  FixedEncode.comap (fun header => (header.hashInput, header.summaryHash)) (by
    rintro ⟨⟩ ⟨⟩ same
    simpa [EpochSummaryHeader.hashInput] using same)

section Keys

variable (hashers : StorageHashers)

def storageValueKey (pallet storage : String) : Bytes :=
  (hashers.twox128 (utf8 pallet)).toList ++ (hashers.twox128 (utf8 storage)).toList

def storageMapKey (pallet storage : String) (encodedKey : Bytes) : Bytes :=
  storageValueKey hashers pallet storage ++ ((hashers.blake2128 encodedKey).toList ++ encodedKey)

def summaryHeaderStorageKey (epochId : EpochId) : Bytes :=
  storageMapKey hashers "Epochs" "SummaryHeaders" (encode epochId)

def summarySlotStorageKey (epochId : EpochId) : Bytes :=
  storageMapKey hashers "Epochs" "SummarySlots" (encode epochId)

def latestSummaryHeaderStorageKey : Bytes := storageValueKey hashers "Epochs" "LatestSummaryHeader"

def epochExportIdsStorageKey (epochId : EpochId) : Bytes :=
  storageMapKey hashers "Transfers" "EpochExportIds" (encode epochId)

def exportRecordStorageKey (exportId : ExportId) : Bytes :=
  storageMapKey hashers "Transfers" "ExportsById" (encode exportId)

def observedImportStorageKey (exportId : ExportId) : Bytes :=
  storageMapKey hashers "Transfers" "ObservedImportsById" (encode exportId)

def epochFinalizedImportIdsStorageKey (epochId : EpochId) : Bytes :=
  storageMapKey hashers "Transfers" "EpochFinalizedImportIds" (encode epochId)

def importerAccountStorageKey : Bytes := storageValueKey hashers "Transfers" "ImporterAccount"

def governanceProtocolVersionStorageKey : Bytes :=
  storageValueKey hashers "Governance" "ProtocolVersion"

def governanceImporterAccountStorageKey : Bytes :=
  storageValueKey hashers "Governance" "ImporterAccount"

def governanceVotersStorageKey : Bytes := storageValueKey hashers "Governance" "GovernanceVoters"

def governanceProposalStorageKey (proposalId : GovernanceProposalId) : Bytes :=
  storageMapKey hashers "Governance" "ProposalsById" (encode proposalId)

def governanceActivationRecordStorageKey (proposalId : GovernanceProposalId) : Bytes :=
  storageMapKey hashers "Governance" "ActivationRecordsById" (encode proposalId)

def governanceAckRecordStorageKey (proposalId : GovernanceProposalId)
    (acknowledgingDomain : DomainId) : Bytes :=
  storageMapKey hashers "Governance" "AckRecordsByKey" (encode (proposalId, acknowledgingDomain))

def epochGovernanceLeafIdsStorageKey (epochId : EpochId) : Bytes :=
  storageMapKey hashers "Governance" "EpochGovernanceLeafIds" (encode epochId)

def governanceLeafStorageKey (leafHash : Hash32) : Bytes :=
  storageMapKey hashers "Governance" "GovernanceLeavesById" (encode leafHash)

end Keys

inductive StorageItem where
  | summaryHeaders
  | summarySlots
  | latestSummaryHeader
  | epochExportIds
  | exportsById
  | observedImportsById
  | epochFinalizedImportIds
  | transfersImporterAccount
  | protocolVersion
  | governanceImporterAccount
  | governanceVoters
  | proposalsById
  | activationRecordsById
  | ackRecordsByKey
  | epochGovernanceLeafIds
  | governanceLeavesById
  deriving DecidableEq

namespace StorageItem

/-- What an entry is looked up by. A plain value is looked up by nothing. -/
@[reducible] def Key : StorageItem → Type
  | summaryHeaders | summarySlots | epochExportIds | epochFinalizedImportIds
  | epochGovernanceLeafIds => EpochId
  | exportsById | observedImportsById | proposalsById | activationRecordsById
  | governanceLeavesById => Hash32
  | ackRecordsByKey => GovernanceProposalId × DomainId
  | latestSummaryHeader | transfersImporterAccount | protocolVersion | governanceImporterAccount
  | governanceVoters => Unit

variable (hashers : StorageHashers)

def storageKey : (item : StorageItem) → item.Key → Bytes
  | summaryHeaders, epochId => summaryHeaderStorageKey hashers epochId
  | summarySlots, epochId => summarySlotStorageKey hashers epochId
  | latestSummaryHeader, _ => latestSummaryHeaderStorageKey hashers
  | epochExportIds, epochId => epochExportIdsStorageKey hashers epochId
  | exportsById, exportId => exportRecordStorageKey hashers exportId
  | observedImportsById, exportId => observedImportStorageKey hashers exportId
  | epochFinalizedImportIds, epochId => epochFinalizedImportIdsStorageKey hashers epochId
  | transfersImporterAccount, _ => importerAccountStorageKey hashers
  | protocolVersion, _ => governanceProtocolVersionStorageKey hashers
  | governanceImporterAccount, _ => governanceImporterAccountStorageKey hashers
  | governanceVoters, _ => governanceVotersStorageKey hashers
  | proposalsById, proposalId => governanceProposalStorageKey hashers proposalId
  | activationRecordsById, proposalId => governanceActivationRecordStorageKey hashers proposalId
  | ackRecordsByKey, (proposalId, domain) => governanceAckRecordStorageKey hashers proposalId domain
  | epochGovernanceLeafIds, epochId => epochGovernanceLeafIdsStorageKey hashers epochId
  | governanceLeavesById, leafHash => governanceLeafStorageKey hashers leafHash

def place : StorageItem → String × String
  | summaryHeaders => ("Epochs", "SummaryHeaders")
  | summarySlots => ("Epochs", "SummarySlots")
  | latestSummaryHeader => ("Epochs", "LatestSummaryHeader")
  | epochExportIds => ("Transfers", "EpochExportIds")
  | exportsById => ("Transfers", "ExportsById")
  | observedImportsById => ("Transfers", "ObservedImportsById")
  | epochFinalizedImportIds => ("Transfers", "EpochFinalizedImportIds")
  | transfersImporterAccount => ("Transfers", "ImporterAccount")
  | protocolVersion => ("Governance", "ProtocolVersion")
  | governanceImporterAccount => ("Governance", "ImporterAccount")
  | governanceVoters => ("Governance", "GovernanceVoters")
  | proposalsById => ("Governance", "ProposalsById")
  | activationRecordsById => ("Governance", "ActivationRecordsById")
  | ackRecordsByKey => ("Governance", "AckRecordsByKey")
  | epochGovernanceLeafIds => ("Governance", "EpochGovernanceLeafIds")
  | governanceLeavesById => ("Governance", "GovernanceLeavesById")

def names : Set Bytes :=
  {name | ∃ item : StorageItem, name = utf8 item.place.1 ∨ name = utf8 item.place.2}

theorem place_injective : Function.Injective place := by
  intro item item' same
  cases item <;> cases item' <;> first | rfl | simp [place] at same

theorem utf8_injective : Function.Injective utf8 := by
  intro text text' same
  have arrays : text.toUTF8.data = text'.toUTF8.data := Array.toList_inj.mp same
  exact String.toByteArray_inj.mp (ByteArray.ext arrays)

instance : (item : StorageItem) → FixedEncode item.Key
  | summaryHeaders | summarySlots | epochExportIds | epochFinalizedImportIds
  | epochGovernanceLeafIds =>
      inferInstanceAs (FixedEncode EpochId)
  | exportsById | observedImportsById | proposalsById | activationRecordsById
  | governanceLeavesById =>
      inferInstanceAs (FixedEncode Hash32)
  | ackRecordsByKey => inferInstanceAs (FixedEncode (GovernanceProposalId × DomainId))
  | latestSummaryHeader | transfersImporterAccount | protocolVersion | governanceImporterAccount
  | governanceVoters => inferInstanceAs (FixedEncode Unit)

def suffix : (item : StorageItem) → item.Key → Bytes
  | latestSummaryHeader, _ | transfersImporterAccount, _ | protocolVersion,
      _ | governanceImporterAccount, _
  | governanceVoters, _ => []
  | _, key => (hashers.blake2128 (encode key)).toList ++ encode key

theorem storageKey_eq (item : StorageItem) (key : item.Key) :
    storageKey hashers item key =
      storageValueKey hashers item.place.1 item.place.2 ++ suffix hashers item key := by
  cases item with
  | latestSummaryHeader | transfersImporterAccount | protocolVersion | governanceImporterAccount
  | governanceVoters => exact (List.append_nil _).symm
  | _ => rfl

theorem suffix_append {item : StorageItem} {key key' : item.Key} {rest rest' : Bytes}
    (same : suffix hashers item key ++ rest = suffix hashers item key' ++ rest') :
    key = key' ∧ rest = rest' := by
  have entry (hashed : (hashers.blake2128 (encode key)).toList ++ encode key ++ rest =
      (hashers.blake2128 (encode key')).toList ++ encode key' ++ rest') : key =
      key' ∧ rest = rest' := by
    simp only [List.append_assoc] at hashed
    exact encode_fixed_append (encode_fixed_append (α := List.Vector UInt8 16) hashed).2
  cases item with
  | latestSummaryHeader | transfersImporterAccount | protocolVersion | governanceImporterAccount
  | governanceVoters => exact ⟨rfl, same⟩
  | _ => exact entry same

variable {hashers} {item item' : StorageItem} {rest rest' : Bytes}

theorem storageValueKey_append (distinct : Set.InjOn hashers.twox128 names)
    (same : storageValueKey hashers item.place.1 item.place.2 ++ rest =
      storageValueKey hashers item'.place.1 item'.place.2 ++ rest') : item = item' ∧
      rest = rest' := by
  simp only [storageValueKey, List.append_assoc] at same
  obtain ⟨pallet, same⟩ := encode_fixed_append (α := List.Vector UInt8 16) same
  obtain ⟨storage, same⟩ := encode_fixed_append (α := List.Vector UInt8 16) same
  have samePallet := utf8_injective (distinct ⟨item, .inl rfl⟩ ⟨item', .inl rfl⟩ pallet)
  have sameStorage := utf8_injective (distinct ⟨item, .inr rfl⟩ ⟨item', .inr rfl⟩ storage)
  exact ⟨place_injective (Prod.ext samePallet sameStorage), same⟩

theorem storageKey_append (distinct : Set.InjOn hashers.twox128 names)
    {key : item.Key} {key' : item'.Key}
    (same : storageKey hashers item key ++ rest = storageKey hashers item' key' ++ rest') :
    (⟨item, key⟩ : (item : StorageItem) × item.Key) = ⟨item', key'⟩ ∧ rest = rest' := by
  simp only [storageKey_eq, List.append_assoc] at same
  obtain ⟨sameItem, same⟩ := storageValueKey_append distinct same
  subst sameItem
  obtain ⟨sameKey, sameRest⟩ := suffix_append hashers same
  exact ⟨congrArg (Sigma.mk item) sameKey, sameRest⟩

theorem storageKey_injective (distinct : Set.InjOn hashers.twox128 names)
    {key : item.Key} {key' : item'.Key}
    (same : storageKey hashers item key = storageKey hashers item' key') :
    (⟨item, key⟩ : (item : StorageItem) × item.Key) = ⟨item', key'⟩ := by
  have padded : storageKey hashers item key ++ [] = storageKey hashers item' key' ++ [] :=
    congrArg (· ++ []) same
  exact (storageKey_append distinct padded).1

variable (hashers) in
/-- The entries of all items as one map from keys, as a state trie has them. -/
noncomputable def flat (entries : (item : StorageItem) → item.Key → Option Bytes) (key : Bytes) :
    Option Bytes := by
  classical
  exact if known : ∃ entry : (item : StorageItem) × item.Key,
    storageKey hashers entry.1 entry.2 = key then
      entries known.choose.1 known.choose.2
    else none

theorem flat_storageKey (distinct : Set.InjOn hashers.twox128 names)
    (entries : (item : StorageItem) → item.Key → Option Bytes)
    (item : StorageItem) (key : item.Key) :
    flat hashers entries (storageKey hashers item key) = entries item key := by
  have known : ∃ entry : (item : StorageItem) × item.Key,
      storageKey hashers entry.1 entry.2 = storageKey hashers item key := ⟨⟨item, key⟩, rfl⟩
  have entry := storageKey_injective distinct known.choose_spec
  rw [flat, dif_pos known]
  exact congrArg (fun entry : (item : StorageItem) × item.Key => entries entry.1 entry.2) entry

/-- If `twox_128` tells the names of the items apart, no key is a beginning of another: keys of
different items, and of different entries of one item, do not meet, neither in a lookup nor under a
common prefix. -/
theorem storage_keys_apart (hashers : StorageHashers) (distinct : Set.InjOn hashers.twox128 names)
    (item : StorageItem) (key : item.Key) (item' : StorageItem) (key' : item'.Key)
    (begins : storageKey hashers item key <+: storageKey hashers item' key') :
    (⟨item, key⟩ : (item : StorageItem) × item.Key) = ⟨item', key'⟩ := by
  obtain ⟨rest, same⟩ := begins
  rw [← List.append_nil (storageKey hashers item' key')] at same
  exact (storageKey_append distinct same).1

def sampleHashers : StorageHashers where
  twox128 name := ⟨(name ++ List.replicate 16 0).take 16, by simp⟩
  blake2128 _ := List.Vector.replicate 16 0

def sampleNames : List Bytes :=
  ["Epochs", "Transfers", "Governance", "SummaryHeaders", "SummarySlots",
    "LatestSummaryHeader", "EpochExportIds", "ExportsById", "ObservedImportsById",
    "EpochFinalizedImportIds", "ImporterAccount", "ProtocolVersion",
    "GovernanceVoters", "ProposalsById", "ActivationRecordsById", "AckRecordsByKey",
    "EpochGovernanceLeafIds",
    "GovernanceLeavesById"].map utf8

theorem names_listed {name : Bytes} (member : name ∈ names) : name ∈ sampleNames := by
  obtain ⟨item, here | here⟩ := member
  · subst here
    cases item <;> exact List.mem_map_of_mem (by decide)
  · subst here
    cases item <;> exact List.mem_map_of_mem (by decide)

theorem sampleHashers_distinct : Set.InjOn sampleHashers.twox128 names := by
  have different : (sampleNames.map sampleHashers.twox128).Nodup := by decide +kernel
  intro name member name' member' same
  exact List.inj_on_of_nodup_map different (names_listed member) (names_listed member') same

theorem storage_keys_apart_sample :
    storageKey sampleHashers .summaryHeaders 3 ≠ storageKey sampleHashers .summarySlots 3 ∧
      storageKey sampleHashers .summaryHeaders 3 ≠ storageKey sampleHashers .summaryHeaders 4 := by
  constructor
  · intro same
    have entries := storage_keys_apart sampleHashers sampleHashers_distinct
      .summaryHeaders 3 .summarySlots 3 (same ▸ List.prefix_rfl)
    cases entries
  · intro same
    have entries := storage_keys_apart sampleHashers sampleHashers_distinct .summaryHeaders
      3 .summaryHeaders 4 (same ▸ List.prefix_rfl)
    have keys : (3 : EpochId) = 4 := eq_of_heq (Sigma.mk.inj entries).2
    exact absurd keys (by decide)

end StorageItem

end Ialp

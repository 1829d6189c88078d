import Ialp.Lib.Scale
import Ialp.Lib.Merkle
import Ialp.Types.Basic
import Ialp.Types.Inclusion
import Ialp.Types.Transfer
import Ialp.Types.Governance
import Ialp.Types.GovernanceInclusion
import Ialp.Pallets.Epochs
import Ialp.Pallets.EpochTiling
import Ialp.Lib.HashChain
import Ialp.Pallets.EpochHistory
import Ialp.Pallets.Frame
import Ialp.Pallets.Transfers
import Ialp.Pallets.Governance
import Ialp.Runtime.Chain
import Ialp.Pallets.TransfersRun
import Ialp.Lib.Tally
import Ialp.Pallets.TransfersBooks
import Ialp.Pallets.GovernanceSteps
import Ialp.Pallets.GovernanceRun
import Ialp.Runtime.Runs
import Ialp.Runtime.Funds
import Ialp.Runtime.Roots
import Ialp.Network.Network
import Ialp.Pallets.GovernanceLifecycle
import Ialp.Pallets.GovernanceRegistry
import Ialp.Pallets.GovernanceAcks
import Ialp.Network.Assembly
import Ialp.Network.Activation
import Ialp.Network.Versions
import Ialp.Services.Acceptance
import Ialp.Services.Exporter
import Ialp.Services.Packaging
import Ialp.Lib.Keyed
import Ialp.Services.ImporterStore
import Ialp.Services.Attribution
import Ialp.Services.Importer
import Ialp.Services.PackageBytes
import Ialp.Lib.Deferral
import Ialp.Services.Transport
import Ialp.Services.RelayStore
import Ialp.Services.Relay
import Ialp.Services.RelayRuns
import Ialp.Services.RelayDelivery
import Ialp.Services.RelayService
import Ialp.Services.RelayTicks
import Ialp.Services.Handoff
import Ialp.Services.ImporterRuns
import Ialp.Services.ImporterIngest
import Ialp.Lib.Exchange
import Ialp.Services.ImporterNode
import Ialp.Services.ImporterTruth
import Ialp.Network.Settlement
import Ialp.Services.ImporterChain
import Ialp.Network.Conservation
import Ialp.Lib.MerkleBinding
import Ialp.Types.Commitments
import Ialp.Pallets.GovernanceOrder
import Ialp.Runtime.StorageOrder
import Ialp.Pallets.TransfersLifecycle
import Ialp.Runtime.TransferRecords
import Ialp.Services.RelayQueue
import Ialp.Pallets.GovernanceVotes
import Ialp.Pallets.GovernanceVoting
import Ialp.Pallets.GovernanceQueue
import Ialp.Runtime.ScheduledProposals
import Ialp.Services.RelayRetries
import Ialp.Services.SummaryView
import Ialp.Services.PackageView
import Ialp.Services.Ancestry
import Ialp.Services.ExporterStore
import Ialp.Services.ImportRecords
import Ialp.Services.ExporterRuns
import Ialp.Services.Readiness
import Ialp.Services.ChainContext
import Ialp.Services.HonestNode
import Ialp.Network.Acknowledged
import Ialp.Network.Relayed
import Ialp.Network.Completion
import Ialp.Services.ExporterHandoff

import LinkState.Octets
import LinkState.Text.Hex
import LinkState.Text.Utf8
import LinkState.Text.Number
import LinkState.Text.Blank
import LinkState.Json.Value
import LinkState.Json.Reader
import LinkState.Json.Printer
import LinkState.Json.Record
import LinkState.Address.V4
import LinkState.Address.V6
import LinkState.Address.Network
import LinkState.Level
import LinkState.Identifier
import LinkState.Table
import LinkState.Time
import LinkState.Timer
import LinkState.Pdu.Kind
import LinkState.Pdu.DecodeError
import LinkState.Pdu.Header
import LinkState.Pdu.Tlv
import LinkState.Pdu.LspTlvs
import LinkState.Pdu.Fragment
import LinkState.Pdu.Flags
import LinkState.Pdu.FlagsText
import LinkState.Pdu.Checksum
import LinkState.Pdu.Lsp
import LinkState.Pdu.Snp
import LinkState.Pdu.Basic
import LinkState.Pdu.Json
import LinkState.Config
import LinkState.Config.Json
import LinkState.Circuit
import LinkState.Flooding
import LinkState.Database
import LinkState.Paging
import LinkState.UpdateError
import LinkState.Trace
import LinkState.LevelState.Basic
import LinkState.LevelState.Install
import LinkState.LevelState.Purge
import LinkState.LevelState.Originate
import LinkState.LevelState.Generate
import LinkState.LevelState.Receive
import LinkState.LevelState.Summaries
import LinkState.LevelState.Timers
import LinkState.LevelState.Requests
import LinkState.Instance
import LinkState.Proofs.Table
import LinkState.Proofs.TimerQueue
import LinkState.Proofs.Installing
import LinkState.Proofs.Step
import LinkState.Proofs.Consistency
import LinkState.Proofs.Effects
import LinkState.Proofs.Absorption
import LinkState.Proofs.Decomposition
import LinkState.Proofs.Reception
import LinkState.Proofs.Reachability
import LinkState.Proofs.LspIdOrder
import LinkState.Proofs.Ranges
import LinkState.Proofs.SnpCodec
import LinkState.Proofs.TimerAccounting
import LinkState.Proofs.PageCoherence
import LinkState.Proofs.IndexedStore
import LinkState.Proofs.Safety
import LinkState.Proofs.FloodingInvariant
import LinkState.Proofs.OwnLsps
import LinkState.Proofs.Convergence
import LinkState.Proofs.SummaryReview
import LinkState.Proofs.Lifetimes
import LinkState.Proofs.Synchronisation
import LinkState.Proofs.OwnContent
import LinkState.Proofs.Generation
import LinkState.Proofs.RefreshOrder
import LinkState.Proofs.UpToDate
import LinkState.Proofs.Utf8
import LinkState.Proofs.LspCodec
import LinkState.Proofs.Checksum
import LinkState.Proofs.Fragments
import LinkState.Proofs.OwnEncoding
import LinkState.Proofs.Succession
import LinkState.Proofs.Clock
import LinkState.Proofs.Draining
import LinkState.Proofs.Ageing
import LinkState.Proofs.FieldGrammar
import LinkState.Proofs.LspGrammar
import LinkState.Proofs.Patching
import LinkState.Proofs.Reencoding
import LinkState.Proofs.Elections
import LinkState.Proofs.Echo
import LinkState.Proofs.LazyTimerQueue
import LinkState.Proofs.Footprint
import LinkState.Proofs.Interference
import LinkState.Proofs.OwnPurge
import LinkState.Proofs.PurgeReasons
import LinkState.Proofs.Expiry
import LinkState.Proofs.Deferral
import LinkState.Proofs.Transit
import LinkState.Proofs.GenerationSpacing
import LinkState.Proofs.Sendability
import LinkState.Proofs.Shown
import LinkState.Proofs.ForeignLsps
import LinkState.Proofs.ForcedPurges
import LinkState.Proofs.SnpReception
import LinkState.Proofs.Agenda
import LinkState.Proofs.Mirroring
import LinkState.Proofs.MirroredTimers
import LinkState.Proofs.ExpiryRace
import LinkState.Proofs.PageSize
import LinkState.Proofs.Conservation
import LinkState.Proofs.OwnAdvertising
import LinkState.Proofs.MinimalGeneration
import LinkState.Proofs.Refusals
import LinkState.Proofs.TimerCascades
import LinkState.Proofs.ErrorDetection
import LinkState.Proofs.PurgeForm
import LinkState.Proofs.Listing
import LinkState.Proofs.Generators

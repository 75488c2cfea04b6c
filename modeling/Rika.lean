import Rika.LogCompaction
import Rika.QueueCount
import Rika.CommandOrder
import Rika.ProjectionReplay
import Rika.ProjectionItems
import Rika.PreviewFencing
import Rika.ConnectionFibers
import Rika.FeedOrder
import Rika.ExecutorCancellation
import Rika.AssignmentAccess
import Rika.BoxOutcomes
import Rika.WatchSettlement
import Rika.SettledTurns
import Rika.PreparationOrder
import Rika.GatewayConnections
import Rika.DeviceRevocation
import Rika.PushAuthorizations
import Rika.ObservationRuns
import Rika.CredentialHistory
import Rika.ContextRestoration
import Rika.ThreadCreation
import Rika.SummaryRepairs
import Rika.WebSocketForwarding
import Rika.ConversationSplices
import Rika.EnvironmentResolution
import Rika.GrepCompleteness
import Rika.BashCalls
import Rika.QueueRuns
import Rika.EditExactness
import Rika.VaultRuns
import Rika.WorkspaceRecovery
import Rika.ThreadListing
import Rika.PathResolution
import Rika.SearchPages
import Rika.ArchiveRestore
import Rika.ReadCompletion
import Rika.UnitNesting
import Rika.UnitIdentity
import Rika.UnifiedHunks
import Rika.ViewDeltas
import Rika.LiveUsage
import Rika.OlderWindows
import Rika.DiffMinimality
import Rika.StyledWrapping
import Rika.RegistryRetention
import Rika.TarInspector
import Rika.OverflowRecovery
import Rika.BoxRotation
import Rika.GrantUses
import Rika.EventSequences
import Rika.OperationAdmission
import Rika.RootTurnOwner

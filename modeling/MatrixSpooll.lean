import MatrixSpooll.Queue.Blocked
import MatrixSpooll.Queue.Submission
import MatrixSpooll.Worker.CancelDelivery
import MatrixSpooll.Worker.SlotCapacity
import MatrixSpooll.Worker.CancelRace
import MatrixSpooll.Worker.FreeRecords
import MatrixSpooll.Worker.Lease
import MatrixSpooll.Usage.Settlement
import MatrixSpooll.Episode.Exhaustion
import MatrixSpooll.Script.Ownership
import MatrixSpooll.Version.BatchAtomicity
import MatrixSpooll.EventLog.Contexts
import MatrixSpooll.EventLog.UserEntry
import MatrixSpooll.Session.Handover
import MatrixSpooll.Session.ForkFidelity
import MatrixSpooll.Session.Supersession
import MatrixSpooll.Session.Idempotence
import MatrixSpooll.Session.TurnExclusion
import MatrixSpooll.Session.EntryStream
import MatrixSpooll.Session.SseChannel
import MatrixSpooll.Asset.RenamePaths
import MatrixSpooll.Asset.RenameRecovery
import MatrixSpooll.FreeCreation.CanvasPatches
import MatrixSpooll.ProjectEvents.Coverage
import MatrixSpooll.Archive.ImportRace
import MatrixSpooll.Migration.StagedSwap
import MatrixSpooll.Grid.Batching
import MatrixSpooll.Admission.Screening
import MatrixSpooll.Generation.Result

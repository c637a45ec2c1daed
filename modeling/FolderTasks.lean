import FolderTasks.Dispatch.Description
import FolderTasks.Dispatch.Run
import FolderTasks.Failure
import FolderTasks.Listeners.Program
import FolderTasks.Package.Storage
import FolderTasks.Processes.Batch
import FolderTasks.Processes.Handle
import FolderTasks.Scripted.Client
import FolderTasks.Scripted.Program
import FolderTasks.Status
import FolderTasks.Wire.Notice
import FolderTasks.Wire.Package
import FolderTasks.Proofs.Dispatch.ReachableWorlds
import FolderTasks.Proofs.Dispatch.ElementaryChanges
import FolderTasks.Proofs.Dispatch.OperationShapes
import FolderTasks.Proofs.Dispatch.TurnChanges
import FolderTasks.Proofs.Dispatch.LedgerChanges
import FolderTasks.Proofs.Dispatch.ExecutionAccount
import FolderTasks.Proofs.Dispatch.TaskNumbers
import FolderTasks.Proofs.Dispatch.QueueOrder
import FolderTasks.Proofs.Dispatch.BackendRecords
import FolderTasks.Proofs.Dispatch.QueueExclusion
import FolderTasks.Proofs.Dispatch.ResetBook
import FolderTasks.Proofs.Dispatch.QueueWithholding
import FolderTasks.Proofs.Dispatch.LastingFacts
import FolderTasks.Proofs.Dispatch.TaskHistory
import FolderTasks.Proofs.Dispatch.StartOrder
import FolderTasks.Proofs.Dispatch.ExecutionPieces
import FolderTasks.Proofs.Dispatch.Announcements
import FolderTasks.Proofs.Dispatch.TurnResults
import FolderTasks.Proofs.Dispatch.StartHandover
import FolderTasks.Proofs.Dispatch.EntryOutcomes
import FolderTasks.Proofs.Dispatch.EntryCourse
import FolderTasks.Proofs.Dispatch.OutcomeLaw
import FolderTasks.Proofs.Dispatch.FolderEntries
import FolderTasks.Proofs.Dispatch.FolderExclusion
import FolderTasks.Proofs.Dispatch.SequentialServer
import FolderTasks.Proofs.Dispatch.QueueSlots
import FolderTasks.Proofs.Dispatch.QueueProgress
import FolderTasks.Proofs.Dispatch.HandleNames
import FolderTasks.Proofs.Dispatch.EntrySharing
import FolderTasks.Proofs.Dispatch.ManagerDisposal
import FolderTasks.Proofs.Dispatch.ReporterCalls
import FolderTasks.Proofs.Dispatch.ExecutionCleanup
import FolderTasks.Proofs.Dispatch.TurnTouches
import FolderTasks.Proofs.Dispatch.JobWakeups
import FolderTasks.Proofs.Dispatch.RemainingStages
import FolderTasks.Proofs.Dispatch.HandleOutcomes
import FolderTasks.Proofs.Dispatch.QueueDraining
import FolderTasks.Proofs.Dispatch.FairRuns
import FolderTasks.Proofs.Dispatch.HonouredRequests
import FolderTasks.Proofs.Dispatch.WaitingRooms
import FolderTasks.Proofs.Dispatch.MirroredWorlds
import FolderTasks.Proofs.Dispatch.MirroredActions
import FolderTasks.Proofs.Dispatch.MirroredExecutions
import FolderTasks.Proofs.Dispatch.AbsorbedRequests
import FolderTasks.Proofs.Json.Spelling
import FolderTasks.Proofs.Wire.RoundTrip
import FolderTasks.Proofs.Dispatch.ReopenerWakeups
import FolderTasks.Proofs.Dispatch.QueueReopening
import FolderTasks.Proofs.Dispatch.ActionCommands
import FolderTasks.Proofs.Dispatch.OutcomePeeks
import FolderTasks.Proofs.Dispatch.RunningTokens
import FolderTasks.Proofs.Dispatch.FactTimes
import FolderTasks.Proofs.Dispatch.RecordTimes
import FolderTasks.Proofs.Dispatch.ScriptedCalls
import FolderTasks.Proofs.Dispatch.PunctualRuns
import FolderTasks.Proofs.Dispatch.EntryActivation
import FolderTasks.Proofs.Dispatch.EntryProgress
import FolderTasks.Proofs.Dispatch.Requesters
import FolderTasks.Proofs.Dispatch.EntryObservation
import FolderTasks.Proofs.Dispatch.QueuePlans
import FolderTasks.Proofs.Dispatch.FolderIndependence
import FolderTasks.Proofs.Dispatch.SoleQueue
import FolderTasks.Proofs.Dispatch.SequentialQueue
import FolderTasks.Proofs.Dispatch.QueueNames
import FolderTasks.Proofs.Dispatch.ReportBlocks
import FolderTasks.Proofs.Files.Placing
import FolderTasks.Proofs.Package.Saving
import FolderTasks.Proofs.Listeners.Subscriptions
import FolderTasks.Proofs.Listeners.Moments
import FolderTasks.Proofs.Listeners.Emission
import FolderTasks.Proofs.Files.MakingFolders
import FolderTasks.Proofs.Package.Drafts
import FolderTasks.Proofs.Json.Grammar
import FolderTasks.Proofs.Json.Records
import FolderTasks.Proofs.Json.Kinds
import FolderTasks.Proofs.Wire.Acceptance
import FolderTasks.Proofs.Json.Sums
import FolderTasks.Proofs.Wire.Tagged
import FolderTasks.Proofs.Paths.Ordering
import FolderTasks.Proofs.Dispatch.WorkspaceFolders
import FolderTasks.Proofs.Package.Kinds
import FolderTasks.Proofs.Dispatch.OfferedTasks
import FolderTasks.Proofs.Scripted.Accounting
import FolderTasks.Proofs.Scripted.Waiting
import FolderTasks.Proofs.Machine.Hosts
import FolderTasks.Proofs.Machine.Reading
import FolderTasks.Proofs.Processes.Handles
import FolderTasks.Proofs.Processes.Batches
import FolderTasks.Proofs.Shell.Fields
import FolderTasks.Proofs.Shell.NumberRange

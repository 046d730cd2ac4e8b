import DrawingMachine.Machine.Revisions
import DrawingMachine.Gcode.Soundness
import DrawingMachine.Gcode.StreamProgram
import DrawingMachine.Gcode.Agreement
import DrawingMachine.Persistence.Runs
import DrawingMachine.Application.Admission
import DrawingMachine.Gcode.Labels
import DrawingMachine.Protocol.Nesting
import DrawingMachine.Application.MotionRecovery
import DrawingMachine.Fluidnc.Freshness
import DrawingMachine.Persistence.Histories
import DrawingMachine.Persistence.RestartJobs
import DrawingMachine.Application.StagingScan
import DrawingMachine.Service.MachineAgreement
import DrawingMachine.Service.JobAgreement
import DrawingMachine.Application.StagedRetry
import DrawingMachine.Planning.Buildable
import DrawingMachine.Planning.BaseWalk
import DrawingMachine.Planning.Simplification
import DrawingMachine.Fluidnc.StreamDiscipline
import DrawingMachine.Planning.Thinning
import DrawingMachine.Gcode.PreviewAgreement
import DrawingMachine.Application.CalibratedPose
import DrawingMachine.Application.ProgressAgreement
import DrawingMachine.Planning.Dedupe
import DrawingMachine.Gcode.Ordering
import DrawingMachine.Planning.Otsu
import DrawingMachine.Planning.Merging
import DrawingMachine.Planning.HatchCoverage
import DrawingMachine.Workflow.Review
import DrawingMachine.Machine.ClosedDecoding
import DrawingMachine.Planning.BoundarySearch
import DrawingMachine.Application.Driving
import DrawingMachine.Service.CancellationAttribution
import DrawingMachine.Documents.RoundTrips
import DrawingMachine.Workers.ClosedOutcomes
import DrawingMachine.Service.MachineOrder
import DrawingMachine.Service.JobOrder
import DrawingMachine.Service.MachineReplies
import DrawingMachine.Service.Observations
import DrawingMachine.Persistence.Approvals
import DrawingMachine.Persistence.Migrations
import DrawingMachine.Artifacts.Confinement
import DrawingMachine.Artifacts.Promotion
import DrawingMachine.Artifacts.Writes

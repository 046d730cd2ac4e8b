import Mathlib.Tactic.Common

/-!
# Workers

What a worker of the offline chain does, and how it has ended.
-/

namespace DrawingMachine

/-- The kinds of workers. -/
inductive WorkerKind where
  | imagePrepare | providerLocalComfyui | pathsPlan | gcodeBuild | gcodeCheck | testEcho | testHang
  deriving DecidableEq, Repr

/-- How a worker has ended. -/
inductive WorkerStatus where
  | succeeded | blocked | failed | cancelled
  deriving DecidableEq, Repr

/-- The name of a kind of worker. -/
def WorkerKind.value : WorkerKind → String
  | .imagePrepare => "image.prepare"
  | .providerLocalComfyui => "provider.local_comfyui"
  | .pathsPlan => "paths.plan"
  | .gcodeBuild => "gcode.build"
  | .gcodeCheck => "gcode.check"
  | .testEcho => "test.echo"
  | .testHang => "test.hang"

/-- The name of how a worker has ended. -/
def WorkerStatus.value : WorkerStatus → String
  | .succeeded => "SUCCEEDED"
  | .blocked => "BLOCKED"
  | .failed => "FAILED"
  | .cancelled => "CANCELLED"

end DrawingMachine

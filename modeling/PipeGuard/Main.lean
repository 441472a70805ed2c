import PipeGuard.Command.Run

/-! The program. It looks at the files that its arguments name, runs the command line on what it found,
writes the files that came out different, and prints. -/
namespace PipeGuard.Program

/-- What lies at a path. -/
def look (path : String) : IO (Option Node) := do
  if ← ((← IO.currentDir) / path).isDir then return some .directory
  match ← (IO.FS.readBinFile path).toBaseIO with
  | .ok bytes => return some (.file (.ofBytes bytes))
  | .error _ => return none

/-- What lies at the given paths, and at those that lead to them. -/
def survey (paths : List String) : IO Disk := do
  let here ← IO.currentDir
  let start := (Disk.names here.toString).filter (· ≠ "")
  (paths.flatMap Disk.leads).foldlM (fun disk path => return disk.setAt path (← look path)) { start }

def readStdin : IO Content := return .ofBytes (← (← IO.getStdin).readBinToEnd)

end PipeGuard.Program

open PipeGuard in
def main (arguments : List String) : IO UInt32 := do
  let begun ← IO.monoNanosNow
  let request? := match Command.parse arguments with
    | .request request => some request
    | _ => none
  let disk ← Program.survey ((request?.map Command.Request.files).getD [])
  let stdin ← if (request?.map Command.Request.readsStdin).getD false then Program.readStdin
    else pure (.text "")
  let forced := ((← IO.getEnv "FSV_DEBUG").map Command.isTruthy).getD false
  let result := Command.run arguments { disk, stdin, logger := { forced } }
  let changes := (request?.map (·.changes disk result.world.disk)).getD []
  for change in changes do IO.FS.writeFile change.1 change.2
  let elapsed := Command.elapsedText ((← IO.monoNanosNow) - begun)
  IO.print result.world.stdout
  IO.eprint (result.errorText elapsed)
  return result.exitCode.toUInt32

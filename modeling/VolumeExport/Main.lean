import VolumeExport.CommandLine
import VolumeExport.Operator

namespace VolumeExport.Main

def environment : IO (Dict String) := do
  let found ← Variable.all.mapM fun name => do return (name, ← IO.getEnv name)
  return .ofList (found.filterMap fun p => p.2.map (p.1, ·))

/-- The bytes of a file, none if there is no file. -/
def contents (path : String) : IO (Option (List UInt8)) := do
  try return some (← IO.FS.readBinFile path).toList
  catch
    | .noFileOrDirectory .. => return none
    | e => throw e

def refuse (message : String) : IO UInt32 := do
  IO.eprintln message
  return 1

def control : IO UInt32 := do
  match Settings.ofEnvironment (← environment) with
  | .error e => refuse e.message
  | .ok (settings, notices) =>
    notices.forM fun notice => IO.println notice
    match Operator.start settings (← contents settings.hookPath) with
    | .error e => refuse e.message
    | .ok _ =>
      IO.println Operator.greeting
      return 0

end VolumeExport.Main

def main (words : List String) : IO UInt32 := do
  match (VolumeExport.CommandLine.parse words).exitCode? with
  | none => VolumeExport.Main.control
  | some code =>
    IO.println VolumeExport.CommandLine.usage
    return code.toUInt32

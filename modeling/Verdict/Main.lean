import Verdict.Program

/-!
# The executable

Reads the arguments, the variables and the files that the program may ask for, runs it, and
writes what it leaves behind. Moments are counted from the start of the program.
-/

namespace Verdict.Executable

/-- The variables of this process, from the file that lists them. -/
def readVariables : IO Variables := do
  let bytes ← try IO.FS.readBinFile "/proc/self/environ" catch _ => pure ByteArray.empty
  let listed := (Text.decodeLossy bytes).splitOn "\x00"
  return listed.filterMap fun entry =>
    match entry.splitOn "=" with
    | name :: value :: rest => some (name, String.intercalate "=" (value :: rest))
    | _ => none

/-- The fault of a file behind an error of the system. -/
def faultOf : IO.Error → FileFault
  | .noFileOrDirectory .. => .missing
  | .noSuchThing .. => .missing
  | .inappropriateType .. => .directory
  | e => .other (toString e)

/-- Reads a file. -/
def readFile (path : String) : IO (Except FileFault ByteArray) := do
  try return .ok (← IO.FS.readBinFile path) catch e => return .error (faultOf e)

/-- Writes what the program leaves behind. -/
def write (finished : Program.Finished) : IO Unit := do
  let errors ← IO.getStderr
  match finished.settingsFault with
  | some fault => errors.putStrLn ("Failed to load config, using defaults: " ++ fault.message)
  | none => pure ()
  for line in finished.lines do
    errors.putStrLn line.written
  match finished.result with
  | .ok output => (← IO.getStdout).putStrLn output
  | .error e => errors.putStrLn (Program.report e.chain)

end Verdict.Executable

open Verdict Verdict.Executable

def main (arguments : List String) : IO UInt32 := do
  let started ← IO.monoMsNow
  let vars ← readVariables
  let read ← (Program.paths vars arguments).mapM fun path => return (path, ← readFile path)
  let files : Files := fun path =>
    match read.find? fun entry => entry.1 == path with
    | some entry => entry.2
    | none => .error .missing
  let moment := Text.decimal ((← IO.monoMsNow) - started) ++ "ms"
  match Program.run files vars moment arguments with
  | .ok finished =>
    write finished
    return finished.exitCode.toUInt32
  | .error usage =>
    if usage.exitCode = 0 then (← IO.getStdout).putStrLn usage.message
    else (← IO.getStderr).putStrLn usage.message
    return usage.exitCode.toUInt32

import Std.Time.Format
import TransitionSystems.CommandLine.Report

/-!
# The command

Reads the model files that the arguments name, prints the report and writes its file.
-/

namespace TransitionSystems.CommandLine

/-- The bytes of a file, or why they cannot be had. -/
def readFile (path : String) : IO (Except FileFault Text) := do
  match ← (IO.FS.Handle.mk path .read).toBaseIO with
  | .error _ => return .error .notOpened
  | .ok handle =>
    match ← handle.readBinToEnd.toBaseIO with
    | .error _ => return .error .notRead
    | .ok bytes => return .ok bytes.data.toList

/-- Writes the file of a report and says whether that was possible. -/
def writeFile (saving : Saving) : IO Bool := do
  match String.fromUTF8? (ByteArray.mk saving.path.toArray) with
  | none => return false
  | some path =>
    match ← (IO.FS.writeBinFile path (ByteArray.mk saving.content.toArray)).toBaseIO with
    | .error _ => return false
    | .ok () => return true

/-- The local date and time. -/
def dateText : IO Text := do
  return Text.ofString ((← Std.Time.DateTime.now).format "MM/dd/yy HH:mm:ss Z")

/-- The model files among the arguments with their contents. -/
def readModels (arguments : List String) : IO (List (Text × Except FileFault Text)) := do
  match Options.ofArguments (arguments.map Text.ofString) with
  | .error _ => return []
  | .ok options =>
    (arguments.filter fun argument =>
      [options.first, options.second].contains (Text.ofString argument)).mapM fun argument => do
        return (Text.ofString argument, ← readFile argument)

end TransitionSystems.CommandLine

/-- Runs the command. -/
def main (arguments : List String) : IO UInt32 := do
  let models ← TransitionSystems.CommandLine.readModels arguments
  let report := TransitionSystems.CommandLine.respond "transys"
    (arguments.map TransitionSystems.Text.ofString)
    (fun path => (models.lookup path).getD (.error .notOpened))
    (← TransitionSystems.CommandLine.dateText)
  let saved ←
    match report.saving with
    | none => pure false
    | some saving => TransitionSystems.CommandLine.writeFile saving
  let final := report.afterSaving saved
  (← IO.getStdout).write (ByteArray.mk final.output.toArray)
  (← IO.getStderr).write (ByteArray.mk final.log.toArray)
  return final.exitCode.toUInt32

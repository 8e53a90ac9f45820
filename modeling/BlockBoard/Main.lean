import BlockBoard.CommandLine.Task
/-!
# The program

Carries out the task of its arguments on the files of this machine. No network and no board is within
reach of it: it compiles, lists, and works with the simulated board.
-/

namespace BlockBoard

namespace CommandLine

/-- Reads a file, if it can be read. -/
def readBytes (path : String) : IO (Option (List UInt8)) := do
  try return some (← IO.FS.readBinFile path).toList catch _ => return none

/-- Writes a file; tells whether that worked. -/
def writeBytes (path : String) (contents : List UInt8) : IO Bool := do
  try
    IO.FS.writeBinFile path ⟨contents.toArray⟩
    return true
  catch _ => return false

/-- Carries out a task. -/
def Task.perform : Task → IO UInt8
  | .finish e => do
    IO.print e.output
    unless e.complaint.isEmpty do IO.eprintln e.complaint
    return e.exit
  | .load path next => do (next (← readBytes path)).perform
  | .store path contents next => do (next (← writeBytes path contents)).perform

end CommandLine

end BlockBoard

open BlockBoard.CommandLine in
/-- The program. -/
def main (args : List String) : IO UInt32 := do
  let code ← (taskOf args ⟨⟨0, 0⟩, BlockBoard.HttpService.unreachable⟩).perform
  return code.toUInt32

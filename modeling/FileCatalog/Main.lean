import FileCatalog.Admin

/-!
# The admin tool on the files of the machine
-/

namespace FileCatalog

/-- Whether an action succeeds. -/
def succeeds (action : IO Unit) : IO Bool := do
  try
    action
    return true
  catch _ => return false

/-- What a path names. -/
def contentOf (path : String) : IO Content := do
  try
    let octets ← IO.FS.readBinFile path
    return .file octets.data.toList
  catch
    | .noFileOrDirectory .. => return .nothing
    | _ => return .unreadable

/-- The files of the machine. -/
def machineFiles : Files IO where
  makeDirectory path := succeeds (IO.FS.createDirAll path)
  read := contentOf
  write path octets := succeeds (IO.FS.writeBinFile path ⟨octets.toArray⟩)

end FileCatalog

open FileCatalog

/-- One run of the tool. -/
def main (arguments : List String) : IO UInt32 := do
  let outcome ← Admin.run machineFiles arguments
  (← IO.getStdout).putStr outcome.stdout
  match outcome.error with
  | some message => (← IO.getStderr).putStrLn ("Error: " ++ message)
  | none => if outcome.exit = 2 then (← IO.getStderr).putStrLn "error: the arguments are refused"
  return UInt32.ofNat outcome.exit

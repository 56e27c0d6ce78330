import SchemaClasses.CommandLine

/-! The program: reads the files that a command names, prints what the command prints and ends with
its code. -/

namespace SchemaClasses

/-- Why a file cannot be read, as the system puts it. -/
def reason : IO.Error → String
  | .noFileOrDirectory .. => "No such file or directory (os error 2)"
  | .permissionDenied .. => "Permission denied (os error 13)"
  | .inappropriateType .. => "Is a directory (os error 21)"
  | error => toString error

def readFile (path : String) : IO (String × Except String (List UInt8)) := do
  try return (path, .ok (← IO.FS.readBinFile path).toList)
  catch error => return (path, .error (reason error))

def lookIn (contents : List (String × Except String (List UInt8))) : Files := fun path =>
  (contents.lookup path).getD (.error "not read")

end SchemaClasses

open SchemaClasses

def main (arguments : List String) : IO UInt32 := do
  let paths := ((Command.ofArguments? arguments).map Command.paths).getD []
  let contents ← paths.mapM readFile
  let outcome := CommandLine.run (lookIn contents) arguments
  IO.print outcome.stdout
  IO.eprint outcome.stderr
  return outcome.code.toUInt32

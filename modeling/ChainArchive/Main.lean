import ChainArchive.Program

/-!
# Entry point

Reads what the program may see of its surroundings, runs it and writes its
answer. Events from the level INFO on go to the standard error.
-/

set_option autoImplicit false

open ChainArchive

/-- Why a file could not be read. -/
def unreadable : IO.Error → String
  | .noFileOrDirectory .. => Files.absent
  | .permissionDenied .. => Files.forbidden
  | .inappropriateType _ code _ => if code = 21 then Files.directory else Files.noDirectory
  | e => toString e

/-- Reads a file. -/
def readFile (path : String) : IO (Except String Bytes) := do
  try
    return .ok (← IO.FS.readBinFile path).toList
  catch e =>
    return .error (unreadable e)

/-- The values of the variables that the settings depend on. -/
def readEnvironment : IO Settings.Environment := do
  let mut values : List (String × String) := []
  for name in Settings.numericVariables ++ Settings.pathVariables do
    if let some value ← IO.getEnv name then values := (name, value) :: values
  let known := values
  return fun name => known.lookup name

/-- The contents of the files that a call may read. -/
def readFiles (paths : List String) : IO Files := do
  let contents ← paths.mapM fun path => return (path, ← readFile path)
  return fun path => (contents.lookup path).getD (.error Files.absent)

def main (arguments : List String) : IO UInt32 := do
  let environment ← readEnvironment
  let files ← readFiles (Program.paths environment arguments)
  let statement := StatementId.ofRandom (← IO.getRandomBytes 16).toList
  let answer := Program.run { environment, files, statement } arguments
  for event in answer.log do
    if event.level != .debug then IO.eprintln event.line
  match answer.result with
  | .ok text => IO.print text
  | .error e => IO.eprintln e.text
  return UInt32.ofNat (Program.exitCode answer)

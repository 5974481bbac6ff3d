import ChainArchive.Bytes

/-!
# The command line

The program takes the id of the last transaction of a chain and, with `--seed`,
the path of a seed file. What begins with a hyphen is an option, unless it is a
lone hyphen or comes after the separator `--`. Arguments are read from left to
right; the first that is at fault, or asks for help, decides.
-/

namespace ChainArchive
set_option autoImplicit false

/-- What the arguments ask for. -/
inductive Invocation
  /-- To tell how the program is used. -/
  | help
  /-- To generate the statement of the chain that ends with this id, over the records of a seed file. -/
  | generate (last : String) (seed : Option String)
deriving Repr, DecidableEq

/-- What is wrong with the arguments. -/
inductive UsageError
  /-- There is no such option, or no place for another argument. -/
  | unexpected (argument : String)
  /-- An option stands at the end, or before another option. -/
  | missingValue
  /-- The path of the seed file is empty. -/
  | emptyPath
  /-- Two seed files are given. -/
  | repeatedSeed
  /-- The id is missing. -/
  | missingId
deriving Repr, DecidableEq

/-- The text shown for faulty arguments. -/
def UsageError.message : UsageError → String
  | .unexpected argument => s!"unexpected argument '{argument}' found"
  | .missingValue => "a value is required for '--seed <SEED>' but none was supplied"
  | .emptyPath => "a value is required for '--seed <SEED>' but an empty one was supplied"
  | .repeatedSeed => "the argument '--seed <SEED>' cannot be used multiple times"
  | .missingId => "the following required arguments were not provided: <LAST_TRANSACTION_ID>"

namespace Invocation

/-- How the program is called. -/
def usage : String := "Usage: chain-archive [OPTIONS] <LAST_TRANSACTION_ID>"

/-- The answer to a call for help. -/
def helpText : String := String.intercalate "\n" [
  "Archive a transaction chain into a fresh statement",
  "",
  usage,
  "",
  "Arguments:",
  "  <LAST_TRANSACTION_ID>  Id of the last transaction of the chain",
  "",
  "Options:",
  "      --seed <SEED>  JSON file of live transactions inserted before the run",
  "  -h, --help         Print help",
  ""]

/-- The argument is written like an option. -/
def isOption (argument : String) : Bool := argument.toList.length ≠ 1 && argument.toList.head? == some '-'

/-- What an argument that is written like an option says. -/
inductive Word
  | separator
  | help
  /-- The seed option; its value follows the sign of equality or is the next argument. -/
  | seed (value : Option String)
  | unknown
deriving Repr, DecidableEq

/-- The text after another one. -/
def after? : List Char → List Char → Option (List Char)
  | [], text => some text
  | c :: lead, d :: text => if c = d then after? lead text else none
  | _ :: _, [] => none

/-- Reads an argument that is written like an option. After the short option for help anything may stand. -/
def Word.ofArgument (argument : String) : Word :=
  if argument = "--" then .separator
  else if argument = "--help" then .help
  else if argument = "--seed" then .seed none
  else
    match after? "--seed=".toList argument.toList, after? "-h".toList argument.toList with
    | some value, _ => .seed (some (String.ofList value))
    | none, some _ => .help
    | none, none => .unknown

/-- Notes the path of the seed file. -/
def noteSeed (seed : Option String) (value : String) : Except UsageError (Option String) :=
  if seed.isSome then .error .repeatedSeed else if value.isEmpty then .error .emptyPath else .ok (some value)

/-- Notes an argument that is no option. -/
def noteId (last : Option String) (argument : String) : Except UsageError (Option String) :=
  if last.isSome then .error (.unexpected argument) else .ok (some argument)

/-- All arguments have been read. -/
def conclude (last seed : Option String) : Except UsageError Invocation :=
  match last with
  | some last => .ok (.generate last seed)
  | none => .error .missingId

/-- Reads the arguments that are left, given the id and the seed file that were read before. -/
def ofArguments (last seed : Option String) : List String → Except UsageError Invocation
  | [] => conclude last seed
  | argument :: rest =>
    if isOption argument then
      match Word.ofArgument argument, rest with
      | .separator, rest => do conclude (← rest.foldlM noteId last) seed
      | .help, _ => .ok .help
      | .unknown, _ => .error (.unexpected argument)
      | .seed (some value), rest => do
        ofArguments last (← noteSeed seed value) rest
      | .seed none, value :: rest =>
        if isOption value then .error .missingValue
        else do ofArguments last (← noteSeed seed value) rest
      | .seed none, [] => .error .missingValue
    else do
      ofArguments (← noteId last argument) seed rest

/-- Reads all arguments. -/
def parse (arguments : List String) : Except UsageError Invocation := ofArguments none none arguments

example : (parse ["C", "--seed", "seed.json"]).toOption = some (.generate "C" (some "seed.json")) := by decide +kernel
example : (parse ["--seed=s", "--", "-C"]).toOption = some (.generate "-C" (some "s")) := by decide +kernel
example : (parse ["A", "-hx"]).toOption = some .help ∧ (parse ["-C"]).toOption = none := by decide +kernel

end Invocation
end ChainArchive

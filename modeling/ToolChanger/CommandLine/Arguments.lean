/-!
# Arguments

The command line has two levels, each with options of its own: what stands before the command, and what follows it.
Each option may be given once a level. After `--` everything is an operand.
-/

namespace ToolChanger.CommandLine

inductive Command where
  /-- renumber a program, either with the pockets on record or after asking -/
  | translate (file : String) (output : Option String) (approve : Bool)
  | status (file : String)
  deriving DecidableEq, Repr

structure Invocation where
  command : Command
  folder : Option String
  deriving DecidableEq, Repr

inductive Stop where
  | version
  | misuse
  deriving DecidableEq, Repr

/-! ### Options -/

inductive Flag where
  | dataDir
  | verbose
  | logJson
  | version
  | output
  | yes
  deriving DecidableEq, Repr

def Flag.word : Flag → String
  | dataDir => "data-dir"
  | verbose => "verbose"
  | logJson => "log-json"
  | version => "version"
  | output => "output"
  | yes => "yes"

def Flag.letter? : Flag → Option Char
  | verbose => some 'v'
  | version => some 'V'
  | output => some 'o'
  | yes => some 'y'
  | dataDir | logJson => none

def Flag.takesValue : Flag → Bool
  | dataDir | output => true
  | _ => false

def commonFlags : List Flag := [.dataDir, .verbose, .logJson]

structure Given where
  flags : List (Flag × String) := []
  operands : List String := []

namespace Given

def value? (given : Given) (flag : Flag) : Option String := given.flags.lookup flag

def has (given : Given) (flag : Flag) : Bool := (given.value? flag).isSome

def set (given : Given) (flag : Flag) (value : String) : Except Stop Given :=
  if flag = .version then .error .version
  else if given.has flag || (flag.takesValue && value.isEmpty) then .error .misuse
  else .ok { given with flags := (flag, value) :: given.flags }

end Given

/-- What was read, and the option that still waits for its value. -/
abbrev Partly := Given × Option Flag

def readWord (flags : List Flag) (given : Given) (text : List Char) : Except Stop Partly := do
  let word := String.ofList (text.takeWhile (· != '='))
  let attached := (text.dropWhile (· != '=')).tail?
  match flags.find? (·.word == word), attached with
  | none, _ => .error .misuse
  | some flag, some value =>
    if flag.takesValue then return (← given.set flag (String.ofList value), none) else .error .misuse
  | some flag, none =>
    if flag.takesValue then return (given, some flag) else return (← given.set flag "", none)

/-- Options by their letters. What follows the letter of an option with a value is the value, without the
equals sign that may stand between. -/
def readLetters (flags : List Flag) (given : Given) : List Char → Except Stop Partly
  | [] => .ok (given, none)
  | letter :: rest => do
    match flags.find? (·.letter? == some letter) with
    | none => .error .misuse
    | some flag =>
      if flag.takesValue then
        match rest with
        | [] => return (given, some flag)
        | '=' :: value => return (← given.set flag (String.ofList value), none)
        | value => return (← given.set flag (String.ofList value), none)
      else readLetters flags (← given.set flag "") rest

/-- Reads one level. The upper one ends before its first operand. -/
def readLevel (flags : List Flag) (upper : Bool) (given : Given) (waiting : Option Flag) :
    List String → Except Stop (Given × List String)
  | [] => if waiting.isSome then .error .misuse else .ok (given, [])
  | argument :: rest => do
    match waiting, argument.toList with
    | some _, '-' :: _ :: _ => .error .misuse
    | some flag, _ => readLevel flags upper (← given.set flag argument) none rest
    | none, ['-', '-'] =>
      if upper && !rest.isEmpty then .error .misuse
      else return ({ given with operands := given.operands ++ rest }, [])
    | none, '-' :: '-' :: text =>
      let (given, waiting) ← readWord flags given text
      readLevel flags upper given waiting rest
    | none, '-' :: letter :: letters =>
      let (given, waiting) ← readLetters flags given (letter :: letters)
      readLevel flags upper given waiting rest
    | none, _ =>
      if upper then return (given, argument :: rest)
      else readLevel flags upper { given with operands := given.operands ++ [argument] } none rest

def Given.file (given : Given) : Except Stop String :=
  match given.operands with
  | [file] => if file.isEmpty then .error .misuse else .ok file
  | _ => .error .misuse

/-- The command of some arguments. The folder may also come from the environment, which a level looks at
unless it has the option; an option overrides the environment, and one after the command overrides one
before it. -/
def parse (inherited : Option String) (arguments : List String) : Except Stop Invocation := do
  let (upper, rest) ← readLevel (.version :: commonFlags) true {} none arguments
  let (command, lower) ← match rest with
    | "translate" :: rest => do
      let (given, _) ← readLevel (.output :: .yes :: commonFlags) false {} none rest
      pure (Command.translate (← given.file) (given.value? .output) (given.has .yes), given)
    | "status" :: rest => do
      let (given, _) ← readLevel commonFlags false {} none rest
      pure (Command.status (← given.file), given)
    | _ => .error .misuse
  if inherited = some "" ∧ !(upper.has .dataDir && lower.has .dataDir) then .error .misuse
  return ⟨command, (lower.value? .dataDir).or ((upper.value? .dataDir).or inherited)⟩

end ToolChanger.CommandLine

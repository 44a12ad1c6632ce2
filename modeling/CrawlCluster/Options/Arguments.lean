import CrawlCluster.Options.Basic

/-!
Reading the command line. An option takes the argument behind it or what stands behind an equals
sign. A value waits for the next argument that is understood before it is looked at, so of two
faults an argument that is not understood comes first.
-/

set_option autoImplicit false

namespace CrawlCluster.Options

inductive Argument where
  /-- Two dashes: what follows would be no option. -/
  | last
  | long (name : String) (value : Option String)
  /-- A dash and letters, the first of them given. -/
  | short (letter : Char)
  | plain
  deriving DecidableEq, Repr

/-- One dash alone is a value. -/
def Argument.ofText (arg : String) : Argument :=
  match arg.toList with
  | ['-', '-'] => .last
  | '-' :: '-' :: cs =>
    match Text.cutFirst '=' cs with
    | some (name, value) => .long (String.ofList name) (some (String.ofList value))
    | none => .long (String.ofList cs) none
  | '-' :: c :: _ => .short c
  | _ => .plain

inductive Keyword where
  | option (name : Name)
  | assumeLeader
  | help
  deriving DecidableEq, Repr

def Keyword.ofText? (text : String) : Option Keyword :=
  if text = "assume-leader" then some .assumeLeader
  else if text = "help" then some .help
  else (Name.ofText? text).map .option

/-- The options so far, and the last one, whose value is not looked at yet. -/
structure Reading where
  options : Options := {}
  waiting : Option (Name × Option String) := none
  deriving DecidableEq, Repr

namespace Reading

def settle (r : Reading) : Except UsageError Options :=
  match r.waiting with
  | none => .ok r.options
  | some (_, none) => .error .missingValue
  | some (name, some value) => r.options.set value name

def readOption (name : Name) (value : Option String) (r : Reading) :
    Except UsageError Reading := do
  let options ← r.settle
  match value with
  | none => return { options, waiting := some (name, none) }
  | some value => return { options := ← options.set value name }

def readAssumeLeader (r : Reading) : Except UsageError Reading := do
  let options ← r.settle
  if options.assumeLeader then throw .repeatedOption
  return { options := { options with assumeLeader := true } }

def readHelp (r : Reading) : Except UsageError Reading := do
  let _ ← r.settle
  throw .helpWanted

def readLong (name : String) (value : Option String) (r : Reading) :
    Except UsageError Reading :=
  match Keyword.ofText? name, value with
  | none, _ => .error .unknownArgument
  | some (.option name), value => r.readOption name value
  | some _, some _ => .error .unexpectedValue
  | some .assumeLeader, none => r.readAssumeLeader
  | some .help, none => r.readHelp

def readPlain (value : String) (r : Reading) : Except UsageError Reading :=
  match r.waiting with
  | some (name, none) => .ok { r with waiting := some (name, some value) }
  | _ => .error .unknownArgument

end Reading

def readArguments : List String → Reading → Except UsageError Options
  | [], r => r.settle
  | arg :: args, r =>
    match Argument.ofText arg with
    | .last => if args.isEmpty then r.settle else .error .unknownArgument
    | .long name value => do readArguments args (← r.readLong name value)
    | .short letter => do
      if letter = 'h' then readArguments args (← r.readHelp) else throw .unknownArgument
    | .plain => do readArguments args (← r.readPlain arg)

def usage : String :=
  let line (name : Name) := "  --" ++ name.text ++ " <value>"
  "Options:\n" ++ String.intercalate "\n" (Name.all.map line ++ ["  --assume-leader", "  --help"])

def parse (env : List (String × String)) (args : List String) : Except UsageError Options := do
  (← readArguments args {}).withEnvironment env

end CrawlCluster.Options

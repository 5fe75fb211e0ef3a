import VersionedStore.Files.Path

/-!
# Commands

The commands of the command line and how they are read from its arguments.  An option stands once,
its value after it or after an equals sign; a value that could be an option is none.
-/

namespace VersionedStore.Tool

/-- What the command line is asked to do. -/
inductive Command
  /-- Shows the version and the controllers of a stored state. -/
  | inspect (store : Path)
  /-- Brings a stored state to the present version. -/
  | migrate (store : Path) (markers config : Option Path) (dryRun : Bool)
  /-- Lists the versions that are known. -/
  | versions
  deriving DecidableEq

/-- What the arguments say. -/
inductive Request
  | command (c : Command)
  | help
  | mistake
  deriving DecidableEq

inductive Verb
  | inspect
  | migrate
  | versions
  deriving DecidableEq

def verb? (name : String) : Option Verb :=
  if name = "inspect" then some .inspect
  else if name = "migrate" then some .migrate
  else if name = "versions" then some .versions
  else none

/-- The options that were read so far. -/
structure Options where
  store : Option String := none
  markers : Option String := none
  config : Option String := none
  dryRun : Bool := false

/-- An option that takes a path. -/
inductive PathOption
  | store
  | markers
  | config
  deriving DecidableEq

/-- The option with a path of that name, if the command has it. -/
def pathOption? (v : Verb) (name : String) : Option PathOption :=
  if name = "store" ∧ v ≠ .versions then some .store
  else if name = "markers" ∧ v = .migrate then some .markers
  else if name = "config" ∧ v = .migrate then some .config
  else none

namespace Options

def get? (o : Options) : PathOption → Option String
  | .store => o.store
  | .markers => o.markers
  | .config => o.config

def put (o : Options) (value : String) : PathOption → Options
  | .store => { o with store := some value }
  | .markers => { o with markers := some value }
  | .config => { o with config := some value }

/-- Sets an option that is not set, to a path that is not empty. -/
def putNew (o : Options) (p : PathOption) (value : String) : Option Options :=
  if value.isEmpty || (o.get? p).isSome then none else some (o.put value p)

end Options

/-- An argument as the name of an option, and what stands after its equals sign. -/
def longOption? (arg : String) : Option (String × Option String) :=
  match arg.toList with
  | '-' :: '-' :: name =>
    let (key, rest) := name.span (· ≠ '=')
    match rest with
    | [] => some (String.ofList key, none)
    | _ :: value => some (String.ofList key, some (String.ofList value))
  | _ => none

/-- An argument that is not taken for the value of an option. -/
def looksLikeOption (arg : String) : Bool := arg.toList.head? = some '-' && arg ≠ "-"

/-- An argument that asks for help by its letter. -/
def isShortHelp (arg : String) : Bool := arg.toList.take 2 = ['-', 'h']

/-- The command of the options that were read. -/
def finish (v : Verb) (o : Options) : Request :=
  match v, o.store with
  | .versions, _ => .command .versions
  | .inspect, some s => .command (.inspect (.ofString s))
  | .migrate, some s =>
    .command (.migrate (.ofString s) (o.markers.map .ofString) (o.config.map .ofString) o.dryRun)
  | _, none => .mistake

/-- Reads the arguments of a command. -/
def readOptions (v : Verb) (o : Options) : List String → Request
  | [] => finish v o
  | arg :: args =>
    match longOption? arg with
    | some ("", none) => if args.isEmpty then finish v o else .mistake
    | some ("help", none) => .help
    | some ("dry-run", none) =>
      if v = .migrate ∧ !o.dryRun then readOptions v { o with dryRun := true } args else .mistake
    | some (name, value?) =>
      match pathOption? v name, value?, args with
      | none, _, _ => .mistake
      | some p, some value, args =>
        match o.putNew p value with
        | some o => readOptions v o args
        | none => .mistake
      | some _, none, [] => .mistake
      | some p, none, value :: args =>
        if looksLikeOption value then .mistake
        else
          match o.putNew p value with
          | some o => readOptions v o args
          | none => .mistake
    | none => if isShortHelp arg then .help else .mistake

/-- Reads the arguments of the command line. -/
def readArguments : List String → Request
  | [] => .mistake
  | arg :: args =>
    match verb? arg with
    | some v => readOptions v {} args
    | none =>
      if arg = "--help" || isShortHelp arg then .help
      else if arg = "help" then
        match args with
        | [] => .help
        | [name] => if (verb? name).isSome || name = "help" then .help else .mistake
        | _ => .mistake
      else .mistake

end VersionedStore.Tool

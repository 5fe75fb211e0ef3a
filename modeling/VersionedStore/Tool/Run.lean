import VersionedStore.Config.File
import VersionedStore.Markers.File
import VersionedStore.Session
import VersionedStore.Storage.File
import VersionedStore.Tool.Command

/-!
# Running commands

What the commands print and what becomes of the files.  A command that fails prints its error and
what caused it.
-/

namespace VersionedStore.Tool

/-- The exit code of a command and what it printed. -/
structure Result where
  code : Nat
  out : String := ""
  err : String := ""
  deriving DecidableEq, Repr

def lines (ls : List String) : String := String.join (ls.map (· ++ "\n"))

/-- The lines of a text, every one but the first under an indentation. -/
def indented (s : String) : String :=
  String.ofList (s.toList.flatMap fun c => if c = '\n' then '\n' :: List.replicate 4 ' ' else [c])

def success (out : List String) : Result := { code := 0, out := lines out }

def failure (out : List String) (error : String) : Result :=
  { code := 1, out := lines out, err := "Error: " ++ error ++ "\n" }

/-- The text of an error with its cause. -/
def because (error : String) (cause : StoreError) : String :=
  error ++ "\n\nCaused by:\n    " ++ indented cause.message

def inQuotes (p : Path) : String := "'" ++ p.text ++ "'"

def inspect (store : Path) (t : FileTree) : Result :=
  match FileStorage.readDocument store t with
  | .error e => failure [] (because ("Failed to read store " ++ inQuotes store) e)
  | .ok document =>
    if document.isEmpty then success ["Store: " ++ store.text, "No state stored"]
    else
      match Envelope.ofDocument document with
      | .error e =>
        failure [] (because ("Store " ++ inQuotes store ++ " is not a state envelope") e)
      | .ok e =>
        success (["Store: " ++ store.text, "Schema version: " ++ StoreError.versionText e.version,
          "Controllers (" ++ Nat.repr e.data.length ++ "):"] ++ e.data.keys.map ("- " ++ ·))

/-- The directory of the markers that belong to a store. -/
def markersBeside (store : Path) : Path := (store.parent?.getD ⟨["."]⟩).child ".markers"

/-- The storage and the markers of a migration; a dry run does not set markers. -/
def ports (store markers : Path) (dryRun : Bool) : Ports FileTree where
  storage := FileStorage.storage store
  markers :=
    if dryRun then (FileMarkers.markers markers).readOnly else FileMarkers.markers markers

def migratedLine (r : Report) : String :=
  "Migrated " ++ StoreError.versionText r.fromVersion ++ " -> " ++
    StoreError.versionText r.envelope.version ++ " (applied: [" ++
    ", ".intercalate (r.applied.map StoreError.versionText) ++ "])"

def faultLine (f : Fault) : String :=
  "- fault at " ++ StoreError.versionText f.version ++ ": " ++ f.reason

/-- Tells what a migration came to. -/
def describe (store : Path) (dryRun : Bool) : Outcome → Result
  | .fresh _ version =>
    success
      ["No state stored, a fresh install starts at version " ++ StoreError.versionText version]
  | .corrupted =>
    failure [] ("State in " ++ inQuotes store ++
      " is corrupted; recovery must be confirmed by the application")
  | .loaded report written =>
    let out := migratedLine report :: report.faults.map faultLine
    match written with
    | some .written => success (out ++ ["Written back to " ++ store.text])
    | some r => failure out ("Write back did not complete: " ++ r.name)
    | none =>
      if dryRun && report.versionChanged then success (out ++ ["Dry run, nothing written"])
      else success (out ++ ["Already up to date"])

/-- Migrates a stored state. -/
def migrate (store : Path) (markers config : Option Path) (dryRun : Bool) (now : Nat)
    (t : FileTree) : Result × FileTree :=
  match (config.map (Config.ofFile t)).getD (.ok {}) with
  | .error e =>
    let path := config.getD ⟨[]⟩
    (failure [] (because ("Failed to load config " ++ inQuotes path) e), t)
  | .ok c =>
    let io := ports store (markers.getD (markersBeside store)) dryRun
    let s := Session.start io .shipped { c with writeBack := !dryRun } [] t []
    match s.bootstrap io now with
    | (.error e, s) => (failure [] e.message, s.gateway.world)
    | (.ok outcome, s) => (describe store dryRun outcome, s.gateway.world)

/-- The files that a migration may read or write. -/
def migrationFiles (store markers : Path) (c : Config) : List Path :=
  let files := store :: [c.existenceKey, c.recoveryKey].map markers.child
  files ++ files.map Path.temporary

def versions : Result :=
  success (("Latest schema version: " ++ StoreError.versionText Chain.shipped.current) ::
    Chain.shipped.migrations.map fun m =>
      "- " ++ StoreError.versionText m.target ++ ": " ++ m.description)

def usage : List String :=
  ["Usage: versioned-store <COMMAND>",
   "",
   "Commands:",
   "  inspect --store <STORE>",
   "  migrate --store <STORE> [--markers <MARKERS>] [--config <CONFIG>] [--dry-run]",
   "  versions"]

/-- The files that the command of the arguments may read or write, as far as the tree tells. -/
def files (args : List String) (t : FileTree) : List Path :=
  match readArguments args with
  | .command (.inspect store) => [store]
  | .command (.migrate store markers config _) =>
    let c := match config.map (Config.ofFile t) with
      | some (.ok c) => c
      | _ => {}
    config.toList ++ migrationFiles store (markers.getD (markersBeside store)) c
  | _ => []

/-- Runs the command that the arguments ask for.  `now` is the clock, in milliseconds. -/
def run (args : List String) (now : Nat) (t : FileTree) : Result × FileTree :=
  match readArguments args with
  | .mistake => ({ code := 2, err := lines usage }, t)
  | .help => (success usage, t)
  | .command (.inspect store) => (inspect store t, t)
  | .command (.migrate store markers config dryRun) => migrate store markers config dryRun now t
  | .command .versions => (versions, t)

end VersionedStore.Tool

import MessageKeys.Project.Catalogue
import MessageKeys.Project.Collect
import MessageKeys.Project.Report
import MessageKeys.Project.Scan
import MessageKeys.Terminal.Summary
import MessageKeys.Terminal.Usage

namespace MessageKeys.Terminal

/-- What a run has changed and said so far. -/
structure Effects where
  files : FileSystem
  stdout : Styled := []
  stderr : Styled := []
  events : List Log.Event := []

/-- What was done before a failure stays done. -/
abbrev Run := ExceptT Problem (StateM Effects)

namespace Run

def files : Run FileSystem := return (← get).files

def print (s : Styled) : Run Unit := modify fun w => { w with stdout := w.stdout ++ s }

def printError (s : Styled) : Run Unit := modify fun w => { w with stderr := w.stderr ++ s }

def log (events : List Log.Event) : Run Unit :=
  modify fun w => { w with events := w.events ++ events }

def liftResult {α : Type} : Except Problem α → Run α
  | .ok a => return a
  | .error p => throw p

/-- An operation that changes the file system, also if it fails half way. -/
def change {α : Type} (op : FileSystem → FileSystem × Except Problem α) : Run α := do
  let (fs, result) := op (← files)
  modify fun w => { w with files := fs }
  liftResult result

end Run

open Run

/-- A path of the settings, seen from the directory in which they were looked for. -/
def resolveFromRoot (root path : String) : String :=
  if Path.isAbsolute path then path
  else if (Path.components root).all (· == ".") then path
  else Path.join root ((Path.afterDot? path).getD path)

namespace ExtractArguments

def root (a : ExtractArguments) : String := a.sourceRoot.getD "."

def scanRoot (a : ExtractArguments) (s : Settings) : String := resolveFromRoot a.root s.sourceRoot

def reportDir (a : ExtractArguments) (s : Settings) : String :=
  a.outputDir.getD (resolveFromRoot a.root s.outputDir)

/-- The file of the keys that are known, if there is one. -/
def existingPath? (a : ExtractArguments) (s : Settings) : Option String :=
  a.existingKeys <|> s.existingKeys.map (resolveFromRoot a.root)

end ExtractArguments

def loadSettings (root : String) : Run Settings.Loaded := do
  let loaded ← liftResult (Settings.load (← files) root)
  if let some path := loaded.file then log [⟨.debug, "loaded config", [("path", path)]⟩]
  return loaded

def noteDefaults (verbose : Bool) (loaded : Settings.Loaded) : Run Unit :=
  if verbose && loaded.file.isNone then
    printError [.plain s!"Note: No {Settings.fileName} found, using default configuration\n"]
  else return

def loadExisting (path : Option String) : Run (Option StringSet) := do
  liftResult (path.mapM (Catalogue.load (← files)))

def scan (root : String) (s : Settings) (verbose : Bool) : Run Scan.Result := do
  let found := Scan.run (← files) root s.includes s.ignores s.ignoreTestFiles
  log found.events
  if 0 < found.skipped then
    let hint := if verbose then "" else " (use -v for details)"
    printError [.plain s!"Warning: {found.skipped} path(s) skipped due to access errors{hint}\n"]
  return found

def collect (paths : List String) : Run Aggregate := do
  let fs ← files
  log (Collect.events fs paths)
  return Collect.extractFiles fs paths

def writeReport (dir : String) (r : Report) : Run (List String) := do
  let written ← change fun fs =>
    let (fs, result) := r.write fs dir
    (fs, inContext s!"Failed to write report to {dir}" result)
  log [⟨.debug, "wrote report files", [("dir", dir)]⟩]
  return written

/-- A report, unless nothing is to be written. -/
def leaveReport (dryRun : Bool) (dir : String) (r : Report) : Run (List String) :=
  if dryRun then return [] else writeReport dir r

def extractCommand (a : ExtractArguments) : Run CommandResult := do
  let loaded ← loadSettings a.root
  noteDefaults a.verbose loaded
  let s := loaded.settings
  let existing ← loadExisting (a.existingPath? s)
  let found ← scan (a.scanRoot s) s a.verbose
  let aggregate ← collect found.files.toList
  let newKeys := aggregate.newKeys (existing.getD ∅)
  let written ←
    leaveReport a.dryRun (a.reportDir s) ⟨newKeys, aggregate.warnings, aggregate.errors⟩
  let summary : ExtractSummary := {
    keyCount := aggregate.keys.size
    newKeyCount := newKeys.length
    existingKeyCount := existing.map StringSet.size
    outputDir := a.reportDir s
    written := written
    dryRun := a.dryRun }
  return .finish (.extract summary) aggregate.issues aggregate.filesChecked

def initCommand : Run CommandResult := do
  let fs ← files
  if fs.pathExists Settings.fileName then
    return .finish (.init ⟨false, some s!"{Settings.fileName} already exists"⟩) [] 0
  else
    change fun fs =>
      match fs.writeText Settings.fileName (Settings.defaultText ++ "\n") with
      | .ok fs => (fs, .ok ())
      | .error e => (fs, .error ⟨[s!"Failed to write {Settings.fileName}"], some e.message⟩)
    return .finish (.init ⟨true, none⟩) [] 0

def Command.run : Command → Run CommandResult
  | .extract a => extractCommand a
  | .init => initCommand

/-- Carries out a command and prints its result; without a command, prints the help text. -/
def runCommand : Option Command → Run ExitStatus
  | none => do
    print [.plain Scope.program.helpText]
    return .success
  | some command => do
    let result ← command.run
    let output := result.output command.isVerbose
    print output.stdout
    printError output.stderr
    return result.exitStatus

/-- The result of a run on a file system, and what it left behind. -/
def runOn (fs : FileSystem) (command : Option Command) : Except Problem ExitStatus × Effects :=
  ExceptT.run (runCommand command) { files := fs }

/-- What a program does with the words after its name: the files as it leaves them, what it prints,
and its exit code. -/
def runProgram (fs : FileSystem) (words : List String) : ExitStatus × Effects :=
  match parseArguments words with
  | .ok command =>
    match runOn fs command with
    | (.ok status, w) => (status, w)
    | (.error p, w) =>
      let line := "Error: " ++ ": ".intercalate p.messages ++ "\n"
      (.error, { w with stderr := w.stderr ++ [.plain line] })
  | .error e =>
    match e.refusal with
    | .help => (.success, { files := fs, stdout := [.plain e.scope.helpText] })
    | .version => (.success, { files := fs, stdout := [.plain versionText] })
    | refusal =>
      let text := (refusal.complaint?.map e.complaintText).getD ""
      (.error, { files := fs, stderr := [.plain text] })

end MessageKeys.Terminal

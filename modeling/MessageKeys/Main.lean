import MessageKeys.Terminal.Run

namespace MessageKeys.Main

/-- The lines of a stream, without their ends. -/
partial def readLines (input : IO.FS.Stream) : IO (List String) := do
  let line ← input.getLine
  if line.isEmpty then return []
  else
    let path := String.ofList (line.toList.filter fun c => c != '\n' && c != '\r')
    return path :: (← readLines input)

def readFile? (path : String) : IO (Option (String × ByteArray)) :=
  try return some (path, ← IO.FS.readBinFile path)
  catch _ => return none

/-- Where settings can stand for a working directory, and the catalogue of the arguments. -/
def knownPaths (directory : String) (command : Option Terminal.Command) : List String :=
  let settings :=
    (FileSystem.ancestors (directory.length + 1) directory).map (Path.join · Settings.fileName)
  match command with
  | some (.extract a) => settings ++ a.existingKeys.toList
  | _ => settings

def writeEntry : Location × Entry → IO Unit
  | (loc, .directory) => IO.FS.createDirAll (FileSystem.absolutePath loc)
  | (loc, .file content) => IO.FS.writeBinFile (FileSystem.absolutePath loc) content
  | (_, .link _) => return ()

def printEvents (verbose : Bool) (events : List Log.Event) : IO Unit :=
  events.forM fun e => if verbose || e.level == .warn then IO.eprintln e.render else return ()

end MessageKeys.Main

open MessageKeys in
/-- The files to look at are named on standard input, one path a line. The command works on a file
system of these files, and what it changed is written back. -/
def main (words : List String) : IO UInt32 := do
  let command := (Terminal.parseArguments words).toOption.join
  let directory := (← IO.getEnv "PWD").getD "/"
  let input ← IO.getStdin
  let listed ← if ← input.isTty then pure [] else Main.readLines input
  let files ← (Main.knownPaths directory command ++ listed).filterMapM Main.readFile?
  let before := FileSystem.ofFiles directory files
  let (status, after) := Terminal.runProgram before words
  (after.files.changesSince before).forM Main.writeEntry
  let colored := Terminal.wantsColor (← IO.getEnv "CLICOLOR_FORCE") (← IO.getEnv "NO_COLOR")
    (← IO.getEnv "CLICOLOR") (← (← IO.getStdout).isTty)
  Main.printEvents ((command.map Terminal.Command.isVerbose).getD false) after.events
  IO.print (after.stdout.render colored)
  IO.eprint (after.stderr.render colored)
  return status.code

namespace MessageKeys.Terminal

structure ExtractArguments where
  sourceRoot : Option String := none
  outputDir : Option String := none
  existingKeys : Option String := none
  dryRun : Bool := false
  verbose : Bool := false
deriving Repr, DecidableEq

inductive Command where
  | extract (arguments : ExtractArguments)
  | init
deriving Repr, DecidableEq

namespace Command

def isVerbose : Command → Bool
  | extract arguments => arguments.verbose
  | init => false

end Command

/-- The part of the command line that a word belongs to. -/
inductive Scope where
  | program
  | extract
  | init
  | help
deriving Repr, DecidableEq

inductive ValueOption where
  | sourceRoot
  | outputDir
  | existingKeys
deriving Repr, DecidableEq

namespace ValueOption

def name : ValueOption → String
  | sourceRoot => "source-root"
  | outputDir => "output-dir"
  | existingKeys => "existing-keys"

def placeholder : ValueOption → String
  | sourceRoot => "SOURCE_ROOT"
  | outputDir => "OUTPUT_DIR"
  | existingKeys => "EXISTING_KEYS"

def all : List ValueOption := [sourceRoot, outputDir, existingKeys]

def usage (o : ValueOption) : String := s!"--{o.name} <{o.placeholder}>"

def get? (a : ExtractArguments) : ValueOption → Option String
  | sourceRoot => a.sourceRoot
  | outputDir => a.outputDir
  | existingKeys => a.existingKeys

def set (a : ExtractArguments) (value : String) : ValueOption → ExtractArguments
  | sourceRoot => { a with sourceRoot := some value }
  | outputDir => { a with outputDir := some value }
  | existingKeys => { a with existingKeys := some value }

end ValueOption

inductive FlagOption where
  | verbose
  | dryRun
deriving Repr, DecidableEq

namespace FlagOption

def name : FlagOption → String
  | verbose => "verbose"
  | dryRun => "dry-run"

def all : List FlagOption := [verbose, dryRun]

def usage (f : FlagOption) : String := s!"--{f.name}"

def isSet (a : ExtractArguments) : FlagOption → Bool
  | verbose => a.verbose
  | dryRun => a.dryRun

def set (a : ExtractArguments) : FlagOption → ExtractArguments
  | verbose => { a with verbose := true }
  | dryRun => { a with dryRun := true }

end FlagOption

/-- Why a command line is not carried out. -/
inductive Refusal where
  | unknownArgument (word : String)
  | unknownCommand (word : String)
  | missingValue (option : ValueOption)
  | repeated (option : String)
  | unneededValue (option value : String)
  | help
  | version
deriving Repr, DecidableEq

structure UsageError where
  scope : Scope
  refusal : Refusal
deriving Repr, DecidableEq

/-- What a word is, by its shape. -/
inductive Word where
  /-- Two hyphens: all that follows are plain words. -/
  | escape
  | long (name : String) (value : Option String)
  | short (letters : List Char)
  | plain (text : String)
deriving Repr, DecidableEq

namespace Word

def splitValue (cs : List Char) : String × Option String :=
  match cs.dropWhile (· != '=') with
  | [] => (String.ofList cs, none)
  | _ :: value => (String.ofList (cs.takeWhile (· != '=')), some (String.ofList value))

def ofString (s : String) : Word :=
  match s.toList with
  | ['-', '-'] => escape
  | '-' :: '-' :: cs => let (name, value) := splitValue cs; long name value
  | '-' :: c :: cs => short (c :: cs)
  | _ => plain s

end Word

namespace ExtractArguments

structure Pending where
  option : ValueOption
  value : Option String
deriving Repr, DecidableEq

def assign (a : ExtractArguments) (o : ValueOption) (value : String) :
    Except Refusal ExtractArguments :=
  if (o.get? a).isSome then .error (.repeated o.usage)
  else if value.isEmpty then .error (.missingValue o)
  else .ok (o.set a value)

def settle (a : ExtractArguments) : Option Pending → Except Refusal ExtractArguments
  | none => .ok a
  | some ⟨o, none⟩ => .error (.missingValue o)
  | some ⟨o, some value⟩ => a.assign o value

def raise (a : ExtractArguments) (f : FlagOption) : Except Refusal ExtractArguments :=
  if f.isSet a then .error (.repeated f.usage) else .ok (f.set a)

def readLetters (a : ExtractArguments) (pending : Option Pending) :
    List Char → Except Refusal (ExtractArguments × Option Pending)
  | [] => .ok (a, pending)
  | c :: cs =>
    if c = 'v' then do readLetters (← (← a.settle pending).raise .verbose) none cs
    else if c = 'h' then do
      let _ ← a.settle pending
      .error .help
    else .error (.unknownArgument (String.ofList ['-', c]))

def readLong (a : ExtractArguments) (pending : Option Pending) (name : String) (value : Option String) :
    Except Refusal (ExtractArguments × Option Pending) := do
  if let some o := ValueOption.all.find? (·.name == name) then
    let a ← a.settle pending
    match value with
    | some value => return (← a.assign o value, none)
    | none => return (a, some ⟨o, none⟩)
  else if let some f := FlagOption.all.find? (·.name == name) then
    match value with
    | some value => .error (.unneededValue f.usage value)
    | none => return (← (← a.settle pending).raise f, none)
  else if name == "help" then
    match value with
    | some value => .error (.unneededValue "--help" value)
    | none =>
      let _ ← a.settle pending
      .error .help
  else .error (.unknownArgument ("--" ++ name))

def readWords (a : ExtractArguments) (pending : Option Pending) :
    List String → Except Refusal ExtractArguments
  | [] => a.settle pending
  | w :: ws =>
    match Word.ofString w with
    | .escape =>
      match ws with
      | [] => a.settle pending
      | w :: _ => .error (.unknownArgument w)
    | .long name value => do
      let (a, pending) ← a.readLong pending name value
      a.readWords pending ws
    | .short letters => do
      let (a, pending) ← a.readLetters pending letters
      a.readWords pending ws
    | .plain text =>
      match pending with
      | some ⟨o, none⟩ => a.readWords (some ⟨o, some text⟩) ws
      | _ => .error (.unknownArgument text)

def parse (ws : List String) : Except Refusal ExtractArguments :=
  readWords {} none ws

end ExtractArguments

/-- The words after `init`: nothing but a wish for help. -/
def readInit : List String → Except Refusal Unit
  | [] => .ok ()
  | w :: ws =>
    match Word.ofString w with
    | .escape =>
      match ws with
      | [] => .ok ()
      | w :: _ => .error (.unknownArgument w)
    | .long "help" none => .error .help
    | .long "help" (some value) => .error (.unneededValue "--help" value)
    | .long name _ => .error (.unknownArgument ("--" ++ name))
    | .short ('h' :: _) => .error .help
    | .short letters => .error (.unknownArgument (String.ofList ('-' :: letters.take 1)))
    | .plain text => .error (.unknownArgument text)

def scopeOf? : String → Option Scope
  | "extract" => some .extract
  | "init" => some .init
  | "help" => some .help
  | _ => none

/-- The words after `help`: a command, of which none has commands of its own. -/
def readHelp : List String → UsageError
  | [] => ⟨.program, .help⟩
  | w :: ws =>
    match scopeOf? w, ws with
    | none, _ => ⟨.program, .unknownCommand w⟩
    | some scope, [] => ⟨scope, .help⟩
    | some scope, w :: _ => ⟨scope, .unknownCommand w⟩

def inScope {α : Type} (scope : Scope) : Except Refusal α → Except UsageError α
  | .ok a => .ok a
  | .error refusal => .error ⟨scope, refusal⟩

def readLetter : Char → Refusal
  | 'h' => .help
  | 'V' => .version
  | c => .unknownArgument (String.ofList ['-', c])

/-- Reads the words after the program's name. Without a command there is nothing to do. The value of
an option is checked when the next option comes or the line ends, so a word that is not known is
reported before it. -/
def parseArguments : List String → Except UsageError (Option Command)
  | [] => .ok none
  | w :: ws =>
    let refuse (refusal : Refusal) : Except UsageError (Option Command) :=
      .error ⟨.program, refusal⟩
    match Word.ofString w with
    | .escape =>
      match ws with
      | [] => .ok none
      | w :: _ =>
        if (scopeOf? w).isSome then refuse (.unknownArgument w) else refuse (.unknownCommand w)
    | .long "help" none => refuse .help
    | .long "version" none => refuse .version
    | .long name value =>
      match value with
      | some value =>
        if name == "help" || name == "version" then refuse (.unneededValue ("--" ++ name) value)
        else refuse (.unknownArgument ("--" ++ name))
      | none => refuse (.unknownArgument ("--" ++ name))
    | .short letters => refuse ((letters.head?.map readLetter).getD .help)
    | .plain text =>
      match scopeOf? text with
      | some .extract =>
        (inScope .extract (ExtractArguments.parse ws)).map fun a => some (.extract a)
      | some .init => (inScope .init (readInit ws)).map fun _ => some .init
      | some _ => .error (readHelp ws)
      | none => refuse (.unknownCommand text)

end MessageKeys.Terminal

namespace MessageKeys.Path

/-- The texts between slashes. -/
def splitSlashes : List Char → List (List Char)
  | [] => [[]]
  | c :: cs =>
    match c, splitSlashes cs with
    | '/', segments => [] :: segments
    | c, s :: ss => (c :: s) :: ss
    | c, [] => [[c]]

def segments (cs : List Char) : List String :=
  (splitSlashes cs).map String.ofList

def joinSegments (ss : List String) : String :=
  "/".intercalate ss

/-- Segments that name nothing: doubled slashes and dots. -/
def isVoid (s : String) : Bool := s == "" || s == "."

def isAbsolute (path : String) : Bool := path.toList.head? == some '/'

/-- The components of a path; a slash stands for the root, and a dot counts only at the start of a
relative path. -/
def components (path : String) : List String :=
  match path.toList with
  | '/' :: cs => "/" :: (segments cs).filter (!isVoid ·)
  | cs =>
    match segments cs with
    | "." :: ss => "." :: ss.filter (!isVoid ·)
    | ss => ss.filter (!isVoid ·)

/-- A path seen from a base directory. An absolute path stays as it is. -/
def join (base path : String) : String :=
  if isAbsolute path || base.isEmpty then path
  else if base.toList.getLast? == some '/' then base ++ path
  else base ++ "/" ++ path

/-- Is `base` a path whose components begin those of `path`? -/
def startsWith (path base : String) : Bool :=
  (components base).isPrefixOf (components path)

def dropVoidEnd (ss : List String) : List String :=
  (ss.reverse.dropWhile isVoid).reverse

/-- A path without its last component, spelled as before. -/
def parent? (path : String) : Option String :=
  match path.toList with
  | '/' :: cs =>
    match dropVoidEnd (segments cs) with
    | [] => none
    | ss => some ("/" ++ joinSegments (dropVoidEnd ss.dropLast))
  | cs =>
    match segments cs with
    | [] => none
    | first :: rest =>
      match dropVoidEnd rest with
      | [] => if first.isEmpty then none else some ""
      | ss => some (joinSegments (first :: dropVoidEnd ss.dropLast))

def afterDot? (path : String) : Option String :=
  match segments path.toList with
  | "." :: ss => some (joinSegments (dropVoidEnd (ss.dropWhile isVoid)))
  | _ => none

/-- The name of the file or directory, if the last component is one. -/
def fileName? (path : String) : Option String :=
  match (components path).getLast? with
  | some name => if name == "/" || name == "." || name == ".." then none else some name
  | none => none

/-- What follows the last dot of a name that does not only begin with one. -/
def extensionOf? (name : List Char) : Option String :=
  let after := name.reverse.takeWhile (· != '.')
  match name.reverse.dropWhile (· != '.') with
  | [] | [_] => none
  | _ => some (String.ofList after.reverse)

def extension? (path : String) : Option String :=
  (fileName? path).bind fun name => extensionOf? name.toList

end MessageKeys.Path

import MessageKeys.Syntax.Grammar.Expression

namespace MessageKeys.Syntax.Parser

variable (g : Grammar)

/-- Whether a parameter list or generics follow, so that a member is a method. -/
def atMethod : Parser Bool := atAny [.parenOpen, .less]

/-- Whether a member ends here or goes on with a type or a value, so that it is a field. -/
def atField (insertion : Bool) : Parser Bool := do
  if ← atAny [.bang, .colon, .assign, .braceClose] then return true
  else if insertion then atStatementEnd
  else atPunct .semicolon

def isConstructorKey : Node → Bool
  | .identifier _ "constructor" => true
  | .string _ units => units == Text.CodeUnits.ofString "constructor"
  | _ => false

def fieldContext (c : Context) : Context :=
  { freshContext c with hasNewTarget := true, inParameters := false }

/-- What stands before a member. -/
structure Modifiers where
  /-- Where the member starts. -/
  start : Nat
  marks : List Node
  access : Bool := false
  declared : Bool := false
  isAbstract : Bool := false
  isReadonly : Bool := false
  isOverride : Bool := false
  isStatic : Bool := false

def isPrivateKey : Node → Bool
  | .privateName .. => true
  | _ => false

def fieldTail (m : Modifiers) (key : Node) (optional : Bool) : Parser Node := do
  if isConstructorKey key then failAt key.start .repeatedConstructor
  noteWhen (isPrivateKey key && m.declared) key.start (.modifierNotAllowed "declare")
  noteWhen (isPrivateKey key && m.isAbstract) key.start (.modifierNotAllowed "abstract")
  unless optional do
    let _ ← eat .bang
  let types ← typeAnnotation? g
  let value ← if ← eat .assign then pure [← inside fieldContext (g .assignment)] else pure []
  unless ← eatSemicolon do note (← here) .semicolonExpected
  noteWhen (isPrivateKey key && m.access) m.start .privateNameNotAllowed
  noteWhen (!isPrivateKey key && m.isAbstract && !value.isEmpty) m.start .implementationNotAllowed
  form m.start .keyValue (key :: value ++ types ++ m.marks)

def hasBody (parts : List Node) : Bool :=
  parts.any fun
    | .form _ .statement _ => true
    | _ => false

def checkMethod (m : Modifiers) (key : Node) (parts : List Node) : Parser Unit := do
  noteWhen (isPrivateKey key && m.access) m.start .privateNameNotAllowed
  noteWhen (!isPrivateKey key && m.isAbstract && hasBody parts) m.start .implementationNotAllowed

def methodTail (m : Modifiers) (key : Node) (async generator : Bool) : Parser Node := do
  let (_, parts) ← inside methodContext (functionTail g m.marks async generator false)
  checkMethod m key parts
  form m.start .method (key :: parts)

def hasDefault : Node → Bool
  | .form _ .defaultPattern _ => true
  | .form _ .parameters parts => parts.any fun | .form _ .defaultPattern _ => true | _ => false
  | _ => false

/-- A constructor after its key. One without a body has no defaults. -/
def constructorTail (m : Modifiers) (key : Node) : Parser Node := do
  noteWhen m.isOverride m.start (.modifierNotAllowed "override")
  let generics ← typeParameters? g
  noteWhen (!generics.isEmpty) m.start .typeParametersEmpty
  let plainly (c : Context) : Context := { c with inAsync := false, inGenerator := false }
  let ps ← inside (fun c => freshContext (methodContext (plainly c))) (parametersIn g true)
  if ← atPunct .colon then
    note (← here) .typeExpected
    let _ ← returnType? g
  let body ← inside methodContext (functionBlock? g false false (areSimple ps))
  noteWhen (body.isEmpty && ps.any hasDefault) m.start .initializerRequired
  noteWhen m.isStatic m.start (.modifierNotAllowed "static")
  noteWhen m.isAbstract m.start (.modifierNotAllowed "abstract")
  form m.start .method (key :: ps ++ body ++ m.marks)

def accessorTail (m : Modifiers) (getter : Bool) : Parser Node := do
  let keyStart ← here
  let key ← classMemberName g
  noteWhen m.isReadonly keyStart (.modifierNotAllowed "readonly")
  noteWhen (isConstructorKey key) keyStart .repeatedConstructor
  let (ps, parts) ← inside methodContext (functionTail g m.marks false false false)
  checkAccessor getter keyStart ps
  checkMethod m key parts
  form m.start .method (key :: parts)

def staticBlock (start : Nat) : Parser Node := do
  let body ← inside (fun c =>
      { bodyContext false false false (freshContext c) with inStaticBlock := true, inFunction := false })
    (g .block)
  form start .statement [body]

/-- Complaints about modifiers that are repeated, in the wrong order or out of place. -/
def modifierFaults (start : Nat) (hasSuperClass declared : Bool) : List String → List Fault
  | [] => []
  | m :: earlier =>
    let faults := modifierFaults start hasSuperClass declared earlier
    if earlier.contains m && m != "static" then faults ++ [⟨start, .modifierNotAllowed m⟩]
    else if m == "abstract" && (earlier.contains "override" || earlier.contains "readonly") then
      faults ++ [⟨start, .modifierOrder m⟩]
    else if m == "override" && (earlier.contains "readonly" || declared || !hasSuperClass) then
      faults ++ [⟨start, .modifierOrder m⟩]
    else if m == "static" && earlier.contains "override" then faults ++ [⟨start, .modifierOrder m⟩]
    else faults

def modifiedMember (outer : Modifiers) : Parser Node := do
  let start := outer.start
  let found ← modifiers ["abstract", "readonly", "override", "static"] true
  noteAll (modifierFaults start (← context).hasSuperClass outer.declared found)
  let m : Modifiers := { outer with
    isAbstract := found.contains "abstract"
    isReadonly := found.contains "readonly"
    isOverride := found.contains "override"
    isStatic := outer.isStatic || found.contains "static" }
  let next ← peek
  let accessor := (← atWord "accessor") && !next.lineBefore &&
    (isNameToken next || next.isPunct .hash || next.isPunct .bracketOpen ||
      next.kind matches .string _ || next.kind matches .number)
  if accessor then bump
  if m.isStatic && (← atPunct .braceOpen) then staticBlock g start
  else if (← atWord "static") && next.isPunct .braceOpen then
    noteWhen (!found.isEmpty || outer.isStatic) start (.modifierNotAllowed "static")
    bump
    staticBlock g start
  else if (← atPunct .bracketOpen) && !m.isAbstract && !m.isOverride && !m.access &&
      (← opensIndexSignature) then
    indexSignature g
  else if ← eat .star then
    let key ← classMemberName g
    noteWhen m.isReadonly start (.modifierNotAllowed "readonly")
    noteWhen (isConstructorKey key) start .repeatedConstructor
    methodTail g m key false true
  else
    let keyToken ← token
    let key ← classMemberName g
    let optional ← eat .question
    let plainWord (names : List String) : Bool := names.any keyToken.isWord
    if ← atMethod then
      noteWhen m.declared start (.modifierNotAllowed "declare")
      if m.isReadonly then failAt start (.modifierNotAllowed "readonly")
      if isConstructorKey key then constructorTail g m key
      else methodTail g m key false false
    else
      let nextLineStar := (← lineBefore) && (← atPunct .star)
      let isAccessor := plainWord ["get", "set"] && !(← atField false) && !nextLineStar
      if !isAccessor && (← atField true) then fieldTail g m key optional
      else if plainWord ["async"] && !(← lineBefore) then
        let generator ← eat .star
        let key ← classMemberName g
        if isConstructorKey key then failAt key.start .repeatedConstructor
        if m.isReadonly then failAt start (.modifierNotAllowed "readonly")
        let _ ← eat .question
        methodTail g m key true generator
      else if isAccessor then accessorTail g m (keyToken.isWord "get")
      else failUnexpected "* for generator, private key, identifier or async"

/-- A member that is named by a word which could have been a modifier. -/
def namedByModifier? (m : Modifiers) (word : Node) (insertion : Bool) : Parser (Option Node) := do
  if ← atMethod then return some (← methodTail g m word false false)
  else if (← atField insertion) || (← atPunct .question) then
    if ← atPunct .braceOpen then return none
    else
      let optional ← eat .question
      if ← atMethod then return some (← methodTail g m word false false)
      else return some (← fieldTail g m word optional)
  else return none

def classMember : Parser Node := do
  let start ← here
  let marks ← decorators g
  let declareToken ← token
  let declared ← eatWord "declare"
  let access ← modifier? ["public", "protected", "private"] false
  let declaredLater ← if declared then pure false else
    if (← atWord "declare") && access.isSome then eatWord "declare" else pure false
  let m : Modifiers := { start := start, marks := marks, access := access.isSome }
  let asDeclare ← if declared && access.isNone then
      namedByModifier? g m (.identifier (some declareToken.span) "declare") true
    else pure none
  match asDeclare with
  | some n => return n
  | none =>
    let staticToken ← token
    let static ← eatWord "static"
    let asStatic ← if static then
        namedByModifier? g m (.identifier (some staticToken.span) "static") false
      else pure none
    match asStatic with
    | some n => return n
    | none => modifiedMember g { m with declared := declared || declaredLater, isStatic := static }

def isImplementedConstructor : Node → Bool
  | .form _ .method (key :: parts) => isConstructorKey key && hasBody parts
  | _ => false

/-- The members between braces. A class has at most one constructor with a body. -/
def classMembers : Parser (List Node) := do
  expect .braceOpen
  let members ← many (atPunct .braceClose) do
    if ← atPunct .semicolon then
      bump
      return []
    else return [← classMember g]
  let members := members.flatten
  match (members.filter isImplementedConstructor).drop 1 with
  | second :: _ => noteWhen (!(← context).ambient) second.start .repeatedConstructor
  | [] => pure ()
  expect .braceClose
  return members

/-- Names with type arguments, after `implements` or in an interface's `extends`. -/
def heritage : Parser (List Node) := do
  let first ← typeReference g
  let rest ← many (return !(← atPunct .comma)) do
    bump
    typeReference g
  return first :: rest

def superClass : Parser (List Node) := do
  let n ← inside freshContext (leftHandSide g)
  if ← atPunct .less then return [n, ← typeArguments g] else return [n]

/-- A class from the word `class` on. Its members are visited before what it extends. -/
def classFrom (start : Nat) (marks : List Node) (named : Bool) : Parser Node := do
  expectWord "class"
  let name ←
    if named then pure [← bindingIdentifier]
    else if (← atIdentifier) && !(← atWord "implements") then pure [← bindingIdentifier]
    else pure []
  let generics ← typeParameters? g
  let parents ← if ← eatWord "extends" then superClass g else pure []
  if ← atPunct .comma then
    note (← here) (.modifierNotAllowed "extends")
    bump
    let _ ← heritage g
  if ← atWord "extends" then
    note (← here) (.modifierNotAllowed "extends")
    bump
    let _ ← superClass g
  let interfaces ← if ← eatWord "implements" then heritage g else pure []
  if ← atWord "implements" then
    note (← here) (.modifierNotAllowed "implements")
    bump
    let _ ← heritage g
  if ← atWord "extends" then
    note (← here) (.modifierOrder "extends")
    bump
    let _ ← superClass g
  let members ←
    inside (fun c => { c with hasSuperClass := !parents.isEmpty, topLevel := false }) (classMembers g)
  form start .classBody (name ++ marks ++ members ++ parents ++ generics ++ interfaces)

end MessageKeys.Syntax.Parser

namespace MessageKeys.Syntax

/-- The causes for which a text is refused. -/
inductive Cause where
  | expressionExpected
  | typeExpected
  | expected (wanted got : String)
  | unexpected (got wanted : String)
  | identifierExpected
  | semicolonExpected
  | stringExpected
  | unexpectedCharacter (c : Char)
  | unterminatedString
  | unterminatedTemplate
  | unterminatedRegexp
  | unterminatedComment
  | unterminatedMarkup
  | legacyComment
  | legacyOctal
  | legacyDecimal
  | malformedEscape
  | malformedIdentifier
  | escapedReservedWord (word : String)
  | misplacedSeparator
  | identifierAfterNumber
  | digitExpected (radix : Nat)
  | unknownRegexpFlag
  | repeatedRegexpFlag
  | reservedWord (word : String)
  | bindingNotAllowed (word : String)
  | initializerRequired
  | patternInitializerRequired
  | declarationNotAllowed
  | returnNotAllowed
  | breakNotAllowed
  | continueNotAllowed
  | unknownLabel (label : String)
  | repeatedLabel (label : String)
  | withNotAllowed
  | lineBreakNotAllowed
  | mixedCoalescing
  | unaryExponent
  | invalidAssignmentTarget
  | notAPattern
  | restNotLast
  | trailingCommaAfterRest
  | shorthandInitializer
  | arrowNotAllowed
  | deleteName
  | superNotAllowed
  | awaitNotAllowed
  | yieldNotAllowed
  | optionalChainNotAllowed
  | multipleBindings
  | loopInitializerNotAllowed
  | repeatedDefault
  | repeatedConstructor
  | privateConstructor
  | accessorParameters
  | modifierNotAllowed (modifier : String)
  | modifierOrder (modifier : String)
  | optionalNotAllowed
  | moduleItemNotTopLevel
  | implementationNotAllowed
  | bodyExpected
  | parameterPropertyNotAllowed
  | privateNameNotAllowed
  | spaceAfterHash
  | closingTagExpected (tag : String)
  | adjacentElements
  | strayMarkupCharacter (c : Char)
  | attributeValueExpected
  | typeParametersEmpty
  | typeArgumentsEmpty
  | useStrictNotAllowed
  | nestingTooDeep
deriving Repr, DecidableEq

namespace Cause

def message : Cause → String
  | expressionExpected => "Expression expected"
  | typeExpected => "Type expected"
  | expected wanted got => s!"Expected '{wanted}', got '{got}'"
  | unexpected got wanted => s!"Unexpected token `{got}`. Expected {wanted}"
  | identifierExpected => "Expected ident"
  | semicolonExpected => "Expected ';', '\x7d' or <eof>"
  | stringExpected => "Expected a string literal"
  | unexpectedCharacter c => s!"Unexpected character '{c}'"
  | unterminatedString => "Unterminated string constant"
  | unterminatedTemplate => "Unterminated template"
  | unterminatedRegexp => "Unterminated regexp literal"
  | unterminatedComment => "Unterminated block comment"
  | unterminatedMarkup => "Unterminated JSX contents"
  | legacyComment => "Legacy comments cannot be used in module code"
  | legacyOctal => "Legacy octal literals are not available when targeting ECMAScript 5 and higher"
  | legacyDecimal => "Legacy decimal escape is not permitted in strict mode"
  | malformedEscape => "Bad character escape sequence"
  | malformedIdentifier => "Invalid character in identifier"
  | escapedReservedWord word => s!"Unexpected escape sequence in reserved word: {word}"
  | misplacedSeparator => "A numeric separator is only allowed between two digits"
  | identifierAfterNumber => "Identifier cannot follow number"
  | digitExpected radix => s!"Expected a digit of radix {radix}"
  | unknownRegexpFlag => "Unknown regular expression flags."
  | repeatedRegexpFlag => "Duplicated regular expression flag."
  | reservedWord word => s!"Unexpected reserved word `{word}`"
  | bindingNotAllowed word => s!"`{word}` cannot be used as an identifier in strict mode"
  | initializerRequired => "'const' declarations must be initialized"
  | patternInitializerRequired => "Destructuring bindings require initializers"
  | declarationNotAllowed => "Declaration is not allowed"
  | returnNotAllowed => "Return statement is not allowed here"
  | breakNotAllowed =>
    "A 'break' statement can only be used within an enclosing iteration or switch statement"
  | continueNotAllowed =>
    "A 'continue' statement can only be used within an enclosing iteration statement"
  | unknownLabel label => s!"Undefined label {label}"
  | repeatedLabel label => s!"Label {label} is already declared"
  | withNotAllowed => "With statement are not allowed in strict mode"
  | lineBreakNotAllowed => "A line break is not allowed here"
  | mixedCoalescing =>
    "Nullish coalescing operator(??) requires parens when mixing with logical operators"
  | unaryExponent => "** cannot be applied to unary expression"
  | invalidAssignmentTarget =>
    "The left-hand side of an assignment expression must be a variable or a property access."
  | notAPattern => "Not a pattern"
  | restNotLast => "Rest element must be final element"
  | trailingCommaAfterRest => "A rest element must not be followed by a comma"
  | shorthandInitializer => "assignment property is invalid syntax"
  | arrowNotAllowed => "An arrow function is not allowed here"
  | deleteName => "'delete' cannot be called on an identifier in strict mode"
  | superNotAllowed => "Invalid access to super"
  | awaitNotAllowed => "await isn't allowed in non-async function"
  | yieldNotAllowed => "yield isn't allowed here"
  | optionalChainNotAllowed => "Constructor in/after an optional chaining is not allowed."
  | multipleBindings => "Only a single variable declaration is allowed in this statement"
  | loopInitializerNotAllowed => "A loop variable cannot have an initializer"
  | repeatedDefault => "A switch statement cannot have more than one default clause"
  | privateConstructor => "Classes can't have a private field named '#constructor'"
  | repeatedConstructor => "A class may only have one constructor"
  | accessorParameters => "An accessor has the wrong number of parameters"
  | modifierNotAllowed modifier => s!"'{modifier}' modifier cannot be used here"
  | modifierOrder modifier => s!"'{modifier}' modifier must precede another modifier"
  | optionalNotAllowed => "An optional mark is not allowed here"
  | moduleItemNotTopLevel => "'import', and 'export' cannot be used outside of module code"
  | implementationNotAllowed => "An implementation cannot be declared in ambient contexts"
  | bodyExpected => "Function implementation is missing"
  | parameterPropertyNotAllowed =>
    "A parameter property is only allowed in a constructor implementation"
  | privateNameNotAllowed => "Private identifiers are not allowed here"
  | spaceAfterHash => "Unexpected space between # and identifier"
  | closingTagExpected tag => s!"Expected corresponding JSX closing tag for <{tag}>"
  | adjacentElements => "Adjacent JSX elements must be wrapped in an enclosing tag"
  | strayMarkupCharacter c => s!"Unexpected token '{c}' in JSX text"
  | attributeValueExpected => "JSX attributes must only be assigned a non-empty expression"
  | typeParametersEmpty => "Type parameter list cannot be empty"
  | typeArgumentsEmpty => "Type argument list cannot be empty"
  | useStrictNotAllowed =>
    "'use strict' directive cannot be used in function with non-simple parameter list"
  | nestingTooDeep => "Nesting is too deep"

end Cause

/-- A cause and the byte offset of the text it complains of. -/
structure Fault where
  offset : Nat
  cause : Cause
deriving Repr, DecidableEq

end MessageKeys.Syntax

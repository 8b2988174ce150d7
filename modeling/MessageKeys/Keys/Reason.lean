namespace MessageKeys

inductive Reason where
  | templateWithoutExpressions
  | templateWithExpressions
  | unsupportedArgument
  | complexTransChildren
  | missingKeyOrComplexChildren
deriving Repr, DecidableEq

namespace Reason

def message : Reason → String
  | templateWithoutExpressions => "TemplateLiteral with no expressions"
  | templateWithExpressions => "TemplateLiteral with expressions"
  | unsupportedArgument => "Unsupported argument type"
  | complexTransChildren => "Complex children in <Trans>"
  | missingKeyOrComplexChildren => "Missing i18nKey or complex children"

end Reason

inductive Rule where
  | templateLiteral
  | unsupportedArgument
  | transChildren
  | missingTransKey
  | parseError
deriving Repr, DecidableEq

namespace Rule

def name : Rule → String
  | templateLiteral => "template-literal"
  | unsupportedArgument => "unsupported-argument"
  | transChildren => "trans-children"
  | missingTransKey => "missing-trans-key"
  | parseError => "parse-error"

end Rule

def Reason.rule : Reason → Rule
  | .templateWithoutExpressions | .templateWithExpressions => .templateLiteral
  | .unsupportedArgument => .unsupportedArgument
  | .complexTransChildren => .transChildren
  | .missingKeyOrComplexChildren => .missingTransKey

/-- An occurrence that is reported: the key or the text it stands for, and where it stands. -/
structure Record where
  key : String
  reason : Reason
  file : String
  line : Option Nat
deriving Repr, DecidableEq

end MessageKeys

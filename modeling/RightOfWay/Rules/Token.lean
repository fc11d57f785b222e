import RightOfWay.Rules.Rule
import RightOfWay.Text.Quoted

/-!
# Tokens of a program

`Token` is what program text is made of, and a `Located` token knows the line it starts on.  A
quoted string is a symbol whose text keeps the quotes.  `Fault` lists what can be wrong with a
program text, `SyntaxError` puts it on a line, and `RuleError` adds rules that can be read but not
evaluated.
-/

set_option autoImplicit false

namespace RightOfWay

/-- A token of a program. -/
inductive Token where
  /-- A name that starts with a small letter, or a quoted string. -/
  | symbol (text : String)
  /-- A name that starts with a capital letter or an underscore. -/
  | var (name : String)
  | int (value : Int64)
  | openParen
  | closeParen
  | comma
  | period
  /-- The sign `:-` between head and body. -/
  | provided
  /-- The word `not`. -/
  | negation
  | comparison (c : Comparison)
  deriving DecidableEq

namespace Token

/-- The token as error messages show it. -/
def describe : Token → String
  | symbol text => "Ident(" ++ Text.quote text ++ ")"
  | var name => "Var(" ++ Text.quote name ++ ")"
  | int value => "Int(" ++ toString value.toInt ++ ")"
  | openParen => "LParen"
  | closeParen => "RParen"
  | comma => "Comma"
  | period => "Dot"
  | provided => "If"
  | negation => "Not"
  | comparison .eq => "Op(Eq)"
  | comparison .ne => "Op(Ne)"
  | comparison .lt => "Op(Lt)"
  | comparison .le => "Op(Le)"
  | comparison .gt => "Op(Gt)"
  | comparison .ge => "Op(Ge)"

end Token

/-- A token and the line that it starts on. -/
structure Located where
  token : Token
  line : Nat
  deriving DecidableEq

/-! ## Errors -/

/-- What a reader of tokens was looking for. -/
inductive Wanted where
  | period
  | term
  | predicate
  deriving DecidableEq

/-- The words for it. -/
def Wanted.describe : Wanted → String
  | period => "'.'"
  | term => "a term"
  | predicate => "a predicate"

/-- What is wrong with a program text. -/
inductive Fault where
  | unterminatedBlockComment
  | emptyDirective
  | unsupportedDirective (name : String)
  | unterminatedDirective
  | expectedProvided
  | expectedUnequal
  | invalidInteger (text : String)
  | unterminatedString
  | unexpectedCharacter (c : Char)
  /-- Another token stands where one was looked for, or none. -/
  | expected (wanted : Wanted) (found : Option Token)
  | functionTerm
  | expectedSeparator
  | expectedComparison
  | expectedEndOfHead
  | trailingInput (text : String)
  | notGround (text variableName : String)
  deriving DecidableEq

/-- The wording of a fault. -/
def Fault.message : Fault → String
  | unterminatedBlockComment => "unterminated block comment"
  | emptyDirective => "empty directive"
  | unsupportedDirective name => "unsupported directive #" ++ name
  | unterminatedDirective => "unterminated directive"
  | expectedProvided => "expected ':-'"
  | expectedUnequal => "expected '!='"
  | invalidInteger text => "invalid integer " ++ Text.quote text
  | unterminatedString => "unterminated string"
  | unexpectedCharacter c => "unexpected character " ++ Text.quoteChar c
  | expected wanted found =>
    "expected " ++ wanted.describe ++ ", found " ++ (found.map Token.describe).getD "end of input"
  | functionTerm => "function terms are not supported"
  | expectedSeparator => "expected ',' or ')' in argument list"
  | expectedComparison => "expected a comparison operator"
  | expectedEndOfHead => "expected '.' or ':-' after head"
  | trailingInput text => "trailing input after atom in " ++ Text.quote text
  | notGround text variableName =>
    "atom " ++ Text.quote text ++ " is not ground (variable " ++ variableName ++ ")"

/-- A fault on a line of a program text. -/
structure SyntaxError where
  line : Nat
  fault : Fault
  deriving DecidableEq

/-- The wording of a fault with its line. -/
def SyntaxError.message (e : SyntaxError) : String :=
  "parse error at line " ++ toString e.line ++ ": " ++ e.fault.message

/-- Why a program text gives no rules. -/
inductive RuleError where
  | unreadable (error : SyntaxError)
  /-- The rule on the line has a variable that no positive literal binds. -/
  | unsafeRule (line : Nat) (variableName : String)
  deriving DecidableEq

/-- The wording of the error. -/
def RuleError.message : RuleError → String
  | unreadable error => error.message
  | unsafeRule line variableName =>
    "unsafe variable " ++ variableName ++ " in rule at line " ++ toString line

end RightOfWay

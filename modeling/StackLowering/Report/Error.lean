import StackLowering.Report.Span

/-!
# Errors

What can go wrong, as causes: an entry that a registry refuses, and a construct that cannot be
lowered. Each cause has one wording.
-/

namespace StackLowering

/-! ### Refused registrations -/

/-- Why a registry refuses an entry or cannot lay out a class. -/
inductive RegistrationError where
  /-- The name or the identity of a type is taken. -/
  | duplicateType (name : String)
  /-- The name or the identity of a function is taken. -/
  | duplicateFunction (name : String)
  /-- No class has this identity. -/
  | typeNotFound (name : String)
  /-- A field of a class has a type without a layout. -/
  | unsizedField (owner field : String)
deriving DecidableEq, Repr

/-- The wording of a refused registration. -/
def RegistrationError.text : RegistrationError → String
  | duplicateType name => s!"duplicate type: {name}"
  | duplicateFunction name => s!"duplicate function: {name}"
  | typeNotFound name => s!"type not found: {name}"
  | unsizedField owner field => s!"field '{field}' of '{owner}' has no size"

/-! ### Failed lowerings -/

/-- Why a construct cannot be lowered. -/
inductive CompileError where
  /-- The callee of a construction names nothing that can be constructed. -/
  | unsupportedConstruction (span : Span)
  /-- A parameter without a default got no argument. -/
  | tooFewArguments (expected got : Nat) (span : Span)
  /-- There are more arguments than parameters. -/
  | tooManyArguments (expected got : Nat) (span : Span)
  /-- No conversion leads from one type to the other. -/
  | conversionFailure (source target : String) (span : Span)
  /-- A type name is not registered. -/
  | unknownType (name : String) (span : Span)
  /-- A function name is not registered. -/
  | unknownFunction (name : String) (span : Span)
  /-- A variable is not declared. -/
  | unknownVariable (name : String) (span : Span)
  /-- Type arguments are given to a type that is no template. -/
  | notATemplate (name : String) (span : Span)
  /-- A template gets the wrong number of type arguments. -/
  | templateArgumentCount (name : String) (expected got : Nat) (span : Span)
  /-- A value of a type without a layout would have to be stored. -/
  | unsizedType (name : String) (span : Span)
  /-- A variable name is declared twice in a function. -/
  | variableRedeclaration (name : String) (span : Span)
  /-- The registry refused an entry. -/
  | registration (error : RegistrationError) (span : Span)
  /-- A limit of the code format is exceeded. -/
  | internal (message : String)
deriving DecidableEq, Repr

namespace CompileError

/-- Where the error lies; an exceeded limit lies nowhere. -/
def span : CompileError → Span
  | unsupportedConstruction span
  | tooFewArguments _ _ span
  | tooManyArguments _ _ span
  | conversionFailure _ _ span
  | unknownType _ span
  | unknownFunction _ span
  | unknownVariable _ span
  | notATemplate _ span
  | templateArgumentCount _ _ _ span
  | unsizedType _ span
  | variableRedeclaration _ span
  | registration _ span => span
  | internal _ => .nowhere

/-- The kind of error in a few words. -/
def headline : CompileError → String
  | unsupportedConstruction _ => "Unsupported operation"
  | tooFewArguments .. => "Too few arguments"
  | tooManyArguments .. => "Too many arguments"
  | conversionFailure .. => "Invalid conversion"
  | unknownType .. => "Unknown type"
  | unknownFunction .. => "Unknown function"
  | unknownVariable .. => "Unknown variable"
  | notATemplate .. => "Not a template"
  | templateArgumentCount .. => "Wrong number of type arguments"
  | unsizedType .. => "Unsized type"
  | variableRedeclaration .. => "Variable redeclaration"
  | registration .. => "Registration failed"
  | internal _ => "Internal compiler error"

/-- How many were wanted and how many were there. -/
def countText (expected got : Nat) : String := s!"Expected {expected} but saw {got}"

/-- What the headline leaves open, if there is more to say. -/
def detail? : CompileError → Option String
  | tooFewArguments expected got _
  | tooManyArguments expected got _
  | templateArgumentCount _ expected got _ => some (countText expected got)
  | conversionFailure source target _ => some s!"'{source}' to '{target}'"
  | registration error _ => some error.text
  | internal message => some message
  | _ => none

/-- The wording of the error without its position. -/
def statement : CompileError → String
  | unsupportedConstruction _ => "Unsupported operation"
  | tooFewArguments expected got _ => s!"Too few arguments: {countText expected got}"
  | tooManyArguments expected got _ => s!"Too many arguments: {countText expected got}"
  | conversionFailure source target _ => s!"cannot convert '{source}' to '{target}'"
  | unknownType name _ => s!"unknown type '{name}'"
  | unknownFunction name _ => s!"unknown function '{name}'"
  | unknownVariable name _ => s!"unknown variable '{name}'"
  | notATemplate name _ => s!"'{name}' is not a template"
  | templateArgumentCount name expected got _ =>
    s!"template '{name}' expects {expected} type argument(s), got {got}"
  | unsizedType name _ => s!"type '{name}' has no size"
  | variableRedeclaration name _ => s!"variable '{name}' is already declared"
  | registration error _ => error.text
  | internal message => s!"internal compiler error: {message}"

/-- The wording of the error: its position, if it has one, and the statement. -/
def text : CompileError → String
  | internal message => (internal message).statement
  | error => s!"at {error.span.text}: {error.statement}"

end CompileError

end StackLowering

import StackLowering.Lowering.Construction

/-!
# Expressions

An expression as an operand, put together from the operands of its parts.

A call looks its function up before its arguments are lowered, and a function with more parameters than
a call can pass is refused at once, so that nothing of the arguments is left in the code. A callee that
is no name, also one in parentheses, is looked up under a name that stands for all of them
(`anonymousCallee`).

A construction finds the constructor of its class by the identity that the class holds, and not by a
name. Its lists are passed on as they were written, an absent one apart from an empty one.
-/

namespace StackLowering

/-- What a callee is called in errors if it is no name. -/
def anonymousCallee : String := "<expression>"

/-- A call of a function, which has to be registered and may not have more parameters than a call can
pass. -/
def Operand.call (options : CompilerOptions) (callee : Option String) (calleeSpan : Span)
    (args : List Operand) (span : Span) : Operand :=
  .ofInference span do
    let name := callee.getD anonymousCallee
    match (← Lower.registry).functionNamed? name with
    | none => throw (.unknownFunction name calleeSpan)
    | some f =>
      match argcByte? f.arity with
      | none => throw (.internal s!"'{f.name}' has too many parameters")
      | some argc =>
        Lower.bindArguments options f.params args span
        Lower.emit (.call f.name argc)
        return .computed f.returns

mutual

/-- An expression as an operand. -/
def Expr.operand (options : CompilerOptions) : Expr → Operand
  | .literal value span => .literal value span
  | .var name span => .var name.name span
  | .call callee args span =>
    .call options callee.ident? callee.span (operandsOfList options args) span
  | .construct node callee typeArgs args span =>
    .construct options node (callee.bind Expr.ident?) typeArgs (operandsOfArgs options args) span
  | .paren inner span => .paren (inner.operand options) span
termination_by structural e => e

/-- A list of expressions as operands. -/
def operandsOfList (options : CompilerOptions) : List Expr → List Operand
  | [] => []
  | e :: es => e.operand options :: operandsOfList options es
termination_by structural es => es

/-- The arguments of a construction as operands. -/
def operandsOfArgs (options : CompilerOptions) : Option (List Expr) → Option (List Operand)
  | none => none
  | some es => some (operandsOfList options es)
termination_by structural es => es

end

theorem operandsOfList_eq_map (options : CompilerOptions) (es : List Expr) :
    operandsOfList options es = es.map (Expr.operand options) := by
  induction es with
  | nil => rfl
  | cons e es ih => simp [operandsOfList, ih]

theorem operandsOfArgs_eq_map (options : CompilerOptions) (es : Option (List Expr)) :
    operandsOfArgs options es = es.map (List.map (Expr.operand options)) := by
  cases es <;> simp [operandsOfArgs, operandsOfList_eq_map]

end StackLowering

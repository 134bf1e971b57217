import StackLowering.Hash.Fingerprint
import StackLowering.Report.Span

/-!
# Scripts

The abstract syntax of scripts: functions whose bodies are expression statements, variable declarations
and returns. An expression is a literal, a variable, a call, a construction or one of these in
parentheses. Every node knows its place in the source. Constructions carry a number, by which what is
learnt about them later is recorded.

A construction distinguishes a list that is absent from one that is empty.

Scripts are trees, as they come from a parser or are built without one. Nothing is asked of names: they
may be empty, be the same twice, or have characters that no source text could have. Nor is it asked
that constructions have different numbers; if they have not, the first finding counts
(`Annotations.type?`). The callee of a call and of a construction is an expression, of which only the
name and the place are used.
-/

namespace StackLowering

/-- A name at its place. -/
structure Ident where
  /-- The name. -/
  name : String
  /-- Its place. -/
  span : Span
deriving DecidableEq, Repr

/-- A written type: a name, perhaps applied to type arguments. -/
inductive TypeExpr where
  /-- A name with its type arguments, of which there may be none. -/
  | apply (name : Ident) (args : List TypeExpr) (span : Span)
deriving Repr

namespace TypeExpr

/-- The name that is applied. -/
def ident : TypeExpr → Ident
  | apply name _ _ => name

/-- The type arguments. -/
def args : TypeExpr → List TypeExpr
  | apply _ args _ => args

/-- The place of the whole type. -/
def span : TypeExpr → Span
  | apply _ _ span => span

/-- Whether there are type arguments. -/
def isGeneric (t : TypeExpr) : Bool := !t.args.isEmpty

end TypeExpr

/-- A literal value. -/
inductive Literal where
  /-- An integer. -/
  | int (value : Int64)
  /-- A 32-bit floating-point number, by its bit pattern. -/
  | float (bits : UInt32)
  /-- A 64-bit floating-point number, by its bit pattern. -/
  | double (bits : UInt64)
  /-- A truth value. -/
  | bool (value : Bool)
deriving DecidableEq, Repr

/-- The number of a construction. -/
abbrev NodeId := Nat

/-- An expression. -/
inductive Expr where
  /-- A literal. -/
  | literal (value : Literal) (span : Span)
  /-- A variable. -/
  | var (name : Ident) (span : Span)
  /-- A call of a function. -/
  | call (callee : Expr) (args : List Expr) (span : Span)
  /-- The construction of an object, an array or a string. -/
  | construct (node : NodeId) (callee : Option Expr) (typeArgs : Option (List TypeExpr))
    (args : Option (List Expr)) (span : Span)
  /-- An expression in parentheses. -/
  | paren (inner : Expr) (span : Span)
deriving Repr

/-- A statement. -/
inductive Stmt where
  /-- An expression whose value is dropped. -/
  | expr (expr : Expr) (span : Span)
  /-- A variable declaration; without a type the variable has the type of its first value. -/
  | declare (name : Ident) (type : Option TypeExpr) (value : Expr) (span : Span)
  /-- The end of the function, perhaps with a result. -/
  | ret (value : Option Expr) (span : Span)
deriving Repr

/-- A declared parameter. -/
structure ParamDecl where
  /-- Its name. -/
  name : Ident
  /-- Its type. -/
  type : TypeExpr
  /-- Its place. -/
  span : Span
deriving Repr

/-- A function; without a result type it returns nothing. -/
structure FunctionDecl where
  /-- Its name. -/
  name : Ident
  /-- Its parameters. -/
  params : List ParamDecl
  /-- The type of its result. -/
  returns : Option TypeExpr
  /-- Its statements. -/
  body : List Stmt
  /-- Its place. -/
  span : Span
deriving Repr

/-- A script is a list of functions. -/
abbrev Script := List FunctionDecl

namespace Expr

/-- The place of an expression. -/
def span : Expr → Span
  | literal _ span => span
  | var _ span => span
  | call _ _ span => span
  | construct _ _ _ _ span => span
  | paren _ span => span

/-- The name of an expression that is nothing but a variable. -/
def ident? : Expr → Option String
  | var name _ => some name.name
  | _ => none

/-- The name that a call or a construction is written with, if its callee is one. -/
def calleeName? : Expr → Option String
  | call callee _ _ => callee.ident?
  | construct _ callee _ _ _ => callee.bind ident?
  | _ => none

end Expr

/-- The place of a statement. -/
def Stmt.span : Stmt → Span
  | expr _ span => span
  | declare _ _ _ span => span
  | ret _ span => span

/-! ### Constructions in an expression -/

mutual

/-- The constructions in an expression: a construction before those in its callee, and these before
those in its arguments. -/
def Expr.constructions : Expr → List NodeId
  | .literal _ _ => []
  | .var _ _ => []
  | .call callee args _ => callee.constructions ++ constructionsOfList args
  | .construct node callee _ args _ =>
    node :: (constructionsOfCallee callee ++ constructionsOfArgs args)
  | .paren inner _ => inner.constructions
termination_by structural e => e

/-- The constructions in a list of expressions, from left to right. -/
def constructionsOfList : List Expr → List NodeId
  | [] => []
  | e :: es => e.constructions ++ constructionsOfList es
termination_by structural es => es

/-- The constructions in the callee of a construction. -/
def constructionsOfCallee : Option Expr → List NodeId
  | none => []
  | some e => e.constructions
termination_by structural e => e

/-- The constructions in the arguments of a construction. -/
def constructionsOfArgs : Option (List Expr) → List NodeId
  | none => []
  | some es => constructionsOfList es
termination_by structural es => es

end

/-- The constructions in a statement. -/
def Stmt.constructions : Stmt → List NodeId
  | expr e _ => e.constructions
  | declare _ _ e _ => e.constructions
  | ret (some e) _ => e.constructions
  | ret none _ => []

/-! ### What is learnt about constructions -/

/-- The types that were found for constructions. The first finding about a construction counts. -/
structure Annotations where
  /-- The findings, oldest first. -/
  entries : List (NodeId × Fingerprint) := []
deriving DecidableEq, Inhabited, Repr

namespace Annotations

/-- Adds a finding. -/
def annotate (a : Annotations) (node : NodeId) (type : Fingerprint) : Annotations :=
  ⟨a.entries ++ [(node, type)]⟩

/-- The type that was first found for a construction. -/
def type? (a : Annotations) (node : NodeId) : Option Fingerprint := a.entries.lookup node

theorem type?_annotate (a : Annotations) (node node' : NodeId) (type : Fingerprint) :
    (a.annotate node type).type? node' =
      (a.type? node').or (if node' = node then some type else none) := by
  simp only [type?, annotate, List.lookup_append, List.lookup_cons, List.lookup_nil]
  split <;> simp_all

end Annotations

end StackLowering

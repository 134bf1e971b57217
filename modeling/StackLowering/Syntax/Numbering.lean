import StackLowering.Syntax.Basic

/-!
# Numbering

Builds syntax that has no source text. Nodes are placed on one line in the order in which they are
built, each in a column of its own, and constructions are numbered in the same order. A node is
placed after its parts.
-/

namespace StackLowering

/-- The places and numbers that come next. -/
structure Numbering where
  /-- The next free column. -/
  nextCol : UInt32 := 1
  /-- The number of the next construction. -/
  nextNode : NodeId := 0
deriving DecidableEq, Inhabited, Repr

/-- A computation that builds syntax. -/
abbrev Numbered := StateM Numbering

namespace Numbered

/-- The next place: one character in a fresh column of the first line. -/
def span : Numbered Span :=
  modifyGet fun s ↦ (⟨1, s.nextCol, 1⟩, { s with nextCol := s.nextCol + 1 })

/-- The number of the next construction. -/
def node : Numbered NodeId :=
  modifyGet fun s ↦ (s.nextNode, { s with nextNode := s.nextNode + 1 })

/-- A name at the next place. -/
def ident (name : String) : Numbered Ident := return ⟨name, ← span⟩

/-- A literal. -/
def literal (value : Literal) : Numbered Expr := return .literal value (← span)

/-- A variable, which lies where its name lies. -/
def var (name : String) : Numbered Expr := do
  let name ← ident name
  return .var name name.span

/-- A call of an expression. -/
def call (callee : Expr) (args : List Expr) : Numbered Expr :=
  return .call callee args (← span)

/-- An expression in parentheses. -/
def paren (inner : Expr) : Numbered Expr := return .paren inner (← span)

/-- A construction. -/
def construct (callee : Option Expr) (typeArgs : Option (List TypeExpr))
    (args : Option (List Expr)) : Numbered Expr :=
  return .construct (← node) callee typeArgs args (← span)

/-- A type, which lies where its name lies. -/
def type (name : String) (args : List TypeExpr) : Numbered TypeExpr := do
  let name ← ident name
  return .apply name args name.span

/-- An expression statement. -/
def exprStmt (e : Expr) : Numbered Stmt := return .expr e (← span)

/-- A variable declaration. -/
def declareStmt (name : String) (type : Option TypeExpr) (value : Expr) : Numbered Stmt :=
  return .declare (← ident name) type value (← span)

/-- A return. -/
def retStmt (value : Option Expr) : Numbered Stmt := return .ret value (← span)

/-- A parameter. -/
def param (name : String) (type : TypeExpr) : Numbered ParamDecl :=
  return ⟨← ident name, type, ← span⟩

/-- A function. -/
def function (name : String) (params : List ParamDecl) (returns : Option TypeExpr)
    (body : List Stmt) : Numbered FunctionDecl :=
  return ⟨← ident name, params, returns, body, ← span⟩

end Numbered

end StackLowering

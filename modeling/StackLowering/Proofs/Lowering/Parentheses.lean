import StackLowering.Lowering.Compilation
import StackLowering.Proofs.Lowering.Steps

/-!
# Parentheses and absent lists

A script can be written with parentheses around its values, and a construction without a list that is
empty anyway. Neither shows in what the script compiles to: without them (`Script.bare`) the script has
the same bytes and lines, the same constants and slots, the same errors at the same places and the same
registry in the end (`Script.compile_bare`).

That an expression in parentheses goes to another line first is no difference, since every expression
goes to its own line before it does anything else (`Operand.Enters`). Where a type is expected,
parentheses are looked through, so that a literal takes on the type. The callee of a call is not a
value: there a name in parentheses is no name, so callees are left as they are.

The proof compares operands and not code: the operand of a bare expression is equal to that of the
expression itself, as a computation from every state. So nothing has to be shown of statements and
functions but that they treat equal operands equally, and all that a compilation returns is equal at
once.
-/

namespace StackLowering

variable {options : CompilerOptions}

/-! ### Bare scripts -/

mutual

/-- An expression without the parentheses around values, in which every construction has its lists. -/
def Expr.bare : Expr → Expr
  | .literal value span => .literal value span
  | .var name span => .var name span
  | .call callee args span => .call callee (bareList args) span
  | .construct node callee typeArgs args span =>
    .construct node callee (some (typeArgs.getD [])) (some (bareArgs args)) span
  | .paren inner _ => inner.bare
termination_by structural e => e

/-- The bare expressions of a list. -/
def bareList : List Expr → List Expr
  | [] => []
  | e :: es => e.bare :: bareList es
termination_by structural es => es

/-- The bare arguments of a construction. -/
def bareArgs : Option (List Expr) → List Expr
  | none => []
  | some es => bareList es
termination_by structural es => es

end

/-- A statement whose values are bare. -/
def Stmt.bare : Stmt → Stmt
  | .expr e span => .expr e.bare span
  | .declare name type value span => .declare name type value.bare span
  | .ret value span => .ret (value.map Expr.bare) span

/-- A function whose statements are bare. -/
def FunctionDecl.bare (d : FunctionDecl) : FunctionDecl := { d with body := d.body.map Stmt.bare }

/-- A script whose functions are bare. -/
def Script.bare (script : Script) : Script := script.map FunctionDecl.bare

/-- An expression in which no value is in parentheses and no construction is without a list. -/
inductive Expr.IsBare : Expr → Prop
  | literal (value : Literal) (span : Span) : IsBare (.literal value span)
  | var (name : Ident) (span : Span) : IsBare (.var name span)
  | call (callee : Expr) {args : List Expr} (span : Span) (h : ∀ arg ∈ args, IsBare arg) :
      IsBare (.call callee args span)
  | construct (node : NodeId) (callee : Option Expr) (typeArgs : List TypeExpr) {args : List Expr}
      (span : Span) (h : ∀ arg ∈ args, IsBare arg) :
      IsBare (.construct node callee (some typeArgs) (some args) span)

/-- The values of a statement: what it evaluates. -/
def Stmt.value? : Stmt → Option Expr
  | .expr e _ => some e
  | .declare _ _ value _ => some value
  | .ret value _ => value

/-- A script in which every value is bare. -/
def Script.IsBare (script : Script) : Prop :=
  ∀ d ∈ script, ∀ stmt ∈ d.body, ∀ e, stmt.value? = some e → e.IsBare

mutual

/-- What is left of an expression is bare. -/
theorem Expr.isBare_bare : (e : Expr) → e.bare.IsBare
  | .literal value span => .literal value span
  | .var name span => .var name span
  | .call callee args span => .call callee span (isBare_bareList args)
  | .construct node callee _ args span => .construct node callee _ span (isBare_bareArgs args)
  | .paren inner _ => inner.isBare_bare
termination_by structural e => e

/-- So is what is left of the expressions in a list. -/
theorem isBare_bareList : (es : List Expr) → ∀ e ∈ bareList es, e.IsBare
  | [] => by simp [bareList]
  | e :: es => by
    rw [bareList]
    exact List.forall_mem_cons.2 ⟨e.isBare_bare, isBare_bareList es⟩
termination_by structural es => es

/-- So is what is left of the arguments of a construction; if there was no list, there is an empty one.
-/
theorem isBare_bareArgs : (es : Option (List Expr)) → ∀ e ∈ bareArgs es, e.IsBare
  | none => by simp [bareArgs]
  | some es => isBare_bareList es
termination_by structural es => es

end

/-- A statement evaluates what is left of its value. -/
theorem Stmt.value?_bare (stmt : Stmt) : stmt.bare.value? = stmt.value?.map Expr.bare := by
  cases stmt <;> rfl

/-- What is left of a script is bare. -/
theorem Script.isBare_bare (script : Script) : script.bare.IsBare := by
  intro d hd stmt hstmt e he
  obtain ⟨d, -, rfl⟩ := List.mem_map.1 hd
  obtain ⟨stmt, -, rfl⟩ := List.mem_map.1 hstmt
  rw [Stmt.value?_bare] at he
  obtain ⟨e, -, rfl⟩ := Option.map_eq_some_iff.1 he
  exact e.isBare_bare

/-! ### Operands -/

/-- An operand that goes to a line of its own first. -/
def Operand.Enters (o : Operand) : Prop :=
  ∃ (line : UInt32) (x : Attempt ValueInfo), o.infer = do
    Lower.setLine line
    x

/-- Parentheses around an operand that goes to a line of its own make no difference. -/
theorem Operand.Enters.paren_eq {o : Operand} (h : o.Enters) (span : Span) : o.paren span = o := by
  obtain ⟨infer, check⟩ := o
  obtain ⟨line, x, rfl⟩ := h
  rfl

/-- Every expression goes to its own line before it does anything else, one in parentheses as well. -/
theorem Expr.enters_operand (e : Expr) : (e.operand options).Enters := by
  cases e with
  | literal value span => exact ⟨span.line, _, rfl⟩
  | var name span => exact ⟨span.line, _, rfl⟩
  | call callee args span => exact ⟨span.line, _, rfl⟩
  | construct node callee typeArgs args span => exact ⟨span.line, _, rfl⟩
  | paren inner span => exact ⟨span.line, _, rfl⟩

/-- A construction is classified as if it had the lists that it has not. -/
theorem Construction.classify_getD (r : Registry) (f : Frame) (callee : Option String)
    (typeArgs : Option (List TypeExpr)) (args : Option (List Operand)) :
    classify r f callee (some (typeArgs.getD [])) (some (args.getD [])) =
      classify r f callee typeArgs args := by
  have hshape (name : String) : bufferShape? name (some (typeArgs.getD [])) (some (args.getD [])) =
      bufferShape? name typeArgs args := by
    rcases typeArgs with _ | _ | ⟨type, _ | ⟨type', types⟩⟩ <;>
      rcases args with _ | _ | ⟨arg, _ | ⟨arg', args⟩⟩ <;> rfl
  cases callee with
  | none => rfl
  | some name =>
    unfold classify
    dsimp only
    rw [hshape, Option.getD_some]

/-- A construction makes the same with an empty list as without one. -/
theorem Operand.construct_getD (node : NodeId) (callee : Option String)
    (typeArgs : Option (List TypeExpr)) (args : Option (List Operand)) (span : Span) :
    construct options node callee (some (typeArgs.getD [])) (some (args.getD [])) span =
      construct options node callee typeArgs args span := by
  simp only [construct, Construction.classify_getD, Option.getD_some]

mutual

/-- Without parentheses an expression is the same operand. -/
theorem Expr.operand_bare : (e : Expr) → e.bare.operand options = e.operand options
  | .literal value span => rfl
  | .var name span => rfl
  | .call callee args span => by
    rw [Expr.bare, Expr.operand, Expr.operand, operandsOfList_bareList args]
  | .construct node callee typeArgs args span => by
    rw [Expr.bare, Expr.operand, Expr.operand, operandsOfArgs, operandsOfList_bareArgs args,
      Operand.construct_getD]
  | .paren inner span => by
    rw [Expr.bare, Expr.operand, inner.operand_bare, inner.enters_operand.paren_eq]
termination_by structural e => e

/-- Operands in a list are those of the bare expressions. -/
theorem operandsOfList_bareList : (es : List Expr) →
    operandsOfList options (bareList es) = operandsOfList options es
  | [] => rfl
  | e :: es => by
    rw [bareList, operandsOfList, operandsOfList, e.operand_bare, operandsOfList_bareList es]
termination_by structural es => es

/-- So are the operands of a construction, where no list counts as an empty one. -/
theorem operandsOfList_bareArgs : (es : Option (List Expr)) →
    operandsOfList options (bareArgs es) = (operandsOfArgs options es).getD []
  | none => rfl
  | some es => by
    rw [bareArgs, operandsOfArgs, operandsOfList_bareList es, Option.getD_some]
termination_by structural es => es

end

/-! ### Functions -/

theorem Stmt.span_bare (stmt : Stmt) : stmt.bare.span = stmt.span := by
  cases stmt <;> rfl

/-- A statement is lowered as if its value were bare. -/
theorem Stmt.lower_bare (returns : Fingerprint) (stmt : Stmt) :
    stmt.bare.lower options returns = stmt.lower options returns := by
  unfold Stmt.lower
  rw [Stmt.span_bare]
  cases stmt with
  | expr e span => simp only [bare, e.operand_bare]
  | declare name type value span => simp only [bare, value.operand_bare]
  | ret value span =>
    have hvalue : (value.map Expr.bare).map (Expr.operand options) =
        value.map (Expr.operand options) := by
      rw [Option.map_map]
      exact congrArg (Option.map · value) (funext Expr.operand_bare)
    simp only [bare, hvalue]

/-- Whether a body ends in a return can be seen without looking into values. -/
theorem endsInReturn_bare (body : List Stmt) :
    endsInReturn (body.map Stmt.bare) = endsInReturn body := by
  unfold endsInReturn
  rw [List.getLast?_map]
  rcases body.getLast? with _ | e | d | r <;> rfl

/-- A function is lowered as if its statements were bare. -/
theorem Callable.lower_bare (f : Callable) (body : List Stmt) (span : Span) (s : LoweringState) :
    f.lower options (body.map Stmt.bare) span s = f.lower options body span s := by
  have hbody : (body.map Stmt.bare).forM (Stmt.lower options f.returns) =
      body.forM (Stmt.lower options f.returns) := by
    induction body with
    | nil => rfl
    | cons stmt body ih =>
      show (stmt.bare.lower options f.returns >>= fun _ ↦ (body.map Stmt.bare).forM _) = _
      rw [stmt.lower_bare, ih]
      rfl
  have hlower : f.lowerBody options (body.map Stmt.bare) span = f.lowerBody options body span := by
    unfold lowerBody
    rw [hbody, endsInReturn_bare]
  unfold lower
  rw [hlower]

/-! ### Scripts -/

/-- A function has the same signature whether its body is bare or not. -/
theorem declareFunctions_bare (script : Script) (s : Symbols) :
    declareFunctions script.bare s =
      (((declareFunctions script s).1.1.map fun q ↦ (q.1.bare, q.2), (declareFunctions script s).1.2),
        (declareFunctions script s).2) := by
  induction script generalizing s with
  | nil => rfl
  | cons d ds ih =>
    show declareFunctions (d.bare :: Script.bare ds) s = _
    rw [declareFunctions, declareFunctions, show d.bare.signature = d.signature from rfl]
    rcases d.signature.run.run s with ⟨error | f, s'⟩
    · dsimp only
      rw [ih]
    · dsimp only
      rw [ih]
      rfl

theorem lowerFunctions_bare (declared : List (FunctionDecl × Callable)) (s : LoweringState) :
    lowerFunctions options (declared.map fun q ↦ (q.1.bare, q.2)) s =
      lowerFunctions options declared s := by
  induction declared generalizing s with
  | nil => rfl
  | cons q declared ih =>
    obtain ⟨d, f⟩ := q
    rw [List.map_cons, lowerFunctions, lowerFunctions]
    dsimp only
    rw [show d.bare.body = d.body.map Stmt.bare from rfl, show d.bare.span = d.span from rfl,
      f.lower_bare, ih]

/-- Parentheses around values and empty lists of constructions do not show in what is compiled: a script
without them is compiled to the same functions with the same lines, the same pool, the same errors, the
same findings and the same registry. -/
theorem Script.compile_bare (options : CompilerOptions) (registry : Registry) (script : Script) :
    script.bare.IsBare ∧ script.bare.compile options registry = script.compile options registry := by
  refine ⟨script.isBare_bare, ?_⟩
  unfold compile
  rw [declareFunctions_bare]
  dsimp only
  rw [lowerFunctions_bare]

end StackLowering

import StackLowering.Proofs.Lowering.Comparison
import StackLowering.Proofs.Lowering.Failure

/-!
# Lowering up to lines

The current line goes into the instructions that are written and nowhere else. Two computations that
differ only in where they change the line therefore come to the same up to lines (`Lower.UpToLines`):
from states that differ in nothing but the line, they have related values, lead to states that differ
in nothing but the line, and write the same instructions, errors and findings.

Values are related and not equal, since a planned construction holds the operand for its count, which
goes to lines of its own. Everything else that computations hand on is equal on both sides.

Where two such computations do the same altogether can be told piece by piece, since their pieces write
equally many instructions (`Lower.SameIf.bind`). `Lower.SameIf` names a condition on which they do, and
which they do not do without: the code itself shows whether it holds. So the conditions for the parts
of an expression are put together to an equivalence for the whole.
-/

namespace StackLowering

/-! ### Computations -/

/-- Two states that differ in nothing but the line. -/
structure LoweringState.UpToLine (s s' : LoweringState) : Prop where
  symbols : s'.symbols = s.symbols
  frame : s'.frame = s.frame

/-- Two outcomes with related values that differ in nothing but lines. -/
structure Outcome.UpToLines {α : Type} (R : α → α → Prop) (o o' : Outcome α) : Prop where
  value : R o.value o'.value
  state : o.state.UpToLine o'.state
  instructions : o'.output.instructions = o.output.instructions
  errors : o'.output.errors = o.output.errors
  findings : o'.output.findings = o.output.findings

/-- Two computations that differ in nothing but lines, on whatever lines they start. -/
def Lower.UpToLines {α : Type} (R : α → α → Prop) (x y : Lower α) : Prop :=
  ∀ s s' : LoweringState, s.UpToLine s' → (x.run s).UpToLines R (y.run s')

namespace Lower.UpToLines

variable {α β : Type} {R : α → α → Prop} {Q : β → β → Prop} {x y : Lower α}

/-- Related values are returned. -/
theorem pure {a b : α} (hab : R a b) : UpToLines R (pure a) (pure b) :=
  fun _ _ h ↦ ⟨hab, h, rfl, rfl, rfl⟩

/-- The second computations need to be related only at related values. -/
theorem bind {f g : α → Lower β} (hx : UpToLines R x y)
    (hf : ∀ a b, R a b → UpToLines Q (f a) (g b)) : UpToLines Q (x >>= f) (y >>= g) := by
  intro s s' h
  obtain ⟨hvalue, hstate, hcode, herrors, hfindings⟩ := hx s s' h
  obtain ⟨hvalue', hstate', hcode', herrors', hfindings'⟩ := hf _ _ hvalue _ _ hstate
  refine ⟨hvalue', hstate', ?_, ?_, ?_⟩
  · rw [output_bind, output_bind, Output.instructions_append, Output.instructions_append, hcode, hcode']
  · rw [output_bind, output_bind, Output.errors_append, Output.errors_append, herrors, herrors']
  · rw [output_bind, output_bind, Output.findings_append, Output.findings_append, hfindings, hfindings']

/-- The first computations have the same value. -/
theorem bind_eq {f g : α → Lower β} (hx : UpToLines Eq x y) (hf : ∀ a, UpToLines Q (f a) (g a)) :
    UpToLines Q (x >>= f) (y >>= g) :=
  hx.bind fun a _ hab ↦ hab ▸ hf a

/-- The values may be thrown away, however they are related. -/
theorem discard (hx : UpToLines R x y) : UpToLines Eq (discard x) (discard y) :=
  hx.bind fun _ _ _ ↦ .pure rfl

/-- Two loops over lists of one length, element by element. -/
theorem forM {l l' : List α} {f g : α → Lower Unit}
    (h : List.Forall₂ (fun a b ↦ UpToLines Eq (f a) (g b)) l l') :
    UpToLines Eq (l.forM f) (l'.forM g) := by
  induction h with
  | nil => exact .pure rfl
  | cons hab _ ih => exact hab.bind_eq fun _ ↦ ih

/-- The same loop on both sides. -/
theorem forM_self {l : List α} {f : α → Lower Unit} (h : ∀ a, UpToLines Eq (f a) (f a)) :
    UpToLines Eq (l.forM f) (l.forM f) :=
  .forM (List.forall₂_same.2 fun a _ ↦ h a)

/-! #### State -/

/-- The state may be looked at. It differs in its line, so that what follows must not depend on that.
-/
theorem get : UpToLines LoweringState.UpToLine get get :=
  fun _ _ h ↦ ⟨h, h, rfl, rfl, rfl⟩

/-- The registries are the same. -/
theorem registry : UpToLines Eq registry registry :=
  fun _ _ h ↦ ⟨congrArg Symbols.registry h.symbols.symm, h, rfl, rfl, rfl⟩

theorem width : UpToLines Eq width width :=
  registry.bind_eq fun _ ↦ .pure rfl

/-- Both sides may go to a line, each to its own. -/
theorem setLine (line line' : UInt32) : UpToLines Eq (setLine line) (setLine line') :=
  fun _ _ h ↦ ⟨rfl, ⟨h.symbols, h.frame⟩, rfl, rfl, rfl⟩

/-- One side may go to a line of its own. -/
theorem setLine_bind (h : UpToLines R x y) (line : UInt32) :
    UpToLines R x (Lower.setLine line >>= fun _ ↦ y) := by
  intro s s' hs
  have hline : s.UpToLine { s' with line } := ⟨hs.symbols, hs.frame⟩
  obtain ⟨hvalue, hstate, hcode, herrors, hfindings⟩ := h s _ hline
  exact ⟨hvalue, hstate, hcode, herrors, hfindings⟩

/-- A temporary has the same slot on both sides. -/
theorem temporary (name : String) (type : Fingerprint) :
    UpToLines Eq (temporary name type) (temporary name type) := by
  intro s s' h
  have hrun (s : LoweringState) : (Lower.temporary name type).run s =
      ⟨(s.frame.temporary name type).1, { s with frame := (s.frame.temporary name type).2 }, .empty⟩ :=
    rfl
  rw [hrun, hrun, h.frame]
  exact ⟨rfl, ⟨h.symbols, rfl⟩, rfl, rfl, rfl⟩

/-! #### Output -/

/-- An instruction is written, on whatever line. -/
theorem emit (i : SymbolicInstruction) : UpToLines Eq (emit i) (emit i) :=
  fun _ _ h ↦ ⟨rfl, h, rfl, rfl, rfl⟩

/-- A run of instructions is written, on whatever line. -/
theorem emitAll (is : List SymbolicInstruction) : UpToLines Eq (emitAll is) (emitAll is) := by
  intro s s' h
  have hcode (s : LoweringState) : ((Lower.emitAll is).run s).output.instructions = is :=
    Lower.code_emitAll is s
  exact ⟨rfl, h, (hcode s').trans (hcode s).symm, rfl, rfl⟩

theorem report (error : CompileError) : UpToLines Eq (report error) (report error) :=
  fun _ _ h ↦ ⟨rfl, h, rfl, rfl, rfl⟩

theorem annotate (node : NodeId) (type : Fingerprint) :
    UpToLines Eq (annotate node type) (annotate node type) :=
  fun _ _ h ↦ ⟨rfl, h, rfl, rfl, rfl⟩

theorem trap (error : CompileError) : UpToLines Eq (trap error) (trap error) :=
  (report error).bind_eq fun _ ↦ emit .trap

end Lower.UpToLines

/-- Results with equal values are equal. -/
theorem Attempt.Related.eq {α : Type} {r r' : Except CompileError α} (h : Related Eq r r') : r' = r := by
  rcases h with rfl | error <;> rfl

/-- Two computations that may fail, for the same reason then, and differ in nothing but lines. -/
abbrev Attempt.UpToLines {α : Type} (R : α → α → Prop) (x y : Attempt α) : Prop :=
  Lower.UpToLines (Attempt.Related R) x.run y.run

namespace Attempt.UpToLines

variable {α β : Type} {R : α → α → Prop} {Q : β → β → Prop} {x y : Attempt α}

theorem pure {a b : α} (hab : R a b) : UpToLines R (pure a) (pure b) :=
  Lower.UpToLines.pure (.ok hab)

theorem throw (error : CompileError) : UpToLines R (throw error) (throw error) :=
  Lower.UpToLines.pure (.error error)

/-- Attempts in a row fail together, or go on with related values. -/
theorem bind {f g : α → Attempt β} (hx : UpToLines R x y)
    (hf : ∀ a b, R a b → UpToLines Q (f a) (g b)) : UpToLines Q (x >>= f) (y >>= g) := by
  refine Lower.UpToLines.bind (f := fun v ↦ (ExceptT.bindCont f v))
    (g := fun v ↦ (ExceptT.bindCont g v)) hx fun v v' hv ↦ ?_
  rcases hv with hab | error
  · exact hf _ _ hab
  · exact Lower.UpToLines.pure (.error error)

/-- The first computations have the same value, if they do not fail. -/
theorem bind_eq {f g : α → Attempt β} (hx : UpToLines Eq x y) (hf : ∀ a, UpToLines Q (f a) (g a)) :
    UpToLines Q (x >>= f) (y >>= g) :=
  hx.bind fun a _ hab ↦ hab ▸ hf a

/-- The first computations cannot fail. -/
theorem lift_bind {x y : Lower α} {f g : α → Attempt β} (hx : Lower.UpToLines R x y)
    (hf : ∀ a b, R a b → UpToLines Q (f a) (g b)) :
    UpToLines Q (liftM x >>= f : Attempt β) (liftM y >>= g) := by
  rw [UpToLines, Attempt.lift_bind_run, Attempt.lift_bind_run]
  exact hx.bind hf

/-- The first computations cannot fail, and have the same value. -/
theorem lift_bind_eq {x y : Lower α} {f g : α → Attempt β} (hx : Lower.UpToLines Eq x y)
    (hf : ∀ a, UpToLines Q (f a) (g a)) : UpToLines Q (liftM x >>= f : Attempt β) (liftM y >>= g) :=
  lift_bind hx fun a _ hab ↦ hab ▸ hf a

/-- One side may go to a line of its own. -/
theorem lift_setLine_bind (h : UpToLines R x y) (line : UInt32) :
    UpToLines R x (liftM (Lower.setLine line) >>= fun _ ↦ y) := by
  rw [UpToLines, Attempt.lift_bind_run]
  exact h.setLine_bind line

/-- Types are resolved to the same. -/
theorem resolve (x : Resolution α) : UpToLines Eq (Attempt.resolve x) (Attempt.resolve x) := by
  intro s s' h
  rw [run_resolve, run_resolve, h.symbols]
  rcases (x.run.run s.symbols).1 with error | a
  · exact ⟨.error error, ⟨rfl, h.frame⟩, rfl, rfl, rfl⟩
  · exact ⟨.ok rfl, ⟨rfl, h.frame⟩, rfl, rfl, rfl⟩

/-- A class is laid out in the same way on both sides. -/
theorem layOutClass (id : Fingerprint) (span : Span) :
    UpToLines Eq (Attempt.layOutClass id span) (Attempt.layOutClass id span) := by
  intro s s' h
  rw [run_layOutClass, run_layOutClass, h.symbols]
  rcases s.symbols.registry.layOutClass id with error | ⟨size, r⟩
  · exact ⟨.error _, h, rfl, rfl, rfl⟩
  · exact ⟨.ok rfl, ⟨rfl, h.frame⟩, rfl, rfl, rfl⟩

end Attempt.UpToLines

/-! ### Operands -/

/-- Lowers against a type if there is one, and else for its own sake. -/
def Operand.lowerAs (o : Operand) : Option Fingerprint → Attempt ValueInfo
  | some expected => o.check expected
  | none => o.infer

/-- Two operands that differ in nothing but lines, in both ways of lowering them. -/
structure Operand.UpToLines (o o' : Operand) : Prop where
  infer : Attempt.UpToLines Eq o.infer o'.infer
  check (expected : Fingerprint) : Attempt.UpToLines Eq (o.check expected) (o'.check expected)

namespace Operand

variable {o o' : Operand} {span : Span}

/-- Operands differ in nothing but lines also where the way of lowering is not fixed. -/
theorem UpToLines.lowerAs (ho : o.UpToLines o') (mode : Option Fingerprint) :
    Attempt.UpToLines Eq (o.lowerAs mode) (o'.lowerAs mode) := by
  cases mode with
  | none => exact ho.infer
  | some expected => exact ho.check expected

/-- An error is reported, and a trap written, on both sides or on neither. -/
theorem UpToLines.checkOrTrap (ho : o.UpToLines o') (expected : Fingerprint) :
    Lower.UpToLines Eq (o.checkOrTrap expected) (o'.checkOrTrap expected) := by
  refine Lower.UpToLines.bind (ho.check expected) fun v v' hv ↦ ?_
  rcases hv with hinfo | error
  · exact .pure hinfo
  · exact (Lower.UpToLines.trap error).bind_eq fun _ ↦ .pure rfl

/-- The same holds where no type is expected. -/
theorem UpToLines.inferOrTrap (ho : o.UpToLines o') :
    Lower.UpToLines Eq o.inferOrTrap o'.inferOrTrap := by
  refine Lower.UpToLines.bind ho.infer fun v v' hv ↦ ?_
  rcases hv with hinfo | error
  · exact .pure (congrArg some hinfo)
  · exact (Lower.UpToLines.trap error).bind_eq fun _ ↦ .pure rfl

/-- A value is dropped on both sides or on neither. -/
theorem UpToLines.evaluateAndDrop (ho : o.UpToLines o') :
    Lower.UpToLines Eq o.evaluateAndDrop o'.evaluateAndDrop := by
  refine ho.inferOrTrap.bind_eq fun info? ↦ ?_
  rcases info? with _ | info
  · exact .pure rfl
  · show Lower.UpToLines Eq (if info.type = voidType then _ else _)
      (if info.type = voidType then _ else _)
    split
    · exact .pure rfl
    · exact .emit .pop

/-- A conversion does not depend on the line. -/
theorem upToLines_convert (span : Span) (expected : Fingerprint) (info : ValueInfo) :
    Attempt.UpToLines Eq (convert span expected info) (convert span expected info) := by
  unfold convert
  split
  · exact .pure rfl
  · refine .lift_bind_eq .registry fun registry ↦ ?_
    split
    · exact .lift_bind_eq (.emitAll _) fun _ ↦ .pure rfl
    · exact .throw _

/-- It is enough to compare how types are inferred. -/
theorem upToLines_ofInference {x y : Attempt ValueInfo} (h : Attempt.UpToLines Eq x y) :
    (ofInference span x).UpToLines (ofInference span y) := by
  have hinfer : Attempt.UpToLines Eq (ofInference span x).infer (ofInference span y).infer :=
    .lift_bind_eq (.setLine _ _) fun _ ↦ h
  exact ⟨hinfer, fun expected ↦ hinfer.bind_eq fun info ↦ upToLines_convert span expected info⟩

/-- A variable is found by its name, whatever the line is. -/
theorem upToLines_var (name : String) (span : Span) : (var name span).UpToLines (var name span) := by
  refine upToLines_ofInference (.lift_bind .get fun s s' h ↦ ?_)
  rw [h.frame]
  split
  · exact .lift_bind_eq (.emit _) fun _ ↦ .pure rfl
  · exact .throw _

/-- Parentheses on both sides change nothing but lines. -/
theorem UpToLines.paren (ho : o.UpToLines o') (span : Span) : (o.paren span).UpToLines (o'.paren span) :=
  ⟨.lift_bind_eq (.setLine _ _) fun _ ↦ ho.infer, ho.check⟩

end Operand

/-! ### Arguments -/

namespace Lower

/-- A missing argument is supplied whatever the line is. -/
theorem upToLines_supply (span : Span) (param : Param) :
    UpToLines Eq (supply span param) (supply span param) := by
  unfold supply
  split
  · refine UpToLines.registry.bind_eq fun registry ↦ ?_
    split
    · exact .emit _
    · exact .trap _
  · exact .emit .trap

/-- So are several, with the report of a shortfall between them. -/
theorem upToLines_supplyMissing (shortfall : CompileError) (span : Span) (missing : List Param) :
    UpToLines Eq (supplyMissing shortfall span missing) (supplyMissing shortfall span missing) := by
  refine (UpToLines.forM_self (upToLines_supply span)).bind_eq fun _ ↦ ?_
  split
  · exact .pure rfl
  · exact (UpToLines.report shortfall).bind_eq fun _ ↦ .forM_self (upToLines_supply span)

variable {args args' : List Operand}

/-- Arguments that differ in nothing but lines are checked against the same parameters. -/
theorem upToLines_checkArguments (params : List Param) (h : List.Forall₂ Operand.UpToLines args args') :
    UpToLines Eq (checkArguments (params.zip args)) (checkArguments (params.zip args')) := by
  refine .forM ?_
  induction h generalizing params with
  | nil => simp
  | cons harg _ ih =>
    cases params with
    | nil => exact .nil
    | cons param params => exact .cons (harg.checkOrTrap param.type).discard (ih params)

/-- Whether there are arguments without a parameter depends on their number only. -/
theorem upToLines_rejectExcess (options : CompilerOptions) (excess : CompileError)
    (h : List.Forall₂ Operand.UpToLines args args') :
    UpToLines Eq (rejectExcess options excess args) (rejectExcess options excess args') := by
  cases h with
  | nil => exact .pure rfl
  | cons harg hargs =>
    refine (UpToLines.report excess).bind_eq fun _ ↦ ?_
    split
    · exact .forM ((List.Forall₂.cons harg hargs).imp fun _ _ h ↦ h.evaluateAndDrop)
    · exact .pure rfl

/-- Arguments that differ in nothing but lines are bound in the same way. -/
theorem upToLines_bindArguments (options : CompilerOptions) (params : List Param)
    (h : List.Forall₂ Operand.UpToLines args args') (span : Span) :
    UpToLines Eq (bindArguments options params args span)
      (bindArguments options params args' span) := by
  unfold bindArguments
  rw [h.length_eq]
  refine (upToLines_checkArguments params h).bind_eq fun _ ↦ ?_
  refine (upToLines_supplyMissing _ span _).bind_eq fun _ ↦ ?_
  exact upToLines_rejectExcess options _ (List.forall₂_drop params.length h)

end Lower

/-! ### Planning constructions -/

/-- Two constructions that differ in nothing but the lines of a count. -/
inductive Construction.UpToLines : Construction → Construction → Prop
  | buffer (element : BufferElement) {count count' : Operand} (h : count.UpToLines count') :
      UpToLines (.buffer element count) (.buffer element count')
  | same {shape : Construction} (h : ∀ element count, shape ≠ .buffer element count) :
      UpToLines shape shape

/-- Two plans that differ in nothing but the lines of a count. -/
inductive ConstructionPlan.UpToLines : ConstructionPlan → ConstructionPlan → Prop
  | buffer (size : UInt32) {count count' : Operand} (h : count.UpToLines count') :
      UpToLines (.buffer size count) (.buffer size count')
  | object (size : UInt32) (constructor? : Option Callable) :
      UpToLines (.object size constructor?) (.object size constructor?)

/-- What is written like a buffer with one argument is one with any other argument. -/
theorem exists_bufferShape?_eq_map (name : String) (typeArgs : Option (List TypeExpr)) :
    ∃ element? : Option BufferElement, ∀ count,
      bufferShape? name typeArgs (some [count]) = element?.map (·, count) := by
  rcases typeArgs with _ | _ | ⟨type, _ | ⟨_, _⟩⟩
  · refine ⟨if name = stringName then some .codeUnit else none, fun count ↦ ?_⟩
    simp only [bufferShape?]
    split <;> rfl
  · refine ⟨if name = stringName then some .codeUnit else none, fun count ↦ ?_⟩
    simp only [bufferShape?]
    split <;> rfl
  · refine ⟨if name = arrayName then some (.declared type) else none, fun count ↦ ?_⟩
    simp only [bufferShape?]
    split <;> rfl
  · exact ⟨none, fun count ↦ rfl⟩

/-- What has no single argument is not written like a buffer. -/
theorem bufferShape?_eq_none {name : String} {typeArgs : Option (List TypeExpr)}
    {args : Option (List Operand)} (h : ∀ count, args ≠ some [count]) :
    bufferShape? name typeArgs args = none :=
  Option.eq_none_iff_forall_ne_some.2 fun (_, count) hshape ↦ h count (bufferShape?_eq_some hshape).1

/-- A construction is classified by the number of its arguments, not by their lines. -/
theorem Construction.upToLines_classify {args args' : Option (List Operand)}
    (h : Option.Rel (List.Forall₂ Operand.UpToLines) args args') (r : Registry) (f : Frame)
    (callee : Option String) (typeArgs : Option (List TypeExpr)) :
    (classify r f callee typeArgs args).UpToLines (classify r f callee typeArgs args') := by
  rcases callee with _ | name
  · exact .same nofun
  -- without a single argument the meaning of the name decides
  have hname (h : ∀ count, args ≠ some [count]) (h' : ∀ count, args' ≠ some [count]) :
      (classify r f (some name) typeArgs args).UpToLines (classify r f (some name) typeArgs args') := by
    simp only [classify, bufferShape?_eq_none h, bufferShape?_eq_none h']
    split <;> exact .same nofun
  rcases h with ⟨_ | ⟨hcount, _ | ⟨_, _⟩⟩⟩ | _
  · exact hname nofun nofun
  · obtain ⟨element?, helement⟩ := exists_bufferShape?_eq_map name typeArgs
    simp only [classify, helement]
    cases element? with
    | some element => exact .buffer element hcount
    | none =>
      simp only [Option.map_none]
      split <;> exact .same nofun
  · exact hname nofun nofun
  · exact hname nofun nofun

namespace ConstructionPlan

/-- The size of elements does not depend on the line. -/
theorem upToLines_elementSize (element : BufferElement) :
    Attempt.UpToLines Eq (elementSize element) (elementSize element) := by
  rcases element with type | _
  · refine Attempt.UpToLines.bind_eq (.resolve type.resolve) fun id ↦ .lift_bind_eq .registry fun r ↦ ?_
    split
    · exact .pure rfl
    · exact .throw _
  · exact .pure rfl

/-- The plan for a class does not depend on the line. -/
theorem upToLines_ofClass (id : Fingerprint) (span : Span) :
    Attempt.UpToLines UpToLines (ofClass id span) (ofClass id span) := by
  refine Attempt.UpToLines.bind_eq (.layOutClass id span) fun size ↦ .lift_bind_eq .registry fun r ↦ ?_
  split
  · exact .pure (.object size none)
  · split
    · exact .pure (.object size _)
    · exact .throw _

/-- The plans of two constructions differ in nothing but the lines of a count. -/
theorem upToLines_ofConstruction (span : Span) {shape shape' : Construction}
    (h : shape.UpToLines shape') :
    Attempt.UpToLines UpToLines (ofConstruction span shape) (ofConstruction span shape') := by
  rcases h with ⟨element, hcount⟩ | h
  · exact (upToLines_elementSize element).bind_eq fun size ↦ .pure (.buffer size hcount)
  · rcases shape with ⟨element, count⟩ | id | ⟨template, types⟩ | _
    · exact absurd rfl (h element count)
    · exact upToLines_ofClass id span
    · refine Attempt.UpToLines.bind_eq (.resolve (resolveTypes types)) fun args ↦ ?_
      exact .bind_eq (.resolve (.instantiate template args span)) fun id ↦ upToLines_ofClass id span
    · exact .throw _

end ConstructionPlan

/-! ### The same altogether -/

/-- A condition on which two computations do the same from a state, and which holds if they write the
same there. -/
structure Lower.SameIf {α : Type} (x y : Lower α) (s : LoweringState) (P : Prop) : Prop where
  run_eq : P → y.run s = x.run s
  of_code_eq : (y.run s).output.code = (x.run s).output.code → P

namespace Lower.SameIf

variable {α β : Type} {R : α → α → Prop} {x y : Lower α} {f g : α → Lower β} {s : LoweringState}
  {P Q : Prop}

/-- A computation does the same as itself on no condition. -/
theorem refl (x : Lower α) (s : LoweringState) : SameIf x x s True :=
  ⟨fun _ ↦ rfl, fun _ ↦ trivial⟩

/-- The condition may be put in other words. -/
theorem congr (h : SameIf x y s P) (hiff : P ↔ Q) : SameIf x y s Q :=
  ⟨fun hq ↦ h.run_eq (hiff.2 hq), fun hcode ↦ hiff.1 (h.of_code_eq hcode)⟩

/-- Both the first and the second computations do the same. The first ones write equally much in any
case, so that what they write can be told from what the second ones write. -/
theorem bind (hlines : UpToLines R x y) (hx : SameIf x y s P)
    (hf : SameIf (f (x.run s).value) (g (x.run s).value) (x.run s).state Q) :
    SameIf (x >>= f) (y >>= g) s (P ∧ Q) := by
  refine ⟨fun ⟨hp, hq⟩ ↦ ?_, fun hcode ↦ ?_⟩
  · rw [run_bind, run_bind, hx.run_eq hp, hf.run_eq hq]
  · have hlength : (y.run s).output.code.length = (x.run s).output.code.length := by
      simpa [Output.instructions] using congrArg List.length (hlines s s ⟨rfl, rfl⟩).instructions
    rw [run_bind, run_bind, Output.code_append, Output.code_append] at hcode
    obtain ⟨hfirst, hsecond⟩ := List.append_inj hcode hlength
    have hp := hx.of_code_eq hfirst
    rw [hx.run_eq hp] at hsecond
    exact ⟨hp, hf.of_code_eq hsecond⟩

/-- What comes after is the same. -/
theorem bind_left (hlines : UpToLines R x y) (hx : SameIf x y s P) (f : α → Lower β) :
    SameIf (x >>= f) (y >>= f) s P :=
  (hx.bind hlines (.refl _ _)).congr (and_iff_left trivial)

/-- What comes before is the same. -/
theorem bind_right (x : Lower α) (hf : SameIf (f (x.run s).value) (g (x.run s).value) (x.run s).state Q) :
    SameIf (x >>= f) (x >>= g) s Q := by
  refine ⟨fun hq ↦ ?_, fun hcode ↦ hf.of_code_eq ?_⟩
  · rw [run_bind, run_bind, hf.run_eq hq]
  · rw [run_bind, run_bind, Output.code_append, Output.code_append] at hcode
    exact List.append_cancel_left hcode

/-- What comes before is the same, and cannot fail. -/
theorem lift_bind_right {x : Lower α} {f g : α → Attempt β} {a : α} {s' : LoweringState} {o : Output}
    (hrun : x.run s = ⟨a, s', o⟩) (hf : SameIf (f a).run (g a).run s' Q) :
    SameIf (liftM x >>= f : Attempt β).run (liftM x >>= g : Attempt β).run s Q := by
  rw [Attempt.lift_bind_run, Attempt.lift_bind_run]
  refine bind_right x ?_
  rw [hrun]
  exact hf

/-- To go to a line before an instruction makes no difference exactly on that line. -/
theorem setLine_bind (hx : ∀ s, ∃ i code, (x.run s).output.code = ⟨s.line, i⟩ :: code) (line : UInt32)
    (s : LoweringState) : SameIf x (setLine line >>= fun _ ↦ x) s (s.line = line) := by
  refine ⟨?_, fun hcode ↦ ?_⟩
  · rintro rfl
    rfl
  · obtain ⟨i, code, hwritten⟩ := hx s
    obtain ⟨i', code', hwritten'⟩ := hx { s with line }
    have hcons : (⟨line, i'⟩ : LocatedInstruction) :: code' = ⟨s.line, i⟩ :: code :=
      hwritten'.symm.trans (hcode.trans hwritten)
    exact (congrArg LocatedInstruction.line (List.head_eq_of_cons_eq hcons)).symm

end Lower.SameIf

namespace Operand

variable {o o' : Operand} {s : LoweringState} {P : Prop}

/-- The trap in the place of a failure adds no condition. -/
theorem UpToLines.sameIf_checkOrTrap (ho : o.UpToLines o') {expected : Fingerprint}
    (h : Lower.SameIf (o.check expected).run (o'.check expected).run s P) :
    Lower.SameIf (o.checkOrTrap expected) (o'.checkOrTrap expected) s P :=
  h.bind_left (ho.check expected) _

/-- Neither does dropping the value. -/
theorem UpToLines.sameIf_evaluateAndDrop (ho : o.UpToLines o')
    (h : Lower.SameIf o.infer.run o'.infer.run s P) :
    Lower.SameIf o.evaluateAndDrop o'.evaluateAndDrop s P :=
  Lower.SameIf.bind_left ho.inferOrTrap (h.bind_left ho.infer _) _

/-- A conversion that follows is the same. -/
theorem sameIf_lowerAs {x y : Attempt ValueInfo} {span : Span}
    (hlines : (ofInference span x).UpToLines (ofInference span y))
    (h : Lower.SameIf (ofInference span x).infer.run (ofInference span y).infer.run s P)
    (mode : Option Fingerprint) :
    Lower.SameIf ((ofInference span x).lowerAs mode).run ((ofInference span y).lowerAs mode).run s P := by
  cases mode with
  | none => exact h
  | some expected => exact h.bind_left hlines.infer _

end Operand

end StackLowering

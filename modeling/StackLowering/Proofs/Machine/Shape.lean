import StackLowering.Machine.Instruction

/-!
# Stack shapes

Code is checked for its use of the stack by running it on shapes instead of values: the shape of a
stack is the list of the categories of its cells. A trap ends the run, so nothing is known of the
stack of the code behind it, and that code is free to assume what it needs. After a trap the shape is
therefore open: it lists the cells that were pushed since, and any others may lie below.

The check is a computation (`StackContext.check?`), so that it can be carried out on a piece of code.
Reasoning about it goes through `StackContext.Runs`, which says that code leads from one list of
categories to another, whatever part of the first is known. It composes along `++`, a trap leads from
anywhere to anywhere, and there is one rule for each instruction.
-/

namespace StackLowering

/-- The category of the value that a constant pushes; a symbol is no value. -/
def Constant.category? : Constant → Option Category
  | i32 _ => some .i32
  | i64 _ => some .i64
  | f32 _ => some .f32
  | f64 _ => some .f64
  | symbol _ => none

/-- What a call takes from the stack, the last argument on top, and what it leaves there. -/
structure Signature where
  /-- The categories of the arguments in order. -/
  params : List Category
  /-- The category of the result, if there is one. -/
  result? : Option Category
deriving DecidableEq, Repr

/-- What the stack use of code depends on: what its references stand for, the category of the result
of the function and that of addresses. -/
structure StackContext (κ σ ρ : Type) where
  /-- The category of a constant. -/
  constant? : κ → Option Category
  /-- What a function takes and leaves. -/
  callee? : σ → Option Signature
  /-- The category of a local variable. -/
  slot? : ρ → Option Category
  /-- The category of the result, if there is one. -/
  result? : Option Category
  /-- The category of addresses. -/
  address : Category

/-- What is known of a stack. -/
structure Shape where
  /-- The known cells, top first. -/
  cells : List Category
  /-- Whether there may be other cells below. -/
  isOpen : Bool
deriving DecidableEq, Repr

namespace Shape

/-- The stack without cells. -/
def empty : Shape := ⟨[], false⟩

/-- The stack of code that is never reached. -/
def unreachable : Shape := ⟨[], true⟩

/-- Adds a cell. -/
def push (s : Shape) (c : Category) : Shape := { s with cells := c :: s.cells }

/-- Takes a cell of the given category. -/
def pop (s : Shape) (c : Category) : Option Shape :=
  match s.cells with
  | [] => if s.isOpen then some s else none
  | top :: cells => if top = c then some { s with cells } else none

/-- Takes a cell of any category. -/
def drop (s : Shape) : Option Shape :=
  match s.cells with
  | [] => if s.isOpen then some s else none
  | _ :: cells => some { s with cells }

/-- Takes cells of the given categories, the first one from the top. -/
def popAll : List Category → Shape → Option Shape
  | [], s => some s
  | c :: cs, s => (s.pop c).bind (popAll cs)

/-- What follows a return: no cell may be left, and the stack is empty again. -/
def finish (s : Shape) : Option Shape := if s.cells = [] then some empty else none

/-! ### Stacks of a shape -/

/-- A list of cells begins with the known ones, and there are others only if there may be. -/
def Fits (s : Shape) (cells : List Category) : Prop :=
  ∃ below, cells = s.cells ++ below ∧ (s.isOpen = false → below = [])

variable {s : Shape} {c : Category} {cells : List Category}

theorem fits_empty : empty.Fits [] := ⟨[], rfl, fun _ ↦ rfl⟩

/-- Behind a trap the stack may be assumed to be anything. -/
theorem fits_unreachable (cells : List Category) : unreachable.Fits cells :=
  ⟨cells, rfl, nofun⟩

/-- A pushed cell is known, also behind a trap. -/
theorem Fits.push (h : s.Fits cells) (c : Category) : (s.push c).Fits (c :: cells) := by
  obtain ⟨below, rfl, hclosed⟩ := h
  exact ⟨below, rfl, hclosed⟩

/-- A cell that is known to be there can be taken off. If the shape is open and lists no cell, it is
assumed. -/
theorem Fits.pop (h : s.Fits (c :: cells)) : ∃ s', s.pop c = some s' ∧ s'.Fits cells := by
  obtain ⟨below, heq, hclosed⟩ := h
  unfold Shape.pop
  cases hs : s.cells with
  | nil =>
    -- the cell is one of the unknown ones, of which there are any number
    rw [hs] at heq
    cases hopen : s.isOpen with
    | false => simp [hclosed hopen] at heq
    | true => exact ⟨s, by simp, cells, by simp [hs], by simp [hopen]⟩
  | cons top rest =>
    rw [hs] at heq
    obtain ⟨rfl, rfl⟩ := List.cons.inj heq
    exact ⟨_, if_pos rfl, below, rfl, hclosed⟩

/-- A cell of any category can be dropped. -/
theorem Fits.drop (h : s.Fits (c :: cells)) : ∃ s', s.drop = some s' ∧ s'.Fits cells := by
  obtain ⟨s', hpop, hs'⟩ := h.pop
  refine ⟨s', ?_, hs'⟩
  rw [← hpop, Shape.drop, Shape.pop]
  unfold Shape.pop at hpop
  cases hs : s.cells with
  | nil => rfl
  | cons top rest =>
    by_cases htop : top = c
    · simp [htop]
    · simp [hs, htop] at hpop

/-- Several cells are taken off one after the other, the top of the stack first. -/
theorem Fits.popAll {cs : List Category} (h : s.Fits (cs ++ cells)) :
    ∃ s', s.popAll cs = some s' ∧ s'.Fits cells := by
  induction cs generalizing s with
  | nil => exact ⟨s, rfl, h⟩
  | cons c cs ih =>
    obtain ⟨s₁, hpop, hs₁⟩ := (show s.Fits (c :: (cs ++ cells)) from h).pop
    obtain ⟨s', hall, hs'⟩ := ih hs₁
    exact ⟨s', by simp [Shape.popAll, hpop, hall], hs'⟩

/-- A function may end where no cell is left. -/
theorem Fits.finish (h : s.Fits []) : s.finish = some empty := by
  obtain ⟨below, heq, -⟩ := h
  rw [Shape.finish, if_pos (List.append_eq_nil_iff.1 heq.symm).1]

end Shape

/-! ### Running code on shapes -/

namespace StackContext

variable {κ σ ρ : Type}

/-- The stack after a call. -/
def call? (signature : Signature) (argc : UInt8) (s : Shape) : Option Shape :=
  if argc.toNat = signature.params.length then
    (s.popAll signature.params.reverse).map fun s ↦
      match signature.result? with
      | some c => s.push c
      | none => s
  else none

/-- The stack after an instruction. -/
def step? (ctx : StackContext κ σ ρ) : Instruction κ σ ρ → Shape → Option Shape
  | .const constant, s => (ctx.constant? constant).map s.push
  | .pop, s => s.drop
  | .getLocal slot, s => (ctx.slot? slot).map s.push
  | .setLocal slot, s => (ctx.slot? slot).bind s.pop
  | .teeLocal slot, s => (ctx.slot? slot).bind fun c ↦ (s.pop c).map (·.push c)
  | .add width, s | .mul width, s =>
    (s.popAll [width.category, width.category]).map (·.push width.category)
  | .convert source target _, s => (s.pop source).map (·.push target)
  | .extend8S, s | .extend16S, s | .mask8, s | .mask16, s => (s.pop .i32).map (·.push .i32)
  | .nonZero width, s => (s.pop width.category).map (·.push .i32)
  | .store category _ _, s => s.popAll [category, ctx.address]
  | .call callee argc, s => (ctx.callee? callee).bind fun signature ↦ call? signature argc s
  | .ret, s => ctx.result?.bind fun c ↦ (s.pop c).bind Shape.finish
  | .retVoid, s => if ctx.result? = none then s.finish else none
  | .trap, _ => some .unreachable

/-- The stack after a run of instructions. -/
def run? (ctx : StackContext κ σ ρ) : List (Instruction κ σ ρ) → Shape → Option Shape
  | [], s => some s
  | i :: is, s => (ctx.step? i s).bind (ctx.run? is)

/-- Whether code starts and ends with an empty stack, and finds there what it needs. -/
def check? (ctx : StackContext κ σ ρ) (code : List (Instruction κ σ ρ)) : Bool :=
  (ctx.run? code .empty).any (·.cells.isEmpty)

/-- The check of code in two pieces: the second one starts with the shape that the first one leaves. -/
theorem run?_append (ctx : StackContext κ σ ρ) (code code' : List (Instruction κ σ ρ))
    (s : Shape) : ctx.run? (code ++ code') s = (ctx.run? code s).bind (ctx.run? code') := by
  induction code generalizing s with
  | nil => rfl
  | cons i is ih =>
    simp only [List.cons_append, run?, Option.bind_assoc]
    exact congrArg _ (funext ih)

/-- Code that runs still does so after its references were changed, if every instruction does. -/
theorem run?_map {κ' σ' ρ' : Type} {ctx : StackContext κ σ ρ} {ctx' : StackContext κ' σ' ρ'}
    {change : Instruction κ σ ρ → Instruction κ' σ' ρ'} {code : List (Instruction κ σ ρ)}
    (h : ∀ i ∈ code, ∀ s s', ctx.step? i s = some s' → ctx'.step? (change i) s = some s')
    {s s' : Shape} (hrun : ctx.run? code s = some s') :
    ctx'.run? (code.map change) s = some s' := by
  induction code generalizing s with
  | nil => exact hrun
  | cons i is ih =>
    obtain ⟨s₁, hstep, hrest⟩ := Option.bind_eq_some_iff.1 hrun
    have hrest' := ih (fun i hi ↦ h i (List.mem_cons_of_mem _ hi)) hrest
    rw [List.map_cons, run?, h i List.mem_cons_self s s₁ hstep]
    exact hrest'

/-- Code that passes the check still does so after its references were changed, if every instruction
runs as before. -/
theorem check?_map {κ' σ' ρ' : Type} {ctx : StackContext κ σ ρ} {ctx' : StackContext κ' σ' ρ'}
    {change : Instruction κ σ ρ → Instruction κ' σ' ρ'} {code : List (Instruction κ σ ρ)}
    (h : ∀ i ∈ code, ∀ s s', ctx.step? i s = some s' → ctx'.step? (change i) s = some s')
    (hcheck : ctx.check? code = true) : ctx'.check? (code.map change) = true := by
  obtain ⟨s, hrun, hs⟩ := (Option.any_eq_true ..).1 hcheck
  exact (Option.any_eq_true ..).2 ⟨s, run?_map h hrun, hs⟩

/-! ### Code that leads from one stack to another -/

variable {ctx : StackContext κ σ ρ} {code code' : List (Instruction κ σ ρ)}
  {cells cells' cells'' : List Category} {c : Category}

/-- Code finds what it needs on every stack of the given cells, and leaves a stack of the other
given cells. -/
def Runs (ctx : StackContext κ σ ρ) (code : List (Instruction κ σ ρ))
    (cells cells' : List Category) : Prop :=
  ∀ s : Shape, s.Fits cells → ∃ s', ctx.run? code s = some s' ∧ s'.Fits cells'

namespace Runs

theorem nil (cells : List Category) : ctx.Runs [] cells cells :=
  fun s hs ↦ ⟨s, rfl, hs⟩

/-- Pieces of code compose if the second one starts where the first one ends. -/
theorem append (h : ctx.Runs code cells cells') (h' : ctx.Runs code' cells' cells'') :
    ctx.Runs (code ++ code') cells cells'' := by
  intro s hs
  obtain ⟨s₁, hrun, hs₁⟩ := h s hs
  obtain ⟨s₂, hrun', hs₂⟩ := h' s₁ hs₁
  exact ⟨s₂, by rw [run?_append, hrun, Option.bind_some, hrun'], hs₂⟩

/-- Code that runs on the empty stack and leaves nothing there passes the check. -/
theorem check? (h : ctx.Runs code [] []) : ctx.check? code = true := by
  obtain ⟨s, hrun, below, heq, -⟩ := h .empty Shape.fits_empty
  rw [StackContext.check?, hrun, Option.any_some, (List.append_eq_nil_iff.1 heq.symm).1]
  rfl

/-- One instruction runs if its step does. -/
theorem of_step? {i : Instruction κ σ ρ}
    (h : ∀ s : Shape, s.Fits cells → ∃ s', ctx.step? i s = some s' ∧ s'.Fits cells') :
    ctx.Runs [i] cells cells' := by
  intro s hs
  obtain ⟨s', hstep, hs'⟩ := h s hs
  exact ⟨s', by simp [run?, hstep], hs'⟩

/-- Nothing is known of the stack of code behind a trap. -/
theorem trap (cells cells' : List Category) : ctx.Runs [.trap] cells cells' :=
  of_step? fun _ _ ↦ ⟨_, rfl, Shape.fits_unreachable cells'⟩

/-- A constant is pushed with the category that the pool tells. -/
theorem const {constant : κ} (h : ctx.constant? constant = some c) :
    ctx.Runs [.const constant] cells (c :: cells) :=
  of_step? fun s hs ↦ ⟨s.push c, by simp [step?, h], hs.push c⟩

theorem pop : ctx.Runs [.pop] (c :: cells) cells :=
  of_step? fun _ hs ↦ hs.drop

theorem getLocal {slot : ρ} (h : ctx.slot? slot = some c) :
    ctx.Runs [.getLocal slot] cells (c :: cells) :=
  of_step? fun s hs ↦ ⟨s.push c, by simp [step?, h], hs.push c⟩

/-- A value is stored if it has the category of the slot. -/
theorem setLocal {slot : ρ} (h : ctx.slot? slot = some c) :
    ctx.Runs [.setLocal slot] (c :: cells) cells := by
  refine of_step? fun s hs ↦ ?_
  obtain ⟨s', hpop, hs'⟩ := hs.pop
  exact ⟨s', by simp [step?, h, hpop], hs'⟩

/-- A value is kept and stays on the stack. -/
theorem teeLocal {slot : ρ} (h : ctx.slot? slot = some c) :
    ctx.Runs [.teeLocal slot] (c :: cells) (c :: cells) := by
  refine of_step? fun s hs ↦ ?_
  obtain ⟨s', hpop, hs'⟩ := hs.pop
  exact ⟨s'.push c, by simp [step?, h, hpop], hs'.push c⟩

/-- An instruction that takes some cells and leaves one. -/
theorem of_popAll_push {i : Instruction κ σ ρ} (taken : List Category)
    (h : ∀ s, ctx.step? i s = (s.popAll taken).map (·.push c)) :
    ctx.Runs [i] (taken ++ cells) (c :: cells) := by
  refine of_step? fun s hs ↦ ?_
  obtain ⟨s', hpop, hs'⟩ := hs.popAll
  exact ⟨s'.push c, by rw [h, hpop, Option.map_some], hs'.push c⟩

theorem add (width : Width) :
    ctx.Runs [.add width] (width.category :: width.category :: cells) (width.category :: cells) :=
  of_popAll_push [_, _] fun _ ↦ rfl

theorem mul (width : Width) :
    ctx.Runs [.mul width] (width.category :: width.category :: cells) (width.category :: cells) :=
  of_popAll_push [_, _] fun _ ↦ rfl

/-- An instruction that replaces a cell. -/
theorem of_pop_push {i : Instruction κ σ ρ} {c' : Category}
    (h : ∀ s, ctx.step? i s = (s.pop c').map (·.push c)) :
    ctx.Runs [i] (c' :: cells) (c :: cells) := by
  refine of_step? fun s hs ↦ ?_
  obtain ⟨s', hpop, hs'⟩ := hs.pop
  exact ⟨s'.push c, by rw [h, hpop, Option.map_some], hs'.push c⟩

/-- A conversion names both categories, so that nothing has to be known about it. -/
theorem convert (source target : Category) (isSigned : Bool) :
    ctx.Runs [.convert source target isSigned] (source :: cells) (target :: cells) :=
  of_pop_push fun _ ↦ rfl

theorem extend8S : ctx.Runs [.extend8S] (.i32 :: cells) (.i32 :: cells) :=
  of_pop_push fun _ ↦ rfl

theorem extend16S : ctx.Runs [.extend16S] (.i32 :: cells) (.i32 :: cells) :=
  of_pop_push fun _ ↦ rfl

theorem mask8 : ctx.Runs [.mask8] (.i32 :: cells) (.i32 :: cells) :=
  of_pop_push fun _ ↦ rfl

theorem mask16 : ctx.Runs [.mask16] (.i32 :: cells) (.i32 :: cells) :=
  of_pop_push fun _ ↦ rfl

theorem nonZero (width : Width) :
    ctx.Runs [.nonZero width] (width.category :: cells) (.i32 :: cells) :=
  of_pop_push fun _ ↦ rfl

/-- A write takes the value, and the address below it. -/
theorem store (category : Category) (offset : UInt32) (align : UInt8) :
    ctx.Runs [.store category offset align] (category :: ctx.address :: cells) cells := by
  refine of_step? fun s hs ↦ ?_
  obtain ⟨s', hpop, hs'⟩ := (show s.Fits ([category, ctx.address] ++ cells) from hs).popAll
  exact ⟨s', hpop, hs'⟩

/-- A call takes the arguments, the last one on top, and leaves the result, if there is one. -/
theorem call {callee : σ} {argc : UInt8} {signature : Signature}
    (h : ctx.callee? callee = some signature) (hargc : argc.toNat = signature.params.length) :
    ctx.Runs [.call callee argc] (signature.params.reverse ++ cells)
      (signature.result?.toList ++ cells) := by
  refine of_step? fun s hs ↦ ?_
  obtain ⟨s', hpop, hs'⟩ := hs.popAll
  simp only [step?, h, Option.bind_some, call?, if_pos hargc, hpop, Option.map_some]
  cases signature.result? with
  | none => exact ⟨s', rfl, hs'⟩
  | some c => exact ⟨s'.push c, rfl, hs'.push c⟩

/-- A return with a value takes the only cell that is left. -/
theorem ret (h : ctx.result? = some c) : ctx.Runs [.ret] [c] [] := by
  refine of_step? fun s hs ↦ ?_
  obtain ⟨s', hpop, hs'⟩ := hs.pop
  exact ⟨.empty, by simp [step?, h, hpop, hs'.finish], Shape.fits_empty⟩

/-- A return without a value needs an empty stack. -/
theorem retVoid (h : ctx.result? = none) : ctx.Runs [.retVoid] [] [] :=
  of_step? fun s hs ↦ ⟨.empty, by simp [step?, h, hs.finish], Shape.fits_empty⟩

end Runs

end StackContext

end StackLowering

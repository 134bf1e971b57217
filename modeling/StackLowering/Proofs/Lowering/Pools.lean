import StackLowering.Proofs.Lowering.Capacity
import StackLowering.Proofs.Machine.Emission
import StackLowering.Proofs.Machine.Reading

/-!
# Functions that share a pool

A function is compiled with the constants and symbols of earlier functions in the pool
(`Callable.compile`), and a script is compiled by doing so with one function after the other
(`Script.compile_eq`). What is in the pool decides where the constants of a function are found, and so
which of its instructions are wide and where each of them starts.

None of this can be seen by a reader who looks up what the instructions refer to: as long as the pools
fit into 16 bits, a function reads the same from every pool (`Callable.compile_addAll`). The functions
before it read the same as well, since a pool grows at its end only (`ConstantPool.Continues`).

Two things are kept apart here. That a pool grows at its end (`ConstantPool.IsPrefix`) holds of every
pool. That an instruction is read as it was written needs a pool in which every constant stands once
(`ConstantPool.Listed`) and which has at most 65536 entries, since an index is cut to 16 bits. The
bound is on the pool in the end, and so on all pools before it.
-/

namespace StackLowering

/-! ### Reading code -/

/-- An instruction as it is read from code with a pool at hand. An index that leads nowhere is read as
nothing. -/
abbrev ReadInstruction : Type := Instruction (Option Constant) (Option String) UInt32

namespace Instruction

/-- An instruction as it is read if its constant or symbol is found. The code keeps the low 16 bits of
a slot. -/
def written : SymbolicInstruction → ReadInstruction := map some some (·.toUInt16.toUInt32)

/-- In a pool that fits into 16 bits, an instruction is read as it was written. -/
theorem resolve_shortened {p : ConstantPool} (h : p.Listed) (hsize : p.size ≤ 65536)
    {i : SymbolicInstruction} (hi : ∀ c, i.constant? = some c → c ∈ p.entries.toList) :
    (i.shortened p).resolve p = i.written := by
  cases i with
  | const c => exact congrArg const (h.get?_toUInt16 hsize (hi c rfl))
  | call callee argc =>
    have hget := h.get?_toUInt16 hsize (hi (.symbol callee) rfl)
    exact congrArg (call · argc) (ConstantPool.symbol?_eq_some_iff.2 hget)
  | _ => rfl

end Instruction

namespace ConstantPool

variable {p p' : ConstantPool} {code : List UInt8} {is : List SymbolicInstruction}

/-- The instructions in some code, with what they refer to in a pool. -/
def read (p : ConstantPool) (code : List UInt8) : Except DecodeError (List ReadInstruction) :=
  (decode code).map (List.map (Instruction.resolve p))

/-- Code that decodes to instructions over a pool is read as they were written, if the pool holds all
that they refer to. -/
theorem read_of_decode (h : p.Listed) (hsize : p.size ≤ 65536)
    (his : ∀ i ∈ is, ∀ c, i.constant? = some c → c ∈ p.entries.toList)
    (hcode : decode code = .ok (is.map (·.shortened p))) :
    p.read code = .ok (is.map Instruction.written) := by
  rw [read, hcode]
  show Except.ok ((is.map (·.shortened p)).map (Instruction.resolve p)) = _
  rw [List.map_map]
  exact congrArg _ (List.map_congr_left fun i hi ↦ Instruction.resolve_shortened h hsize (his i hi))

/-! ### Pools that grow -/

/-- One pool is another one with more entries at the end. -/
def IsPrefix (p p' : ConstantPool) : Prop := p.entries.toList <+: p'.entries.toList

/-- A constant is added at the end, or found where it is. -/
theorem IsPrefix.add (p : ConstantPool) (c : Constant) : p.IsPrefix (p.add c).2 := by
  rcases p.add_eq c with ⟨place, -, heq⟩ | ⟨-, heq⟩
  · rw [heq]
    exact List.prefix_rfl
  · rw [heq, IsPrefix, Array.toList_push]
    exact List.prefix_append _ _

/-- The constant or symbol of an instruction is added in the same way. -/
theorem IsPrefix.intern (p : ConstantPool) (i : SymbolicInstruction) : p.IsPrefix (p.intern i).2 := by
  rw [intern_snd]
  cases i.constant? with
  | none => exact List.prefix_rfl
  | some c => exact .add p c

/-- A pool with more entries is not smaller. -/
theorem IsPrefix.size_le (h : p.IsPrefix p') : p.size ≤ p'.size := by
  have hlength := List.IsPrefix.length_le h
  rwa [Array.length_toList, Array.length_toList] at hlength

/-- A place keeps its constant. -/
theorem IsPrefix.get? (h : p.IsPrefix p') {place : UInt32} {c : Constant}
    (hc : p.get? place = some c) : p'.get? place = some c := by
  obtain ⟨added, hadded⟩ := h
  rw [ConstantPool.get?, ← Array.getElem?_toList] at hc ⊢
  rw [← hadded, List.getElem?_append_left (List.getElem?_eq_some_iff.1 hc).1, hc]

/-- A place keeps its symbol. -/
theorem IsPrefix.symbol? (h : p.IsPrefix p') {place : UInt32} {name : String}
    (hname : p.symbol? place = some name) : p'.symbol? place = some name :=
  symbol?_eq_some_iff.2 (h.get? (symbol?_eq_some_iff.1 hname))

/-- An instruction whose constant or symbol is found refers to the same in a pool with more entries. -/
theorem IsPrefix.resolve (h : p.IsPrefix p') {i : IndexedInstruction UInt16}
    {j : SymbolicInstruction} (hij : i.resolve p = j.written) : i.resolve p' = j.written := by
  rw [← hij]
  cases i with
  | const index =>
    have hfound : ∃ c, p.get? index.toUInt32 = some c := by
      cases j <;> simp_all [Instruction.resolve, Instruction.written, Instruction.map]
    obtain ⟨c, hc⟩ := hfound
    exact congrArg Instruction.const ((h.get? hc).trans hc.symm)
  | call index argc =>
    have hfound : ∃ name, p.symbol? index.toUInt32 = some name := by
      cases j <;> simp_all [Instruction.resolve, Instruction.written, Instruction.map]
    obtain ⟨name, hname⟩ := hfound
    exact congrArg (Instruction.call · argc) ((h.symbol? hname).trans hname.symm)
  | _ => rfl

/-- Nothing of a pool moves, and so whatever code refers to in it keeps its meaning. -/
structure Continues (p p' : ConstantPool) : Prop where
  isPrefix : p.IsPrefix p'
  read : ∀ {code : List UInt8} {is : List SymbolicInstruction},
    p.read code = .ok (is.map Instruction.written) → p'.read code = .ok (is.map Instruction.written)

/-- What is found in a pool is found in one with more entries at the end. So code that was read
completely is read as before. -/
theorem IsPrefix.continues (h : p.IsPrefix p') : p.Continues p' := by
  refine ⟨h, fun {code is} hread ↦ ?_⟩
  cases hcode : decode code with
  | error error => simp [ConstantPool.read, hcode, Except.map] at hread
  | ok decoded =>
    rw [ConstantPool.read, hcode] at hread ⊢
    have hread : decoded.map (Instruction.resolve p) = is.map Instruction.written :=
      Except.ok.inj hread
    refine congrArg Except.ok ?_
    rw [← List.forall₂_eq_eq_eq, List.forall₂_map_left_iff, List.forall₂_map_right_iff] at hread ⊢
    exact hread.imp fun _ _ ↦ h.resolve

end ConstantPool

/-- While code is assembled the pool grows at its end. -/
theorem Assembler.isPrefix_pushAll (code : List LocatedInstruction) (a : Assembler) :
    a.pool.IsPrefix (a.pushAll code).pool := by
  induction code generalizing a with
  | nil => exact List.prefix_rfl
  | cons i code ih =>
    exact List.IsPrefix.trans (ConstantPool.IsPrefix.intern a.pool i.instruction)
      (ih (a.pushLocated i))

/-! ### Compiling a function -/

/-- What a reader of a function gets to know from its code and a pool. -/
structure FunctionReading where
  /-- Its name. -/
  name : String
  /-- Its instructions. -/
  instructions : Except DecodeError (List ReadInstruction)
  /-- The line of each instruction. -/
  lines : List UInt32
  /-- The number of its parameters. -/
  paramCount : Nat
  /-- The types of its slots. -/
  locals : Array Fingerprint
deriving DecidableEq

/-- A compiled function as it is read with a pool at hand. -/
def CompiledFunction.reading (pool : ConstantPool) (f : CompiledFunction) : FunctionReading :=
  { name := f.name
    instructions := pool.read f.chunk.code
    lines := f.chunk.instructionLines
    paramCount := f.paramCount
    locals := f.locals }

namespace LoweredFunction

/-- A lowered function as it is to be read. -/
def reading (g : LoweredFunction) : FunctionReading :=
  { name := g.name
    instructions := .ok (g.output.instructions.map Instruction.written)
    lines := g.output.code.map (·.line)
    paramCount := g.paramCount
    locals := g.locals }

/-- In a pool that fits into 16 bits, a function is read as it was written. -/
theorem reading_assemble (g : LoweredFunction) {pool : ConstantPool} (hpool : pool.Listed)
    (hsize : (g.assemble pool).2.size ≤ 65536) :
    (g.assemble pool).1.reading (g.assemble pool).2 = g.reading := by
  have hlisted : (g.assemble pool).2.Listed :=
    Assembler.listed_pushAll (a := .start pool) g.output.code hpool
  have hassembled := g.assembledTo_assemble (.refl (g.assemble pool).2)
  have hread := ConstantPool.read_of_decode hlisted hsize (hassembled.mem_entries hlisted)
    (hassembled.decode_code hlisted)
  have hlines : (g.assemble pool).1.chunk.instructionLines = g.output.code.map (·.line) :=
    Chunk.instructionLines_eq (Assembler.bytes_pushAll (a := .start pool) (.refl _))
  rw [CompiledFunction.reading, hread, hlines]
  rfl

end LoweredFunction

/-- A function that is read as it was written is read in the same way from a pool with more entries. -/
theorem ConstantPool.Continues.reading {p p' : ConstantPool} (h : p.Continues p')
    {f : CompiledFunction} {g : LoweredFunction} (hf : f.reading p = g.reading) :
    f.reading p' = g.reading := by
  have hread : p.read f.chunk.code = .ok (g.output.instructions.map Instruction.written) :=
    congrArg FunctionReading.instructions hf
  rw [← hf, CompiledFunction.reading, CompiledFunction.reading, hread, h.read hread]

/-- What compiling a function leads to. -/
structure FunctionCompilation where
  /-- The function. -/
  function : CompiledFunction
  /-- The constants and symbols, with those of the function. -/
  pool : ConstantPool
  /-- What was reported. -/
  errors : List CompileError
  /-- What was learnt about constructions. -/
  findings : List (NodeId × Fingerprint)
  /-- The state after the function. -/
  state : LoweringState

/-- Compiles a function with the constants and symbols of earlier functions in the pool. -/
def Callable.compile (options : CompilerOptions) (f : Callable) (body : List Stmt) (span : Span)
    (s : LoweringState) (pool : ConstantPool) : FunctionCompilation :=
  let (lowered, state) := f.lower options body span s
  let (function, pool) := lowered.assemble pool
  { function, pool, state, errors := lowered.output.errors, findings := lowered.output.findings }

namespace Callable

variable {options : CompilerOptions} {f : Callable} {body : List Stmt} {span : Span}
  {s : LoweringState} {pool : ConstantPool}

theorem listed_compile (h : pool.Listed) : (f.compile options body span s pool).pool.Listed :=
  Assembler.listed_pushAll (a := .start pool) _ h

theorem isPrefix_compile : pool.IsPrefix (f.compile options body span s pool).pool :=
  Assembler.isPrefix_pushAll _ (.start pool)

/-- A compiled function reads as the lowered one, whatever is in the pool before it. -/
theorem reading_compile (h : pool.Listed)
    (hsize : (f.compile options body span s pool).pool.size ≤ 65536) :
    (f.compile options body span s pool).function.reading (f.compile options body span s pool).pool =
      (f.lower options body span s).1.reading :=
  (f.lower options body span s).1.reading_assemble h hsize

/-- Whatever constants and symbols two pools start with, if they fit into 16 bits in the end, then a
function that is compiled with each of them is decoded to the same instructions, with the same
constants and symbols at their places in the respective pool, the same lines, the same slots and the
same reports, and leaves the same state. Each pool is continued at its end, and code of earlier
functions refers to the same as before. -/
theorem compile_addAll (options : CompilerOptions) (f : Callable) (body : List Stmt) (span : Span)
    (s : LoweringState) {constants constants' : List Constant}
    (hsize : (f.compile options body span s (.addAll .empty constants)).pool.size ≤ 65536)
    (hsize' : (f.compile options body span s (.addAll .empty constants')).pool.size ≤ 65536) :
    let c := f.compile options body span s (.addAll .empty constants)
    let c' := f.compile options body span s (.addAll .empty constants')
    (∃ is : List SymbolicInstruction,
        c.pool.read c.function.chunk.code = .ok (is.map Instruction.written)) ∧
      c.function.reading c.pool = c'.function.reading c'.pool ∧
      c.errors = c'.errors ∧ c.findings = c'.findings ∧ c.state = c'.state ∧
      (ConstantPool.empty.addAll constants).Continues c.pool ∧
      (ConstantPool.empty.addAll constants').Continues c'.pool := by
  intro c c'
  have hlisted (constants : List Constant) : (ConstantPool.empty.addAll constants).Listed :=
    ConstantPool.listed_empty.addAll constants
  have hreading : c.function.reading c.pool = (f.lower options body span s).1.reading :=
    reading_compile (hlisted constants) hsize
  have hreading' : c'.function.reading c'.pool = (f.lower options body span s).1.reading :=
    reading_compile (hlisted constants') hsize'
  exact ⟨⟨_, congrArg FunctionReading.instructions hreading⟩, hreading.trans hreading'.symm, rfl, rfl,
    rfl, isPrefix_compile.continues, isPrefix_compile.continues⟩

/-- With an empty pool a constant is at place 0, and behind 256 others it is at a place of two bytes. -/
theorem compile_addAll_wide :
    let s : LoweringState := { symbols := { registry := .withPrimitives .w32 } }
    let constants : List Constant := (List.range 256).map fun n ↦ .i64 (.ofNat n)
    let compiled := (function "main" [] voidType).compile {} [.ofInteger 1000] .nowhere s
    let c := compiled (.addAll .empty [])
    let c' := compiled (.addAll .empty constants)
    c.function.chunk.code = [0, 0, 2, 26] ∧
      c'.function.chunk.code = [1, 1, 0, 2, 26] ∧
      c.function.reading c.pool = c'.function.reading c'.pool ∧
      (ConstantPool.empty.addAll constants).Continues c'.pool := by
  intro s constants compiled c c'
  obtain ⟨hsize, hcode⟩ : c.pool.size ≤ 65536 ∧ c.function.chunk.code = [0, 0, 2, 26] := by
    decide +kernel
  obtain ⟨hsize', hcode'⟩ : c'.pool.size ≤ 65536 ∧
      c'.function.chunk.code = [1, 1, 0, 2, 26] := by
    decide +kernel
  obtain ⟨-, hreading, -, -, -, -, hcontinues⟩ := compile_addAll {} (function "main" [] voidType)
    [.ofInteger 1000] .nowhere s hsize hsize'
  exact ⟨hcode, hcode', hreading, hcontinues⟩

end Callable

/-! ### Compiling one function after the other -/

/-- Compiles functions one after the other, each with the state and the pool that those before it
leave. -/
def compileFunctions (options : CompilerOptions) : List (FunctionDecl × Callable) →
    LoweringState → ConstantPool → List FunctionCompilation × LoweringState × ConstantPool
  | [], s, pool => ([], s, pool)
  | (d, f) :: rest, s, pool =>
    let c := f.compile options d.body d.span s pool
    let (compiled, s, pool) := compileFunctions options rest c.state c.pool
    (c :: compiled, s, pool)

variable {options : CompilerOptions} {fs : List (FunctionDecl × Callable)} {s : LoweringState}
  {pool : ConstantPool}

/-- It does not matter whether all functions are lowered before the first one is assembled. -/
theorem compileFunctions_eq (options : CompilerOptions) (fs : List (FunctionDecl × Callable))
    (s : LoweringState) (pool : ConstantPool) :
    let lowered := lowerFunctions options fs s
    let compiled := compileFunctions options fs s pool
    compiled.1.map (·.function) = (assembleFunctions lowered.1 pool).1 ∧
      compiled.1.map (·.errors) = lowered.1.map (·.output.errors) ∧
      compiled.1.map (·.findings) = lowered.1.map (·.output.findings) ∧
      compiled.2 = (lowered.2, (assembleFunctions lowered.1 pool).2) := by
  induction fs generalizing s pool with
  | nil => exact ⟨rfl, rfl, rfl, rfl⟩
  | cons q fs ih =>
    obtain ⟨hfunctions, herrors, hfindings, hend⟩ :=
      ih (q.2.compile options q.1.body q.1.span s pool).state
        (q.2.compile options q.1.body q.1.span s pool).pool
    exact ⟨congrArg (List.cons _) hfunctions, congrArg (List.cons _) herrors,
      congrArg (List.cons _) hfindings, hend⟩

/-- A script is compiled function by function. -/
theorem Script.compile_eq (options : CompilerOptions) (registry : Registry) (script : Script) :
    let declared := declareFunctions script { registry }
    let compiled := compileFunctions options declared.1.1 { symbols := declared.2 } .empty
    script.compile options registry =
      { functions := compiled.1.map (·.function)
        pool := compiled.2.2
        errors := declared.1.2 ++ compiled.1.flatMap (·.errors)
        annotations := ⟨compiled.1.flatMap (·.findings)⟩
        registry := compiled.2.1.symbols.registry } := by
  intro declared compiled
  obtain ⟨hfunctions, herrors, hfindings, hend⟩ :=
    compileFunctions_eq options declared.1.1 { symbols := declared.2 } .empty
  rw [hfunctions, hend, List.flatMap_def, herrors, List.flatMap_def, hfindings]
  simp only [Script.compile, List.flatMap_def, declared]

/-- While functions are compiled one after the other the pool grows at its end. -/
theorem isPrefix_compileFunctions :
    pool.IsPrefix (compileFunctions options fs s pool).2.2 := by
  induction fs generalizing s pool with
  | nil => exact List.prefix_rfl
  | cons q fs ih => exact List.IsPrefix.trans Callable.isPrefix_compile ih

/-- If the pool fits into 16 bits in the end, then every function is read from it as it was written,
whatever was compiled after it. -/
theorem reading_compileFunctions (hpool : pool.Listed)
    (hsize : (compileFunctions options fs s pool).2.2.size ≤ 65536) :
    (compileFunctions options fs s pool).1.map
        (·.function.reading (compileFunctions options fs s pool).2.2) =
      (lowerFunctions options fs s).1.map (·.reading) := by
  induction fs generalizing s pool with
  | nil => rfl
  | cons q fs ih =>
    let c := q.2.compile options q.1.body q.1.span s pool
    have hlater : c.pool.IsPrefix (compileFunctions options fs c.state c.pool).2.2 :=
      isPrefix_compileFunctions
    have hfirst : c.function.reading c.pool = (q.2.lower options q.1.body q.1.span s).1.reading :=
      Callable.reading_compile hpool (Nat.le_trans hlater.size_le hsize)
    -- the functions behind the first one leave everything in place that its code refers to
    exact congrArg₂ List.cons (hlater.continues.reading hfirst)
      (ih (Callable.listed_compile hpool) hsize)

end StackLowering

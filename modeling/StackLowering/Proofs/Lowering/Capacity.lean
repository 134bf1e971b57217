import StackLowering.Proofs.Lowering.References
import StackLowering.Proofs.Lowering.Script
import StackLowering.Proofs.Machine.Linking

/-!
# How much a script may need

Code has 16 bits for the place of a constant, a symbol or a variable. The code of a function refers to
what was meant exactly if all these places fit, and nothing is reported if they do not
(`Script.compile_renders_iff`). They fit if the pool and the frames have at most 65536 entries
(`Script.renders_of_size_le`).

The symbolic code of lowering refers to constants, symbols and slots of 32 bits, and the bytes to
places of 16 bits. How the two are related is known from the assembler: bytes decode to the symbolic
instructions with places in the pool, each cut off to its low 16 bits
(`LoweredFunction.AssembledTo.decode_code`). The cut loses nothing exactly if the place is below 65536,
and different constants have different places, so that nothing can make up for a place that is lost.

To show that this happens silently, there is a family of scripts with as many constants as one likes
(`Script.ofIntegers`): each evaluates some integers and drops them. It compiles without errors whatever
the registry is, as long as the name of its function is free, and with more than 65536 different
integers its code refers to something else.
-/

namespace StackLowering

/-! ### Assembled functions -/

namespace LoweredFunction.AssembledTo

variable {g : LoweredFunction} {pool : ConstantPool} {c : CompiledFunction}

theorem mem_entries (h : g.AssembledTo pool c) (hpool : pool.Listed) :
    ∀ i ∈ g.output.instructions, ∀ constant, i.constant? = some constant →
      constant ∈ pool.entries.toList :=
  fun i hi constant hc ↦ hpool.mem (h.constants i hi constant hc)

/-- The code of a function is decoded to its instructions, with the low 16 bits of positions and
slots. -/
theorem decode_code (h : g.AssembledTo pool c) (hpool : pool.Listed) :
    decode c.chunk.code = .ok (g.output.instructions.map (·.shortened pool)) := by
  rw [h.code, decode_encodeAll, List.map_map]
  refine congrArg _ (List.map_congr_left fun i hi ↦ ?_)
  exact Instruction.truncated_indexed hpool (h.constants i hi)

theorem renders_iff (h : g.AssembledTo pool c) (hpool : pool.Listed) :
    pool.Renders c.chunk.code g.output.instructions ↔ ∀ i ∈ g.output.instructions, i.Fits pool :=
  ConstantPool.renders_iff hpool (h.mem_entries hpool) (h.decode_code hpool)

end LoweredFunction.AssembledTo

/-! ### Scripts -/

namespace Script

variable {options : CompilerOptions} {registry : Registry} {script : Script}

theorem listed_compile (options : CompilerOptions) (registry : Registry) (script : Script) :
    (script.compile options registry).pool.Listed :=
  listed_assembleFunctions _ ConstantPool.listed_empty

theorem assembledTo_compile (options : CompilerOptions) (registry : Registry) (script : Script) :
    List.Forall₂ (·.AssembledTo (script.compile options registry).pool)
      (script.lowered options registry).1 (script.compile options registry).functions :=
  forall₂_assembleFunctions _ _

theorem errors_compile (options : CompilerOptions) (registry : Registry) (script : Script) :
    (script.compile options registry).errors =
      (declareFunctions script { registry }).1.2 ++
        (script.lowered options registry).1.flatMap (·.output.errors) := rfl

/-- The slots that a function refers to are its own. -/
theorem slot_lt_lowered {g : LoweredFunction}
    (hg : g ∈ (script.lowered options registry).1) (hsize : g.locals.size ≤ UInt32.size)
    {i : SymbolicInstruction} (hi : i ∈ g.output.instructions) {slot : UInt32}
    (hslot : i.slot? = some slot) : slot.toNat < g.locals.size := by
  obtain ⟨q, -, s, -, rfl, -⟩ := mem_lowerFunctions hg
  exact Callable.slot_lt_lower hsize hi hslot

/-- With at most 65536 constants and symbols, and at most 65536 slots in each function, all code refers
to what was meant. -/
theorem renders_of_size_le
    (hpool : (script.compile options registry).pool.size ≤ 65536)
    (hlocals : ∀ f ∈ (script.compile options registry).functions, f.locals.size ≤ 65536) :
    List.Forall₂ (fun g f ↦
        (script.compile options registry).pool.Renders f.chunk.code g.output.instructions)
      (script.lowered options registry).1 (script.compile options registry).functions := by
  have hlisted := script.listed_compile options registry
  have hall := script.assembledTo_compile options registry
  refine List.forall₂_iff_zip.2 ⟨hall.length_eq, fun {g f} hgf ↦ ?_⟩
  have hassembled := List.forall₂_zip hall hgf
  obtain ⟨hg, hf⟩ := List.of_mem_zip hgf
  have hsize : g.locals.size ≤ 65536 := hassembled.locals ▸ hlocals f hf
  refine (hassembled.renders_iff hlisted).2 fun i hi ↦ ⟨fun c hc ↦ ?_, fun slot hslot ↦ ?_⟩
  · have hlt := ConstantPool.position_lt (hassembled.mem_entries hlisted i hi c hc)
    omega
  · have hlt := slot_lt_lowered hg (Nat.le_trans hsize (by decide)) hi hslot
    omega

end Script

/-! ### Scripts full of literals -/

theorem IntRange.contains_toInt64 (value : Int32) :
    (IntRange.signed 32).contains value.toInt64.toInt = true := by
  have hlo := value.le_toInt
  have hhi := value.toInt_lt
  simp only [contains, signed, Int32.toInt_toInt64, Bool.and_eq_true, decide_eq_true_eq]
  omega

/-- A literal is pushed and dropped again. -/
theorem Operand.output_evaluateAndDrop_literal {value : Literal} (h : value.type ≠ voidType)
    (span : Span) (s : LoweringState) :
    ((literal value span).evaluateAndDrop.run s).output =
      { code := [⟨span.line, .const value.constant⟩, ⟨span.line, .pop⟩] } := by
  have hinfer : (literal value span).inferOrTrap.run s =
      ⟨some (.computed value.type), { s with line := span.line },
        { code := [⟨span.line, .const value.constant⟩] }⟩ := rfl
  rw [evaluateAndDrop, Lower.output_bind, hinfer]
  show _ ++ (Lower.run (if value.type = voidType then _ else _) _).output = _
  rw [if_neg h]
  rfl

/-- A statement that evaluates an integer. -/
def Stmt.ofInteger (value : Int32) : Stmt := .expr (.literal (.int value.toInt64) .nowhere) .nowhere

theorem Stmt.output_ofInteger (options : CompilerOptions) (returns : Fingerprint) (value : Int32)
    (s : LoweringState) :
    (((ofInteger value).lower options returns).run s).output =
      { code := [⟨Span.nowhere.line, .const (.i32 value)⟩, ⟨Span.nowhere.line, .pop⟩] } := by
  have hconstant : (Literal.int value.toInt64).constant = .i32 value := by
    rw [Literal.constant, if_pos (IntRange.contains_toInt64 value)]
    simp
  have htype : (Literal.int value.toInt64).type ≠ voidType := by
    rw [Literal.type, if_pos (IntRange.contains_toInt64 value)]
    decide +kernel
  rw [← hconstant]
  exact Operand.output_evaluateAndDrop_literal htype .nowhere _

/-- Statements that evaluate integers report nothing and refer to all of them. -/
theorem Lower.output_forM_ofInteger (options : CompilerOptions) (returns : Fingerprint)
    (values : List Int32) (s : LoweringState) :
    (((values.map Stmt.ofInteger).forM (Stmt.lower options returns)).run s).output.errors = [] ∧
      ∀ value ∈ values, .const (.i32 value) ∈
        (((values.map Stmt.ofInteger).forM (Stmt.lower options returns)).run s).output.instructions := by
  induction values generalizing s with
  | nil => exact ⟨rfl, nofun⟩
  | cons value values ih =>
    obtain ⟨herrors, hconstants⟩ :=
      ih (((Stmt.ofInteger value).lower options returns).run s).state
    have houtput : (((value :: values).map Stmt.ofInteger).forM (Stmt.lower options returns)).run s =
        ((Stmt.ofInteger value).lower options returns >>= fun _ ↦
          (values.map Stmt.ofInteger).forM (Stmt.lower options returns)).run s := rfl
    rw [houtput, Lower.output_bind, Stmt.output_ofInteger, Output.instructions_append]
    refine ⟨herrors, fun value' hvalue' ↦ ?_⟩
    rcases List.mem_cons.1 hvalue' with rfl | hvalue'
    · exact List.mem_append_left _ List.mem_cons_self
    · exact List.mem_append_right _ (hconstants value' hvalue')

/-- A function that evaluates integers reports nothing and refers to all of them. -/
theorem Callable.lower_ofInteger (options : CompilerOptions) (name : String) (values : List Int32)
    (span : Span) (s : LoweringState) :
    let g := ((function name [] voidType).lower options (values.map Stmt.ofInteger) span s).1
    g.output.errors = [] ∧ ∀ value ∈ values, .const (.i32 value) ∈ g.output.instructions := by
  obtain ⟨herrors, hconstants⟩ := Lower.output_forM_ofInteger options voidType values (bodyStart s)
  intro g
  have houtput : g.output =
      (((values.map Stmt.ofInteger).forM (Stmt.lower options voidType) >>= fun _ ↦
        Lower.emitAll ((function name [] voidType).ending (values.map Stmt.ofInteger))).run
          (bodyStart s)).output :=
    congrArg Outcome.output (run_lowerBody options _ _ span s)
  rw [houtput, Lower.output_bind]
  constructor
  · rw [Output.errors_append, herrors]
    rfl
  · intro value hvalue
    rw [Output.instructions_append]
    exact List.mem_append_left _ (hconstants value hvalue)

namespace Script

/-- A script that evaluates some integers. -/
def ofIntegers (values : List Int32) : Script :=
  [.plain "main" [] none (values.map Stmt.ofInteger)]

/-- If the name of its function is free, the script compiles without errors, and its code refers to all
the integers. -/
theorem compile_ofIntegers (options : CompilerOptions) {registry registry' : Registry}
    (h : registry.registerFunction (.function "main" [] voidType) = .ok registry')
    (values : List Int32) :
    ((ofIntegers values).compile options registry).errors = [] ∧
      ∃ g, ((ofIntegers values).lowered options registry).1 = [g] ∧
        ∀ value ∈ values, .const (.i32 value) ∈ g.output.instructions := by
  have hsignature : (FunctionDecl.plain "main" [] none (values.map Stmt.ofInteger)).signature.run.run
      { registry } = (.ok (.function "main" [] voidType), { registry := registry' }) := by
    rw [FunctionDecl.signature_eq, Resolution.run_bind]
    show ((FunctionDecl.register _ (.function "main" [] voidType)).run.run { registry }) = _
    rw [FunctionDecl.run_register, h]
  have hdeclared : declareFunctions (ofIntegers values) { registry } =
      (([(.plain "main" [] none (values.map Stmt.ofInteger), .function "main" [] voidType)], []),
        { registry := registry' }) := by
    rw [ofIntegers, declareFunctions, hsignature]
    rfl
  obtain ⟨herrors, hconstants⟩ := Callable.lower_ofInteger options "main" values .nowhere
    { symbols := { registry := registry' } }
  have hlowered : ((ofIntegers values).lowered options registry).1 =
      [((Callable.function "main" [] voidType).lower options (values.map Stmt.ofInteger) .nowhere
        { symbols := { registry := registry' } }).1] := by
    rw [lowered, hdeclared]
    rfl
  refine ⟨?_, _, hlowered, hconstants⟩
  rw [errors_compile, hdeclared, hlowered, List.flatMap_singleton, herrors]
  rfl

/-- Whenever a script compiles, the code of each function refers to what was meant exactly if the
places of all constants, symbols and variables fit into 16 bits. Nothing is reported if they do not:
any script that evaluates more than 65536 integers compiles without errors, and its code does not
refer to what was meant. -/
theorem compile_renders_iff (options : CompilerOptions) (registry : Registry) :
    (∀ script : Script, List.Forall₂ (fun g f ↦
        (script.compile options registry).pool.Renders f.chunk.code g.output.instructions ↔
          ∀ i ∈ g.output.instructions, i.Fits (script.compile options registry).pool)
      (script.lowered options registry).1 (script.compile options registry).functions) ∧
    ∀ registry', registry.registerFunction (.function "main" [] voidType) = .ok registry' →
      ∀ values : List Int32, values.Nodup → 65536 < values.length →
        ((ofIntegers values).compile options registry).errors = [] ∧
        ∃ g f, ((ofIntegers values).lowered options registry).1 = [g] ∧
          ((ofIntegers values).compile options registry).functions = [f] ∧
          ¬ ((ofIntegers values).compile options registry).pool.Renders f.chunk.code
            g.output.instructions := by
  have hrenders (script : Script) : List.Forall₂ (fun g f ↦
      (script.compile options registry).pool.Renders f.chunk.code g.output.instructions ↔
        ∀ i ∈ g.output.instructions, i.Fits (script.compile options registry).pool)
      (script.lowered options registry).1 (script.compile options registry).functions :=
    (script.assembledTo_compile options registry).imp fun _ _ h ↦
      h.renders_iff (script.listed_compile options registry)
  refine ⟨hrenders, fun registry' h values hnodup hlength ↦ ?_⟩
  obtain ⟨herrors, g, hlowered, hconstants⟩ := compile_ofIntegers options h values
  have hassembled := (ofIntegers values).assembledTo_compile options registry
  have hiff := hrenders (ofIntegers values)
  rw [hlowered] at hassembled hiff
  obtain ⟨f, fs, hg, hrest, hfunctions⟩ := List.forall₂_cons_left_iff.1 hassembled
  obtain rfl := List.forall₂_nil_left_iff.1 hrest
  refine ⟨herrors, g, f, hlowered, hfunctions, fun hmeant ↦ ?_⟩
  rw [hfunctions, List.forall₂_cons] at hiff
  have hfits := hiff.1.1 hmeant
  -- the integers have different places, and there are too many of them
  have hmem : ∀ c ∈ values.map Constant.i32,
      c ∈ ((ofIntegers values).compile options registry).pool.entries.toList := by
    intro c hc
    obtain ⟨value, hvalue, rfl⟩ := List.mem_map.1 hc
    exact hg.mem_entries ((ofIntegers values).listed_compile options registry) _
      (hconstants value hvalue) _ rfl
  obtain ⟨c, hc, hplace⟩ := ConstantPool.exists_le_position
    (hnodup.map fun _ _ ↦ Constant.i32.inj) hmem (by rwa [List.length_map])
  obtain ⟨value, hvalue, rfl⟩ := List.mem_map.1 hc
  exact Nat.not_lt.2 hplace ((hfits _ (hconstants value hvalue)).constant _ rfl)

/-- The first natural numbers as integers of a script. -/
def firstIntegers (n : Nat) : List Int32 := (List.range n).map Int32.ofNat

theorem nodup_firstIntegers {n : Nat} (h : n ≤ 2147483648) : (firstIntegers n).Nodup := by
  refine List.nodup_range.map_on fun a ha b hb heq ↦ ?_
  have hvalue := congrArg Int32.toInt heq
  have ha := List.mem_range.1 ha
  have hb := List.mem_range.1 hb
  rw [Int32.toInt_ofNat_of_lt (by omega), Int32.toInt_ofNat_of_lt (by omega)] at hvalue
  exact Int.ofNat.inj hvalue

/-- The script of the first 65537 integers. -/
theorem compile_renders_iff_firstIntegers :
    ((ofIntegers (firstIntegers 65537)).compile {} (.withPrimitives .w32)).errors = [] ∧
      ∃ g f, ((ofIntegers (firstIntegers 65537)).lowered {} (.withPrimitives .w32)).1 = [g] ∧
        ((ofIntegers (firstIntegers 65537)).compile {} (.withPrimitives .w32)).functions = [f] ∧
        ¬ ((ofIntegers (firstIntegers 65537)).compile {} (.withPrimitives .w32)).pool.Renders
          f.chunk.code g.output.instructions := by
  have hmain : (Registry.withPrimitives .w32).registerFunction (.function "main" [] voidType) =
      .ok ((Registry.withPrimitives .w32).putFunction (.function "main" [] voidType)) :=
    Registry.registerFunction_eq_ok_iff.2 ⟨by decide +kernel, by decide +kernel, rfl⟩
  refine (compile_renders_iff {} (.withPrimitives .w32)).2 _ hmain _ (nodup_firstIntegers (by omega)) ?_
  rw [firstIntegers, List.length_map, List.length_range]
  omega

end Script

end StackLowering

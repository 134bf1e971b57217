import StackLowering.Proofs.Lowering.Capacity

/-!
# The calls of a script

Code calls a function for one of three reasons (`Script.Reaches`): to allocate memory, because the
script calls a function by its name, or because it constructs an object. Each reason has its own number
of arguments. All calls of one symbol pass the same number if the three do not meet, that is, if the
script neither calls a constructor by its name nor has a function named like the allocator that takes
anything but one argument, and if a class has nothing but a constructor for its constructor
(`Script.Unambiguous`).

Nothing keeps a script from declaring a function named like the allocator. Its code then calls one
symbol with different numbers of arguments, and nothing is reported.

## From grounds to numbers

A call in a body is written on grounds (`Progress.Grounds`), which are one of the three reasons
(`Script.reaches_of_written`). A reason fixes the number of arguments only together with the registry
at the end, which says what the callee takes (`Script.expectedArgc?`); since nothing that was
registered is replaced, this is what the callee took when the call was written. The calls themselves
are read off the bytes, as long as the pool is small enough for every symbol to be found
(`LoweredFunction.AssembledTo.calls_eq`).
-/

namespace StackLowering

/-- The number of arguments that a function is called with: a constructor takes the object besides. -/
def Callable.argc (f : Callable) : Nat := if f.isConstructor then constructorArgc f else f.arity

theorem toNat_of_argcByte? {n : Nat} {argc : UInt8} (h : argcByte? n = some argc) : argc.toNat = n := by
  obtain ⟨hlt, hargc⟩ := Option.ite_none_right_eq_some.1 h
  have hbyte : n.toUInt8.toNat = n % 256 := UInt8.toNat_ofNat'
  rw [← Option.some.inj hargc, hbyte]
  omega

/-- The symbol and the number of arguments of a call. -/
def Instruction.call? {κ σ ρ : Type} : Instruction κ σ ρ → Option (σ × UInt8)
  | call callee argc => some (callee, argc)
  | _ => none

theorem Instruction.call?_eq_some {κ σ ρ : Type} {i : Instruction κ σ ρ} {c : σ × UInt8}
    (h : i.call? = some c) : i = .call c.1 c.2 := by
  cases i with
  | call callee argc =>
    obtain rfl := Option.some.inj h
    rfl
  | _ => simp [call?] at h

/-- The calls in the code of a function, with the symbols that they refer to. -/
def CompiledFunction.calls (f : CompiledFunction) (pool : ConstantPool) :
    Except DecodeError (List (Option String × UInt8)) :=
  (decode f.chunk.code).map fun decoded ↦ decoded.filterMap fun i ↦ (i.resolve pool).call?

/-- The calls in the code of all functions. -/
def Compilation.calls (c : Compilation) : Except DecodeError (List (Option String × UInt8)) :=
  List.flatten <$> c.functions.mapM fun f ↦ f.calls c.pool

/-- If the code of every function has calls with a property, so has all the code. -/
theorem Compilation.calls_eq_ok {c : Compilation} {P : Option String × UInt8 → Prop}
    (h : ∀ f ∈ c.functions, ∃ calls, f.calls c.pool = .ok calls ∧ ∀ q ∈ calls, P q) :
    ∃ calls, c.calls = .ok calls ∧ ∀ q ∈ calls, P q := by
  suffices hall : ∀ fs : List CompiledFunction,
      (∀ f ∈ fs, ∃ calls, f.calls c.pool = .ok calls ∧ ∀ q ∈ calls, P q) →
        ∃ rows, fs.mapM (fun f ↦ f.calls c.pool) = .ok rows ∧ ∀ row ∈ rows, ∀ q ∈ row, P q by
    obtain ⟨rows, hrows, hmem⟩ := hall c.functions h
    refine ⟨rows.flatten, by rw [Compilation.calls, hrows]; rfl, fun q hq ↦ ?_⟩
    obtain ⟨row, hrow, hq⟩ := List.mem_flatten.1 hq
    exact hmem row hrow q hq
  intro fs hfs
  induction fs with
  | nil => exact ⟨[], rfl, nofun⟩
  | cons f fs ih =>
    obtain ⟨row, hrow, hfirst⟩ := hfs f List.mem_cons_self
    obtain ⟨rows, hrows, hrest⟩ := ih fun f' hf' ↦ hfs f' (List.mem_cons_of_mem f hf')
    refine ⟨row :: rows, by rw [List.mapM_cons, hrow, hrows]; rfl, fun row' hrow' ↦ ?_⟩
    rcases List.mem_cons.1 hrow' with rfl | hrow'
    · exact hfirst
    · exact hrest row' hrow'

/-- If the pool is small enough, the calls in the code of a function are those of its instructions, in
the same order. -/
theorem LoweredFunction.AssembledTo.calls_eq {g : LoweredFunction} {pool : ConstantPool}
    {f : CompiledFunction} (h : g.AssembledTo pool f) (hpool : pool.Listed)
    (hsize : pool.size ≤ 65536) :
    f.calls pool = .ok ((g.output.instructions.filterMap Instruction.call?).map
      fun c ↦ (some c.1, c.2)) := by
  have hcall : ∀ i ∈ g.output.instructions,
      ((i.shortened pool).resolve pool).call? = i.call?.map fun c ↦ (some c.1, c.2) := by
    intro i hi
    cases i with
    | call name argc =>
      have hmem := h.mem_entries hpool _ hi
      have hfits : Instruction.Fits pool (.call name argc) :=
        ⟨fun c hc ↦ Nat.lt_of_lt_of_le (ConstantPool.position_lt (hmem c hc)) hsize, nofun⟩
      rw [(Instruction.resolve_shortened_iff hpool hmem).2 hfits]
      rfl
    | _ => rfl
  rw [CompiledFunction.calls, h.decode_code hpool, Except.map, List.filterMap_map, List.map_filterMap]
  exact congrArg _ (List.filterMap_congr hcall)

theorem LoweredFunction.AssembledTo.calls {g : LoweredFunction} {pool : ConstantPool}
    {f : CompiledFunction} (h : g.AssembledTo pool f) (hpool : pool.Listed)
    (hsize : pool.size ≤ 65536) :
    ∃ calls, f.calls pool = .ok calls ∧ ∀ q ∈ calls, ∃ name, q.1 = some name ∧
      .call name q.2 ∈ g.output.instructions := by
  refine ⟨_, h.calls_eq hpool hsize, fun q hq ↦ ?_⟩
  obtain ⟨c, hc, rfl⟩ := List.mem_map.1 hq
  obtain ⟨i, hi, hcall⟩ := List.mem_filterMap.1 hc
  exact ⟨c.1, rfl, Instruction.call?_eq_some hcall ▸ hi⟩

namespace Script

variable {options : CompilerOptions} {registry : Registry} {script : Script} {name : String}
  {argc : UInt8}

/-- The uses of names in a script. -/
def uses (script : Script) : List NameUse := script.flatMap FunctionDecl.uses

/-- The reasons for which code calls a function with a number of arguments. -/
inductive Reaches (options : CompilerOptions) (registry : Registry) (script : Script) :
    String → UInt8 → Prop
  /-- The allocator is called with the number of bytes. -/
  | allocator : Reaches options registry script options.allocator 1
  /-- A function is called by its name with all of its parameters. -/
  | function {f : Callable} {argc : UInt8} (hname : .call f.name ∈ script.uses)
      (hf : (script.compile options registry).registry.functionNamed? f.name = some f)
      (hargc : argc.toNat = f.arity) : Reaches options registry script f.name argc
  /-- The constructor of a class is called with the object and all of its parameters. -/
  | constructor {id : Fingerprint} {f : Callable} {argc : UInt8}
      (hf : (script.compile options registry).registry.constructorOf? id = some f)
      (hargc : argc.toNat = constructorArgc f) : Reaches options registry script f.name argc

/-- An instruction that was written on grounds calls a function for a reason. -/
theorem reaches_of_written {s s' : LoweringState} (hs : s.symbols.registry.Built)
    (hend : s'.symbols.Grows (script.ending options registry).symbols)
    (h : Progress.Written options (· ∈ script.uses) s s' (.call name argc)) :
    script.Reaches options registry name argc := by
  obtain ⟨q, hbefore, hafter, hgrounds | ⟨_, _, _, _, hstore⟩⟩ := h
  · have hq : q.state.symbols.registry.Built := LoweringState.Steps.built hbefore hs
    have hs' : s'.symbols.registry.Built := LoweringState.Steps.built hafter hq
    -- what is registered when the instruction is written is still registered in the end
    have hext : q.state.symbols.registry.Extends (script.compile options registry).registry :=
      ((LoweringState.Steps.extends hafter hq).symbols.trans (hend.extend hs')).registry
    cases hgrounds with
    | plain hplain => exact absurd hplain.1 nofun
    | allocate => exact .allocator
    | call hname hf hargc =>
      obtain ⟨-, rfl⟩ := hq.indexed.functionNamed?_eq_some_iff.1 hf
      exact .function hname (hext.functionNamed? hf) (toNat_of_argcByte? hargc)
    | construct hf hargc => exact .constructor (hext.constructorOf? hf) (toNat_of_argcByte? hargc)
  · simp at hstore

/-- A lowered function calls others for reasons. -/
theorem reaches_of_mem_lowered (hr : registry.Built) {g : LoweredFunction}
    (hg : g ∈ (script.lowered options registry).1)
    (hi : .call name argc ∈ g.output.instructions) : script.Reaches options registry name argc := by
  obtain ⟨q, hq, s, hgrows, rfl, hend⟩ := mem_lowerFunctions hg
  have hs := hgrows.built ((Symbols.Grows.declareFunctions script { registry }).built hr)
  obtain ⟨hd, types, returns, hcallable⟩ := mem_declareFunctions hq
  have huses (u : NameUse) (hu : u ∈ q.1.uses) : u ∈ script.uses := List.mem_flatMap.2 ⟨q.1, hd, hu⟩
  have hparams : ∀ param ∈ q.2.params, .declare param.name ∈ script.uses := by
    intro param hparam
    rw [hcallable] at hparam
    obtain ⟨p, hp, hname⟩ := FunctionDecl.name_mem_params hparam
    exact huses _ (List.mem_append_left _ (List.mem_map.2 ⟨p, hp, congrArg _ hname⟩))
  have hbody : ∀ stmt ∈ q.1.body, ∀ u ∈ stmt.uses, u ∈ script.uses := fun stmt hstmt u hu ↦
    huses u (List.mem_append_right _ (List.mem_flatMap.2 ⟨stmt, hstmt, hu⟩))
  rcases Callable.mem_instructions_lower hparams hbody hi with hi | hi
  · exact absurd (Callable.refers_ending hi).1 nofun
  · exact reaches_of_written (s := Callable.bodyStart s) hs hend hi

/-- The number of arguments that a symbol expects after a compilation. The allocator expects one. -/
def expectedArgc? (options : CompilerOptions) (registry : Registry) (script : Script)
    (name : String) : Option Nat :=
  if name = options.allocator then some 1
  else ((script.compile options registry).registry.functionNamed? name).map Callable.argc

/-- The reasons to call a function do not meet. -/
structure Unambiguous (options : CompilerOptions) (registry : Registry) (script : Script) : Prop where
  allocator : ∀ f, (script.compile options registry).registry.functionNamed? options.allocator = some f →
    f.argc = 1
  callees : ∀ name, .call name ∈ script.uses → script.Callee options registry name
  constructors : ∀ id f, (script.compile options registry).registry.constructorOf? id = some f →
    f.isConstructor = true

/-- The registry after a compilation can be built by a host if the one before it can. -/
theorem built_compile (hr : registry.Built) : (script.compile options registry).registry.Built :=
  (script.grows options registry).built hr

/-- Then every call passes what its target expects. -/
theorem Reaches.expectedArgc?_eq (hr : registry.Built) (h : script.Unambiguous options registry)
    (hcall : script.Reaches options registry name argc) :
    script.expectedArgc? options registry name = some argc.toNat := by
  have hregistered {f : Callable}
      (hf : (script.compile options registry).registry.functionNamed? f.name = some f) :
      script.expectedArgc? options registry f.name = some f.argc := by
    unfold expectedArgc?
    split
    next heq => rw [h.allocator f (heq ▸ hf)]
    next => rw [hf, Option.map_some]
  cases hcall with
  | allocator => exact if_pos rfl
  | function hname hf hargc =>
    have hargc' : Callable.argc _ = _ := if_neg (Bool.not_eq_true _ ▸ h.callees _ hname _ hf)
    rw [hregistered hf, hargc', hargc]
  | constructor hf hargc =>
    have hargc' : Callable.argc _ = _ := if_pos (h.constructors _ _ hf)
    obtain ⟨k, -, hk⟩ := Option.bind_eq_some_iff.1 hf
    have hindexed := (built_compile hr : (script.compile options registry).registry.Built).indexed
    rw [hregistered (hindexed.functionNamed?_eq_some_iff.2 ⟨hindexed.function_id hk ▸ hk, rfl⟩), hargc',
      hargc]

/-- Every call in the code of a script is made for a reason, with the number of arguments that belongs
to it. If the reasons do not meet, every call passes what its target expects, and all calls of one
symbol pass the same number of arguments. -/
theorem calls_compile (hr : registry.Built)
    (hpool : (script.compile options registry).pool.size ≤ 65536) :
    ∃ calls, (script.compile options registry).calls = .ok calls ∧
      (∀ q ∈ calls, ∃ name, q.1 = some name ∧ script.Reaches options registry name q.2) ∧
      (script.Unambiguous options registry →
        (∀ q ∈ calls, ∃ name, q.1 = some name ∧
          script.expectedArgc? options registry name = some q.2.toNat) ∧
        ∀ q ∈ calls, ∀ q' ∈ calls, q.1 = q'.1 → q.2 = q'.2) := by
  obtain ⟨calls, hcalls, hreaches⟩ := Compilation.calls_eq_ok (c := script.compile options registry)
    (P := fun q ↦ ∃ name, q.1 = some name ∧ script.Reaches options registry name q.2) fun f hf ↦ by
      obtain ⟨g, hg, hassembled⟩ := assembledTo_assembleFunctions f hf
      obtain ⟨calls, hcalls, hmem⟩ := hassembled.calls (script.listed_compile options registry) hpool
      refine ⟨calls, hcalls, fun q hq ↦ ?_⟩
      obtain ⟨name, hname, hi⟩ := hmem q hq
      exact ⟨name, hname, reaches_of_mem_lowered hr hg hi⟩
  refine ⟨calls, hcalls, hreaches, fun h ↦ ?_⟩
  have hexpected : ∀ q ∈ calls, ∃ name, q.1 = some name ∧
      script.expectedArgc? options registry name = some q.2.toNat := by
    intro q hq
    obtain ⟨name, hname, hcall⟩ := hreaches q hq
    exact ⟨name, hname, hcall.expectedArgc?_eq hr h⟩
  refine ⟨hexpected, fun q hq q' hq' heq ↦ ?_⟩
  obtain ⟨name, hname, hargc⟩ := hexpected q hq
  obtain ⟨name', hname', hargc'⟩ := hexpected q' hq'
  obtain rfl : name = name' := Option.some.inj (hname.symm.trans (heq.trans hname'))
  exact UInt8.toNat_inj.1 (Option.some.inj (hargc.symm.trans hargc'))

/-- A script that declares a function named like the allocator, calls it and constructs an array. -/
def clashScript : Script :=
  [.plain "malloc" [("x", .plain "int" []), ("y", .plain "int" [])] none [],
   .plain "main" [] none
    [.expr (.plainCall "malloc" [.one, .one]) .nowhere,
     .expr (.plainNew 0 "Array" [.plain "int" []] [.one]) .nowhere]]

/-- The script compiles without errors, and calls one symbol with two different numbers of
arguments. -/
theorem calls_compile_clash :
    (clashScript.compile {} (.withPrimitives .w32)).errors = [] ∧
      (clashScript.compile {} (.withPrimitives .w32)).calls =
        .ok [(some "malloc", 2), (some "malloc", 1)] ∧
      clashScript.Reaches {} (.withPrimitives .w32) "malloc" 1 ∧
      clashScript.Reaches {} (.withPrimitives .w32) "malloc" 2 ∧
      ¬ clashScript.Unambiguous {} (.withPrimitives .w32) := by
  have hcode : (clashScript.compile {} (.withPrimitives .w32)).calls =
      .ok [(some "malloc", 2), (some "malloc", 1)] := by
    decide +kernel
  have hpool : (clashScript.compile {} (.withPrimitives .w32)).pool.size ≤ 65536 := by
    decide +kernel
  obtain ⟨calls, hcalls, hreaches, hsame⟩ := calls_compile (.withPrimitives .w32) hpool
  obtain rfl := Except.ok.inj (hcode.symm.trans hcalls)
  refine ⟨by decide +kernel, hcode, ?_, ?_, fun h ↦ ?_⟩
  · obtain ⟨name, hname, hcall⟩ := hreaches (some "malloc", 1) (by simp)
    exact Option.some.inj hname ▸ hcall
  · obtain ⟨name, hname, hcall⟩ := hreaches (some "malloc", 2) (by simp)
    exact Option.some.inj hname ▸ hcall
  · exact absurd ((hsame h).2 (some "malloc", 2) (by simp) (some "malloc", 1) (by simp) rfl) (by decide)

end Script

end StackLowering

import StackLowering.Proofs.Lowering.Function
import StackLowering.Proofs.Lowering.Passes

/-!
# Typing of the two passes

The signatures that are registered first keep the symbols fit for the ending, which is what is
registered after the last function was lowered. Each body is then typed against the ending with its own
slots, and the pool in the end gives every instruction its place.

Three things have to be brought together before the code of a script can be verified:

* Signatures. Every function that is declared is that of its declaration, with types that can be stored
  (`fits_declareFunctions`). The induction over a script is stated once for whatever the signatures
  keep (`keeps_declareFunctions`), since the types of values are shown by the same induction.
* Bodies. The ending is the same for all functions but for the slots and the result
  (`Ending.forFunction`), and every state on the way is before it (`sound_lowerFunctions`).
* Assembly. Functions are assembled into one pool. What was put there for an early function stays where
  it is, so that each function may be compared with the pool in the end (`LoweredFunction.AssembledTo`,
  `forall₂_assembleFunctions`).
-/

namespace StackLowering

/-! ### Signatures -/

/-- A function in whose types `void` is not written as a type argument or as the type of a parameter,
that declares no temporary, and in which the name of every callee satisfies a condition. -/
structure FunctionDecl.Admissible (p : String → Prop) (d : FunctionDecl) : Prop where
  paramNames : ∀ q ∈ d.params, ¬ IsTemporary q.name.name
  paramTypes : ∀ q ∈ d.params, q.type.Storable
  returns : ∀ t, d.returns = some t → t.ArgsStorable
  body : ∀ stmt ∈ d.body, stmt.Admissible p

/-- The registered function of a declaration. -/
structure Ending.Declares (E : Ending) (d : FunctionDecl) (f : Callable) : Prop where
  signed : E.Signed f
  named : E.symbols.registry.functionNamed? f.name = some f
  paramNames : ∀ p ∈ f.params, ∃ q ∈ d.params, q.name.name = p.name

namespace FunctionDecl

variable {E : Ending} {p : String → Prop} {d : FunctionDecl} {s : Symbols}

/-- The types of the parameters can be stored, and so can that of the result unless it is `void`. -/
theorem typed_types (hE : E.Sound) (hd : d.Admissible p) :
    d.types.Typed E True fun types ↦ (∀ id ∈ types.1, E.Sized id) ∧ E.Known types.2 := by
  have hparams : ∀ t ∈ d.params.map (·.type), t.Storable := by
    intro t ht
    obtain ⟨q, hq, rfl⟩ := List.mem_map.1 ht
    exact hd.paramTypes q hq
  refine .bind (typed_resolveTypes hE _ hparams) fun ids ↦ ?_
  cases hreturns : d.returns with
  | none =>
    refine .bind (show Resolution.Typed E _ (pure voidType) (fun type ↦ type = voidType)
      from .pure fun _ ↦ rfl) fun type ↦ ?_
    exact .pure fun ⟨⟨_, _, hids⟩, heq⟩ ↦ ⟨hids, .inl heq⟩
  | some written =>
    have hresolve := written.typed_resolve hE (hd.returns written hreturns)
    refine .bind (hresolve.of_imp fun _ ↦ trivial) fun type ↦ ?_
    exact .pure fun ⟨⟨_, _, hids⟩, hknown, _⟩ ↦ ⟨hids, hknown⟩

/-- A function with such types can be called. -/
theorem signed_callable {types : List Fingerprint} {returns : Fingerprint}
    (h : (∀ id ∈ types, E.Sized id) ∧ E.Known returns) : E.Signed (d.callable types returns) := by
  refine ⟨fun p hp ↦ ?_, h.2⟩
  obtain ⟨⟨q, type⟩, hmem, rfl⟩ := List.mem_map.1 hp
  exact h.1 type (List.of_mem_zip hmem).2

/-- A function that was registered is found under its name. -/
theorem functionNamed?_registerFunction {r r' : Registry} (hr : r.Built) {f : Callable}
    (h : r.registerFunction f = .ok r') : r'.functionNamed? f.name = some f := by
  have hbuilt : r'.Built := hr.step (.registerFunction h)
  refine hbuilt.indexed.functionNamed?_eq_some_iff.2 ⟨?_, rfl⟩
  obtain ⟨-, -, rfl⟩ := Registry.registerFunction_eq_ok_iff.1 h
  rw [Registry.functions_putFunction, if_pos rfl]

/-- The signature of a function keeps the symbols fit, and what it registers is the function of the
declaration. -/
theorem fits_signature (hE : E.Sound) (hd : d.Admissible p) (hs : s.Fits E)
    (hbefore : (d.signature.run.run s).2.Extends E.symbols) :
    (d.signature.run.run s).2.Fits E ∧
      ∀ f, (d.signature.run.run s).1 = .ok f → E.Declares d f := by
  have htypes := (typed_types hE hd).sound trivial s hs.built hs
  rcases d.signature_cases s with ⟨error, hrun⟩ | ⟨types, r, hok, hr, hrun⟩
  · rw [hrun] at hbefore ⊢
    exact ⟨(htypes hbefore).1, nofun⟩
  · rw [hrun] at hbefore ⊢
    have hext : (d.types.run.run s).2.Extends { (d.types.run.run s).2 with registry := r } :=
      ⟨.of_registerFunction hr, fun h ↦ h⟩
    obtain ⟨hs₁, hknown⟩ := htypes (hext.trans hbefore)
    have hsigned : E.Signed (d.callable types.1 types.2) := signed_callable (hknown types hok)
    refine ⟨hs₁.registerFunction hsigned hr hbefore, fun f heq ↦ ?_⟩
    obtain rfl := Except.ok.inj heq
    refine ⟨hsigned, hbefore.registry.functionNamed?
      (functionNamed?_registerFunction hs₁.built hr), fun p hp ↦ name_mem_params hp⟩

end FunctionDecl

/-- What every signature keeps is kept by all signatures of a script, and what is known of the function
of every declaration is known of all declared functions. -/
theorem keeps_declareFunctions {I : Symbols → Prop} {final : Symbols}
    {post : FunctionDecl → Callable → Prop} {script : Script}
    (h : ∀ d ∈ script, ∀ s : Symbols, s.registry.Built → I s →
      (d.signature.run.run s).2.Extends final →
        I (d.signature.run.run s).2 ∧ ∀ f, (d.signature.run.run s).1 = .ok f → post d f)
    {s : Symbols} (hbuilt : s.registry.Built) (hs : I s)
    (hbefore : (declareFunctions script s).2.Extends final) :
    I (declareFunctions script s).2 ∧
      ∀ q ∈ (declareFunctions script s).1.1, q.1 ∈ script ∧ post q.1 q.2 := by
  induction script generalizing s with
  | nil => exact ⟨hs, fun q hq ↦ by simp [declareFunctions] at hq⟩
  | cons d ds ih =>
    rw [snd_declareFunctions_cons] at hbefore ⊢
    have hbuilt₁ := (Symbols.Grows.of_changes (d.changes_signature s)).built hbuilt
    have hrest := (Symbols.Grows.declareFunctions ds (d.signature.run.run s).2).extend hbuilt₁
    obtain ⟨hfirst, hd⟩ := h d List.mem_cons_self s hbuilt hs (hrest.trans hbefore)
    obtain ⟨hlast, hds⟩ := ih (fun d' hd' ↦ h d' (List.mem_cons_of_mem d hd')) hbuilt₁ hfirst hbefore
    refine ⟨hlast, fun q hq ↦ ?_⟩
    rcases mem_declareFunctions_cons hq with ⟨rfl, hok⟩ | hq
    · exact ⟨List.mem_cons_self, hd q.2 hok⟩
    · exact ⟨List.mem_cons_of_mem d (hds q hq).1, (hds q hq).2⟩

/-- The signatures of a script keep the symbols fit, and all declared functions are functions of their
declarations. -/
theorem fits_declareFunctions {E : Ending} (hE : E.Sound) {p : String → Prop} {script : Script}
    (h : ∀ d ∈ script, d.Admissible p) {s : Symbols} (hs : s.Fits E)
    (hbefore : (declareFunctions script s).2.Extends E.symbols) :
    (declareFunctions script s).2.Fits E ∧
      ∀ q ∈ (declareFunctions script s).1.1, q.1 ∈ script ∧ E.Declares q.1 q.2 :=
  keeps_declareFunctions
    (fun d hd _ _ hs hbefore ↦ FunctionDecl.fits_signature hE (h d hd) hs hbefore) hs.built hs hbefore

/-! ### Bodies -/

namespace Ending

variable {E : Ending} {slots : Array Fingerprint} {returns : Fingerprint}

/-- The same ending for another function. -/
def forFunction (E : Ending) (slots : Array Fingerprint) (returns : Fingerprint) : Ending :=
  { E with slots, returns }

theorem Sound.forFunction (hE : E.Sound) (h : slots.size ≤ 65536) :
    (E.forFunction slots returns).Sound :=
  ⟨hE.built, hE.primitives, hE.constructors, hE.allocator, hE.instances, h⟩

theorem signed_forFunction {f : Callable} : (E.forFunction slots returns).Signed f ↔ E.Signed f :=
  ⟨fun h ↦ ⟨h.params, h.returns⟩, fun h ↦ ⟨h.params, h.returns⟩⟩

theorem fits_forFunction {s : Symbols} : s.Fits (E.forFunction slots returns) ↔ s.Fits E :=
  ⟨fun h ↦ ⟨h.built, h.before, fun hf ↦ signed_forFunction.1 (h.functions hf), h.templates⟩,
    fun h ↦ ⟨h.built, h.before, fun hf ↦ signed_forFunction.2 (h.functions hf), h.templates⟩⟩

end Ending

/-- The code of a lowered function runs from an empty stack to an empty stack. -/
theorem Callable.sound_lower {E : Ending} (hE : E.Sound) (options : CompilerOptions)
    (hoptions : options.allocator = E.allocator) {d : FunctionDecl} {f : Callable}
    (hd : d.Admissible E.Callee) (hf : E.Declares d f) {s : LoweringState} (hs : s.symbols.Fits E)
    (hbefore : (f.lower options d.body d.span s).2.symbols.Extends E.symbols)
    (hslots : (f.lower options d.body d.span s).1.locals.size ≤ 65536) :
    (f.lower options d.body d.span s).2.symbols.Fits E ∧
      (E.forFunction (f.lower options d.body d.span s).1.locals f.returns).context.Runs
        (f.lower options d.body d.span s).1.output.instructions [] [] := by
  have hparams : ∀ p ∈ f.params, ¬ IsTemporary p.name := by
    intro p hp
    obtain ⟨q, hq, heq⟩ := hf.paramNames p hp
    exact heq ▸ hd.paramNames q hq
  obtain ⟨hfits, hruns⟩ := Callable.sound_lowerBody (hE.forFunction hslots) options hoptions
    (Ending.signed_forFunction.2 hf.signed) rfl hparams hd.body d.span (Ending.fits_forFunction.2 hs)
    ⟨hbefore, List.prefix_rfl⟩
  exact ⟨Ending.fits_forFunction.1 hfits, hruns⟩

/-- The code of every lowered function runs from an empty stack to an empty stack. -/
theorem sound_lowerFunctions {E : Ending} (hE : E.Sound) (options : CompilerOptions)
    (hoptions : options.allocator = E.allocator) {fs : List (FunctionDecl × Callable)}
    (h : ∀ q ∈ fs, q.1.Admissible E.Callee ∧ E.Declares q.1 q.2) {s : LoweringState}
    (hs : s.symbols.Fits E)
    (hbefore : (lowerFunctions options fs s).2.symbols.Extends E.symbols)
    (hslots : ∀ g ∈ (lowerFunctions options fs s).1, g.locals.size ≤ 65536) :
    ∀ g ∈ (lowerFunctions options fs s).1, ∃ q ∈ fs, g.name = q.2.name ∧
      (E.forFunction g.locals q.2.returns).context.Runs g.output.instructions [] [] := by
  induction fs generalizing s with
  | nil => simp [lowerFunctions]
  | cons q fs ih =>
    obtain ⟨d, f⟩ := q
    obtain ⟨hd, hf⟩ := h _ List.mem_cons_self
    -- the functions behind the first one take nothing away that its code refers to
    have hbuilt := (Symbols.Grows.lower options f d.body d.span s).built hs.built
    have hrest := (Symbols.Grows.lowerFunctions options fs (f.lower options d.body d.span s).2).extend
      hbuilt
    obtain ⟨hfits, hruns⟩ := Callable.sound_lower hE options hoptions hd hf hs (hrest.trans hbefore)
      (hslots _ List.mem_cons_self)
    intro g hg
    rcases List.mem_cons.1 hg with rfl | hg
    · exact ⟨(d, f), List.mem_cons_self, rfl, hruns⟩
    · obtain ⟨q, hq, hg⟩ := ih (fun q hq ↦ h q (List.mem_cons_of_mem _ hq)) hfits hbefore
        (fun g hg ↦ hslots g (List.mem_cons_of_mem _ hg)) g hg
      exact ⟨q, List.mem_cons_of_mem _ hq, hg⟩

/-! ### Assembly -/

/-- A function and what it is assembled to: the code refers to the places of a pool, which holds all
constants of the function. -/
structure LoweredFunction.AssembledTo (g : LoweredFunction) (pool : ConstantPool)
    (c : CompiledFunction) : Prop where
  name : c.name = g.name
  locals : c.locals = g.locals
  constants : ∀ i ∈ g.output.instructions, ∀ constant, i.constant? = some constant →
    (pool.index[constant]?).isSome
  code : c.chunk.code = encodeAll (g.output.instructions.map (·.indexed pool))

theorem LoweredFunction.assembledTo_assemble (g : LoweredFunction) {pool pool' : ConstantPool}
    (h : (g.assemble pool).2.Extends pool') : g.AssembledTo pool' (g.assemble pool).1 := by
  refine ⟨rfl, rfl, fun i hi constant hc ↦ ?_, ?_⟩
  · obtain ⟨located, hmem, rfl⟩ := List.mem_map.1 hi
    obtain ⟨place, hplace⟩ := Option.isSome_iff_exists.1
      (Assembler.index_pushAll (a := .start pool) hmem hc)
    exact Option.isSome_of_mem (h.index hplace)
  · have hcode := Assembler.code_pushAll (a := .start pool) h
    rw [Output.instructions, List.map_map]
    exact hcode

theorem extends_assembleFunctions (lowered : List LoweredFunction) (pool : ConstantPool) :
    pool.Extends (assembleFunctions lowered pool).2 := by
  induction lowered generalizing pool with
  | nil => exact .refl pool
  | cons g lowered ih =>
    exact (Assembler.extends_pushAll g.output.code (.start pool)).trans (ih (g.assemble pool).2)

theorem listed_assembleFunctions (lowered : List LoweredFunction) {pool : ConstantPool}
    (h : pool.Listed) : (assembleFunctions lowered pool).2.Listed := by
  induction lowered generalizing pool with
  | nil => exact h
  | cons g lowered ih => exact ih (Assembler.listed_pushAll (a := .start pool) g.output.code h)

theorem indexed_assembleFunctions {lowered : List LoweredFunction} {pool : ConstantPool}
    (h : pool.Indexed) (hsize : (assembleFunctions lowered pool).2.size ≤ UInt32.size) :
    (assembleFunctions lowered pool).2.Indexed := by
  have hle : pool.size ≤ UInt32.size :=
    Nat.le_trans (extends_assembleFunctions lowered pool).size_le hsize
  have hlisted := listed_assembleFunctions lowered ((ConstantPool.listed_iff_indexed hle).2 h)
  exact (ConstantPool.listed_iff_indexed hsize).1 hlisted

/-- The compiled functions are what the lowered functions are assembled to, one by one, and refer to
the pool in the end. -/
theorem forall₂_assembleFunctions (lowered : List LoweredFunction) (pool : ConstantPool) :
    List.Forall₂ (·.AssembledTo (assembleFunctions lowered pool).2) lowered
      (assembleFunctions lowered pool).1 := by
  induction lowered generalizing pool with
  | nil => exact .nil
  | cons g lowered ih =>
    exact .cons (g.assembledTo_assemble (extends_assembleFunctions lowered _)) (ih _)

/-- Every compiled function is what a lowered function is assembled to. -/
theorem assembledTo_assembleFunctions {lowered : List LoweredFunction} {pool : ConstantPool} :
    ∀ c ∈ (assembleFunctions lowered pool).1,
      ∃ g ∈ lowered, g.AssembledTo (assembleFunctions lowered pool).2 c :=
  fun _ hc ↦ exists_mem_of_forall₂ (forall₂_assembleFunctions lowered pool) hc

/-- The slots of the compiled functions are those of the lowered ones. -/
theorem map_locals_assembleFunctions (lowered : List LoweredFunction) (pool : ConstantPool) :
    (assembleFunctions lowered pool).1.map (·.locals) = lowered.map (·.locals) := by
  induction lowered generalizing pool with
  | nil => rfl
  | cons g lowered ih => exact congrArg (g.locals :: ·) (ih (g.assemble pool).2)

end StackLowering

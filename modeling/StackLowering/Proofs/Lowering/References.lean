import StackLowering.Proofs.Lowering.Passes

/-!
# What instructions refer to

Every instruction of a lowered function was written on grounds that still hold in the end, except for
the one that ends the function, which refers to nothing. In particular its slot is that of a variable
of the function, and the function that it calls is registered.

The grounds of an instruction are a fact about the moment when it was written (`Progress.Written`),
with steps before that moment and steps after it. Statements about finished code are made from it by
carrying the grounds along the steps after it: a variable keeps its slot, and a function that was found
under a name is found under it in the end.

For scripts the list of lowered functions is compared with that of the declared ones, element by
element (`forall₂_lowerFunctions`), so that what was shown of one function from an arbitrary state
holds of each function of a compilation.
-/

namespace StackLowering

open Relation

variable {options : CompilerOptions} {Uses : NameUse → Prop} {i : SymbolicInstruction}

/-- The instruction that stores the first value of a declared variable. -/
def Progress.Stores (Uses : NameUse → Prop) (p : Progress) (i : SymbolicInstruction) : Prop :=
  ∃ name v, Uses (.declare name) ∧ p.state.frame.find? name = some v ∧ i = .setLocal v.slot

/-- An instruction that was written on the way from one state to another one. -/
def Progress.Written (options : CompilerOptions) (Uses : NameUse → Prop) (s s' : LoweringState)
    (i : SymbolicInstruction) : Prop :=
  ∃ q : Progress, s.Steps q.state ∧ q.state.Steps s' ∧
    (q.Grounds options Uses i ∨ q.Stores Uses i)

/-- What an action writes is written on grounds. -/
theorem Action.mem_instructions {p p' : Progress} (h : Action options Uses p p')
    (hi : i ∈ p'.output.instructions) :
    i ∈ p.output.instructions ∨ Progress.Written options Uses p.state p'.state i := by
  have hsteps := h.steps
  cases h with
  | line | report | annotate =>
    rw [Progress.instructions_after] at hi
    exact .inl ((List.mem_append.1 hi).resolve_right List.not_mem_nil)
  | symbols | parameter | temporaries => exact .inl hi
  | declare name hname hnew type span =>
    rw [Progress.instructions_after, Lower.code_emit] at hi
    refine (List.mem_append.1 hi).imp_right fun hi ↦ ?_
    have hfind := p.state.frame.find?_allocate_self name type span
    exact ⟨⟨_, p.output⟩, hsteps, .refl, .inr ⟨name, _, hname, hfind, List.mem_singleton.1 hi⟩⟩
  | write hgrounds =>
    rw [Progress.instructions_after, Lower.code_emit] at hi
    refine (List.mem_append.1 hi).imp_right fun hi ↦ ?_
    obtain rfl := List.mem_singleton.1 hi
    exact ⟨p, .refl, .refl, .inl hgrounds⟩

/-- What some actions write is written on grounds. -/
theorem Trace.mem_instructions {p p' : Progress} (h : Trace options Uses p p')
    (hi : i ∈ p'.output.instructions) :
    i ∈ p.output.instructions ∨ Progress.Written options Uses p.state p'.state i := by
  induction h with
  | refl => exact .inl hi
  | tail hactions haction ih =>
    rcases haction.mem_instructions hi with hi | ⟨q, hbefore, hafter, hq⟩
    · refine (ih hi).imp_right fun ⟨q, hbefore, hafter, hq⟩ ↦ ?_
      exact ⟨q, hbefore, hafter.trans haction.steps, hq⟩
    · exact .inr ⟨q, (Trace.steps hactions).trans hbefore, hafter, hq⟩

/-- A slot that an instruction refers to is that of a variable. -/
theorem Progress.Written.exists_variable {s s' : LoweringState} {slot : UInt32}
    (h : Written options Uses s s' i) (hi : i.slot? = some slot) :
    ∃ (s₁ : LoweringState) (name : String) (v : LocalVariable), s.Steps s₁ ∧ s₁.Steps s' ∧
      s₁.frame.find? name = some v ∧ v.slot = slot := by
  obtain ⟨q, hbefore, hafter, hgrounds | ⟨name, v, -, hv, rfl⟩⟩ := h
  · cases hgrounds with
    | plain h => simp [h.2.1] at hi
    | read _ hv | keep _ hv | reload _ hv =>
      exact ⟨q.state, _, _, hbefore, hafter, hv, Option.some.inj hi⟩
    | const | allocate | call | construct | trap => simp [Instruction.slot?] at hi
  · exact ⟨q.state, name, v, hbefore, hafter, hv, Option.some.inj hi⟩

/-! ### Functions -/

/-- The instruction that ends a function refers to nothing. -/
theorem Callable.refers_ending {f : Callable} {body : List Stmt} (hi : i ∈ f.ending body) :
    i.constant? = none ∧ i.slot? = none := by
  unfold ending at hi
  split at hi
  next => simp at hi
  next =>
    obtain rfl := List.mem_singleton.1 hi
    split <;> exact ⟨rfl, rfl⟩

/-- The instructions of a function are written on grounds, up to its end. -/
theorem Callable.mem_instructions_lower {f : Callable} {body : List Stmt}
    (hparams : ∀ param ∈ f.params, Uses (.declare param.name))
    (hbody : ∀ stmt ∈ body, ∀ u ∈ stmt.uses, Uses u) {span : Span} {s : LoweringState}
    (hi : i ∈ (f.lower options body span s).1.output.instructions) :
    i ∈ f.ending body ∨
      Progress.Written options Uses (bodyStart s) (f.lower options body span s).2 i := by
  rw [instructions_lower] at hi
  rw [snd_lower]
  rcases List.mem_append.1 hi with hi | hi
  · have htrace : Trace options Uses ⟨bodyStart s, .empty⟩ (f.bodyEnd options body span s) :=
      trace_bodyEnd hparams hbody span s
    exact .inr ((htrace.mem_instructions hi).resolve_left List.not_mem_nil)
  · exact .inl hi

/-- The slots that a function refers to are its own. -/
theorem Callable.slot_lt_lower {f : Callable} {body : List Stmt} {span : Span} {s : LoweringState}
    (hsize : (f.lower options body span s).1.locals.size ≤ UInt32.size)
    (hi : i ∈ (f.lower options body span s).1.output.instructions) {slot : UInt32}
    (hslot : i.slot? = some slot) :
    slot.toNat < (f.lower options body span s).1.locals.size := by
  rcases mem_instructions_lower (fun _ _ ↦ trivial) (fun _ _ _ _ ↦ trivial) hi with hi | hi
  · simp [(refers_ending hi).2] at hslot
  · obtain ⟨s₁, name, v, hbefore, hafter, hv, rfl⟩ := hi.exists_variable hslot
    have hle : s₁.frame.slots.size ≤ (f.lower options body span s).1.locals.size :=
      hafter.frame.size_le
    have hone : s₁.frame.OneToOne :=
      hbefore.oneToOne Frame.sequential_empty (Nat.le_trans hle hsize)
    exact Nat.lt_of_lt_of_le (hone.slot_lt hv) hle

/-! ### Scripts -/

/-- The lowered functions are those of the declarations, one by one, each lowered when the symbols had
grown to what they were then. -/
theorem forall₂_lowerFunctions (options : CompilerOptions) (fs : List (FunctionDecl × Callable))
    (s : LoweringState) :
    List.Forall₂ (fun q g ↦ ∃ s₁ : LoweringState, s.symbols.Grows s₁.symbols ∧
        (q.2.lower options q.1.body q.1.span s₁).1 = g ∧
        (q.2.lower options q.1.body q.1.span s₁).2.symbols.Grows
          (lowerFunctions options fs s).2.symbols)
      fs (lowerFunctions options fs s).1 := by
  induction fs generalizing s with
  | nil => exact .nil
  | cons q fs ih =>
    have hfirst := Symbols.Grows.lower options q.2 q.1.body q.1.span s
    refine .cons ⟨s, .refl _, rfl, .lowerFunctions options fs _⟩ ((ih _).imp fun _ _ ↦ ?_)
    rintro ⟨s₁, hgrows, heq, hend⟩
    exact ⟨s₁, hfirst.trans hgrows, heq, hend⟩

theorem mem_lowerFunctions {fs : List (FunctionDecl × Callable)} {s : LoweringState}
    {g : LoweredFunction} (hg : g ∈ (lowerFunctions options fs s).1) :
    ∃ q ∈ fs, ∃ s₁ : LoweringState, s.symbols.Grows s₁.symbols ∧
      (q.2.lower options q.1.body q.1.span s₁).1 = g ∧
      (q.2.lower options q.1.body q.1.span s₁).2.symbols.Grows
        (lowerFunctions options fs s).2.symbols :=
  exists_mem_of_forall₂ (forall₂_lowerFunctions options fs s) hg

end StackLowering

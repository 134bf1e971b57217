import StackLowering.Proofs.Lowering.Pools
import StackLowering.Proofs.Lowering.Slots
import StackLowering.Proofs.Machine.Execution

/-!
# The slots of parameters

A caller puts the arguments into the first slots of a function, and the function says how many these
are. Its parameters are declared before anything else, so that each of them finds its argument there,
as long as every declaration succeeds. A parameter with the name of an earlier one is reported and gets
no slot, but still counts: the parameters behind it then read their arguments one slot too low, and the
function may have fewer slots than it says that it has parameters. So the parameters own the first
slots exactly if they have different names, and no more of them than 16 bits can tell apart
(`Callable.ownsLeadingSlots_iff`).

No code of the body writes these slots, and so a parameter reads its argument at every moment.

## Two halves

To own a slot is a matter of the frame: the parameters are declared one after the other, and a name is
in the frame once (`Callable.frame_paramsEnd`). To read an argument is a matter of execution as well.
An instruction writes no slot but the one that it names (`Host.slots_step`), and the body names none of
these slots in a store, so that at every moment the slots hold what they held when the function was
entered (`Callable.LoweredUpTo`). The second half needs all slots of the function to fit into 16 bits,
and no variable to be named like a temporary.
-/

namespace StackLowering

variable {options : CompilerOptions}

/-! ### Declaring parameters -/

/-- A parameter with a new name gets a slot. -/
theorem Progress.frame_after_declareParam {p : Progress} {param : Param}
    (hnew : p.state.frame.find? param.name = none) (span : Span) :
    (p.after (Lower.declareParam span param)).state.frame =
      (p.state.frame.allocate param.name param.type span).2 := by
  refine (congrArg LoweringState.frame (Lower.state_declareParam param span p.state)).trans ?_
  rw [Frame.declare, hnew]

/-- Parameters with new and different names get the next slots in order. -/
theorem Progress.frame_after_forM_declareParam (span : Span) {params : List Param} {p : Progress}
    (hnodup : (params.map (·.name)).Nodup)
    (hnew : ∀ param ∈ params, p.state.frame.find? param.name = none) :
    let frame := (p.after (params.forM (Lower.declareParam span))).state.frame
    p.state.frame.Extends frame ∧
      frame.slots.toList = p.state.frame.slots.toList ++ params.map (·.type) ∧
      ∀ (i : Nat) param, params[i]? = some param →
        frame.find? param.name = some ⟨param.type, (p.state.frame.slots.size + i).toUInt32, span⟩ := by
  induction params generalizing p with
  | nil =>
    intro frame
    have hframe : frame = p.state.frame := congrArg (·.state.frame) (p.after_pure ())
    rw [hframe]
    exact ⟨.refl _, (List.append_nil _).symm, nofun⟩
  | cons param params ih =>
    intro frame
    obtain ⟨hfirst, hrest⟩ := List.nodup_cons.1 hnodup
    have hnone := hnew param List.mem_cons_self
    have hafter : p.after ((param :: params).forM (Lower.declareParam span)) =
        (p.after (Lower.declareParam span param)).after (params.forM (Lower.declareParam span)) :=
      p.after_bind _ _
    have hframe := Progress.frame_after_declareParam hnone span
    have hallocate : p.state.frame.Extends (p.after (Lower.declareParam span param)).state.frame :=
      hframe ▸ .allocate hnone param.type span
    have hothers : ∀ param' ∈ params,
        (p.after (Lower.declareParam span param)).state.frame.find? param'.name = none := by
      intro param' hparam'
      have hne : param.name ≠ param'.name := fun heq ↦
        hfirst (List.mem_map.2 ⟨param', hparam', heq.symm⟩)
      rw [hframe, Frame.find?_allocate, if_neg hne]
      exact hnew param' (List.mem_cons_of_mem param hparam')
    obtain ⟨hextends, hslots, hfind⟩ := ih hrest hothers
    rw [← hafter] at hextends hslots hfind
    refine ⟨hallocate.trans hextends, ?_, fun i param' hparam' ↦ ?_⟩
    · rw [hslots, hframe]
      simp [Frame.allocate]
    · cases i with
      | zero =>
        obtain rfl := Option.some.inj hparam'
        refine hextends.find? ?_
        rw [hframe, Frame.find?_allocate, if_pos rfl]
        rfl
      | succ i =>
        rw [hfind i param' hparam', hframe, Frame.size_slots_allocate, Nat.add_right_comm]
        rfl

/-! ### Reading a variable -/

/-- Lowering a variable writes one instruction, which reads its slot. -/
theorem Operand.run_infer_var {name : String} {v : LocalVariable} {s : LoweringState}
    (h : s.frame.find? name = some v) (span : Span) :
    (var name span).infer.run.run s =
      ⟨.ok (.ofVariable v.type), { s with line := span.line },
        { code := [⟨span.line, .getLocal v.slot⟩] }⟩ := by
  unfold var ofInference
  dsimp only
  rw [Attempt.run_lift_bind (x := Lower.setLine span.line) _ (s := s) rfl,
    Attempt.run_lift_bind (x := Lower.get) _ (s := { s with line := span.line }) rfl]
  dsimp only
  rw [h]
  rfl

/-! ### Slots that are not written -/

namespace Host

variable {h : Host} {c c' : Configuration} {slot : UInt32}

theorem slots_replace {f : Cell → Option Cell} (hc : replace f c = .ok c') : c'.slots = c.slots := by
  unfold replace at hc
  split at hc
  · split at hc
    · rw [← Except.ok.inj hc]
    · exact nomatch hc
  · exact nomatch hc

theorem slots_combine {f : Cell → Cell → Option Cell} (hc : combine f c = .ok c') :
    c'.slots = c.slots := by
  unfold combine at hc
  split at hc
  · split at hc
    · rw [← Except.ok.inj hc]
    · exact nomatch hc
  · exact nomatch hc

theorem slots_storeAt {category : Category} {offset : UInt32}
    (hc : storeAt category offset c = .ok c') : c'.slots = c.slots := by
  unfold storeAt at hc
  split at hc
  · split at hc
    · split at hc
      · rw [← Except.ok.inj hc]
        rfl
      · exact nomatch hc
    · exact nomatch hc
  · exact nomatch hc

theorem slots_callWith {callee : String} {argc : Nat} (hc : h.callWith callee argc c = .ok c') :
    c'.slots = c.slots := by
  unfold callWith at hc
  split at hc
  · dsimp only at hc
    split at hc
    · rw [← Except.ok.inj hc]
    · exact nomatch hc
  · exact nomatch hc

/-- An instruction writes no slot but the one it names. -/
theorem slots_step {i : SymbolicInstruction} (hset : i ≠ .setLocal slot) (htee : i ≠ .teeLocal slot)
    (hc : h.step i c = .ok c') : c'.slots slot = c.slots slot := by
  cases i with
  | add | mul => exact congrFun (slots_combine hc) slot
  | convert | extend8S | extend16S | mask8 | mask16 | nonZero => exact congrFun (slots_replace hc) slot
  | store => exact congrFun (slots_storeAt hc) slot
  | call => exact congrFun (slots_callWith hc) slot
  | const constant =>
    rw [step] at hc
    split at hc
    · rw [← Except.ok.inj hc]
      rfl
    · exact nomatch hc
  | pop =>
    rw [step] at hc
    split at hc
    · rw [← Except.ok.inj hc]
    · exact nomatch hc
  | getLocal => rw [← Except.ok.inj hc]; rfl
  | setLocal slot' =>
    rw [step] at hc
    split at hc
    · have hne : slot ≠ slot' := fun heq ↦ hset (congrArg _ heq.symm)
      rw [← Except.ok.inj hc]
      exact if_neg hne
    · exact nomatch hc
  | teeLocal slot' =>
    rw [step] at hc
    split at hc
    · have hne : slot ≠ slot' := fun heq ↦ htee (congrArg _ heq.symm)
      rw [← Except.ok.inj hc]
      exact if_neg hne
    · exact nomatch hc
  | ret =>
    rw [step] at hc
    split at hc <;> exact nomatch hc
  | retVoid | trap => exact nomatch hc

/-- Code that never writes a slot leaves it as it was. -/
theorem slots_run {is : List SymbolicInstruction} (hset : .setLocal slot ∉ is)
    (htee : .teeLocal slot ∉ is) (hc : h.run is c = .ok c') : c'.slots slot = c.slots slot := by
  induction is generalizing c with
  | nil => exact congrArg (fun c : Configuration ↦ c.slots slot) (Except.ok.inj hc).symm
  | cons i is ih =>
    rw [run] at hc
    split at hc
    next c₁ hstep =>
      have hrest := ih (fun hmem ↦ hset (List.mem_cons_of_mem i hmem))
        (fun hmem ↦ htee (List.mem_cons_of_mem i hmem)) hc
      have hfirst := slots_step (fun heq ↦ hset (heq ▸ List.mem_cons_self))
        (fun heq ↦ htee (heq ▸ List.mem_cons_self)) hstep
      exact hrest.trans hfirst
    next => simp at hc

end Host

/-! ### What the parameters of a function own -/

/-- The instruction as code has it, with the low 16 bits of a slot. -/
def Instruction.narrowed : SymbolicInstruction → SymbolicInstruction :=
  map id id (·.toUInt16.toUInt32)

theorem Instruction.narrowed_eq {i : SymbolicInstruction}
    (h : ∀ slot, i.slot? = some slot → slot.toNat < 65536) : i.narrowed = i := by
  cases i with
  | getLocal slot => exact congrArg getLocal (toUInt16_toUInt32_eq_iff.2 (h slot rfl))
  | setLocal slot => exact congrArg setLocal (toUInt16_toUInt32_eq_iff.2 (h slot rfl))
  | teeLocal slot => exact congrArg teeLocal (toUInt16_toUInt32_eq_iff.2 (h slot rfl))
  | _ => rfl

namespace Callable

/-- The uses of names in a function with a given body. -/
def uses (f : Callable) (body : List Stmt) : List NameUse :=
  f.params.map (.declare ·.name) ++ body.flatMap Stmt.uses

/-- The parameters of a function are declared, and its body is lowered up to some moment. -/
structure LoweredUpTo (options : CompilerOptions) (f : Callable) (body : List Stmt) (span : Span)
    (s : LoweringState) (q : Progress) : Prop where
  before : BodyTrace options (· ∈ f.uses body) (f.paramsEnd span s) q
  after : BodyTrace options (· ∈ f.uses body) q (f.bodyEnd options body span s)

/-- There is such a moment between any two statements. -/
theorem loweredUpTo_append (options : CompilerOptions) (f : Callable) (first rest : List Stmt)
    (span : Span) (s : LoweringState) :
    f.LoweredUpTo options (first ++ rest) span s
      ((f.paramsEnd span s).after (first.forM (Stmt.lower options f.returns))) := by
  have htraced (stmts : List Stmt) (hmem : ∀ stmt ∈ stmts, stmt ∈ first ++ rest) :
      (stmts.forM (Stmt.lower options f.returns)).Traced options (· ∈ f.uses (first ++ rest)) :=
    .forM fun stmt hstmt ↦ Stmt.traced_lower f.returns fun u hu ↦
      List.mem_append_right _ (List.mem_flatMap.2 ⟨stmt, hmem stmt hstmt, hu⟩)
  have hsplit : (first ++ rest).forM (Stmt.lower options f.returns) =
      first.forM (Stmt.lower options f.returns) >>= fun _ ↦
        rest.forM (Stmt.lower options f.returns) := List.forM_append
  refine ⟨htraced first (fun _ ↦ List.mem_append_left rest) _, ?_⟩
  rw [bodyEnd_eq, hsplit, Progress.after_bind]
  exact htraced rest (fun _ ↦ List.mem_append_right first) _

/-- The parameters of a compiled function own its first slots. -/
structure OwnsLeadingSlots (options : CompilerOptions) (f : Callable) (body : List Stmt) (span : Span)
    (s : LoweringState) (pool : ConstantPool) : Prop where
  /-- There is a slot for each parameter. -/
  count : (f.compile options body span s pool).function.paramCount ≤
    (f.compile options body span s pool).function.locals.size
  /-- It has the type of the parameter. -/
  types : ∀ (i : Nat) param, i < (f.compile options body span s pool).function.paramCount →
    f.params[i]? = some param →
      (f.compile options body span s pool).function.locals[i]? = some param.type
  /-- The parameter is read from there. -/
  reads : ∀ (i : Nat) param, f.params[i]? = some param →
    ∀ q, f.LoweredUpTo options body span s q → ∀ place : Span, ∃ slot,
      (Operand.var param.name place).infer.run.run q.state =
        ⟨.ok (.ofVariable param.type), { q.state with line := place.line },
          { code := [⟨place.line, .getLocal slot⟩] }⟩ ∧
      slot.toUInt16.toNat = i

/-- Wherever the code before it completes, the code that reads a parameter pushes what its slot held
when the function was entered. -/
def ReadsArguments (options : CompilerOptions) (f : Callable) (body : List Stmt) (span : Span)
    (s : LoweringState) : Prop :=
  ∀ (i : Nat) param, f.params[i]? = some param → ∀ q, f.LoweredUpTo options body span s q →
    ∀ (h : Host) (c c' : Configuration),
      h.run (q.output.instructions.map Instruction.narrowed) c = .ok c' → ∀ place : Span,
        h.run ((q.after (Operand.var param.name place).infer.run).output.instructions.map
          Instruction.narrowed) c = .ok (c'.push (c.slots i.toUInt32))

variable {f : Callable} {body : List Stmt} {span : Span} {s : LoweringState} {pool : ConstantPool}
  {q : Progress}

/-- Before the body, the slots are those of the parameters, if these have different names. -/
theorem frame_paramsEnd (hnodup : (f.params.map (·.name)).Nodup) :
    (f.paramsEnd span s).state.frame.slots.toList = f.params.map (·.type) ∧
      ∀ (i : Nat) param, f.params[i]? = some param →
        (f.paramsEnd span s).state.frame.find? param.name = some ⟨param.type, i.toUInt32, span⟩ := by
  have hnew (param : Param) (_ : param ∈ f.params) :
      (bodyStart s).frame.find? param.name = none := by
    simp [bodyStart, Frame.find?, Frame.empty]
  obtain ⟨-, hslots, hfind⟩ :=
    Progress.frame_after_forM_declareParam span (p := ⟨bodyStart s, .empty⟩) hnodup hnew
  refine ⟨hslots, fun i param hparam ↦ (hfind i param hparam).trans ?_⟩
  have hsize : (bodyStart s).frame.slots.size + i = i := Nat.zero_add i
  rw [hsize]

/-- The parameters stay where they are. -/
theorem LoweredUpTo.find? (hq : f.LoweredUpTo options body span s q)
    (hnodup : (f.params.map (·.name)).Nodup) {i : Nat} {param : Param}
    (hparam : f.params[i]? = some param) :
    q.state.frame.find? param.name = some ⟨param.type, i.toUInt32, span⟩ :=
  hq.before.trace.steps.frame.find? ((frame_paramsEnd hnodup).2 i param hparam)

theorem locals_compile :
    (f.compile options body span s pool).function.locals =
      (f.bodyEnd options body span s).state.frame.slots :=
  congrArg (·.frame.slots) (snd_lower options f body span s)

theorem loweredUpTo_paramsEnd (options : CompilerOptions) (f : Callable) (body : List Stmt)
    (span : Span) (s : LoweringState) :
    f.LoweredUpTo options body span s (f.paramsEnd span s) :=
  (f.paramsEnd span s).after_pure () ▸ f.loweredUpTo_append options [] body span s

/-- Parameters with different names own the first slots, if 16 bits tell them apart. -/
theorem ownsLeadingSlots_of_nodup (hnodup : (f.params.map (·.name)).Nodup)
    (harity : f.arity ≤ 65536) : f.OwnsLeadingSlots options body span s pool := by
  have hslots : (f.paramsEnd span s).state.frame.slots.toList = f.params.map (·.type) :=
    (frame_paramsEnd hnodup).1
  have hextends := (f.loweredUpTo_paramsEnd options body span s).after.trace.steps.frame
  constructor
  case count =>
    show f.params.length ≤ _
    have hsize := hextends.size_le
    rw [← Array.length_toList, hslots, List.length_map] at hsize
    rwa [locals_compile]
  case types =>
    intro i param _ hparam
    obtain ⟨others, hothers⟩ := hextends.slots
    have htype : (f.params.map (·.type))[i]? = some param.type := by
      rw [List.getElem?_map, hparam, Option.map_some]
    rw [locals_compile, ← Array.getElem?_toList, ← hothers, hslots,
      List.getElem?_append_left (List.getElem?_eq_some_iff.1 htype).1, htype]
  case reads =>
    intro i param hparam q hq place
    have hlt : i < f.arity := (List.getElem?_eq_some_iff.1 hparam).1
    refine ⟨i.toUInt32, Operand.run_infer_var (hq.find? hnodup hparam) place, ?_⟩
    show i % 2 ^ 32 % 2 ^ 16 = i
    omega

/-- Parameters that own the first slots have different names, since a name stands for one slot. -/
theorem OwnsLeadingSlots.nodup (h : f.OwnsLeadingSlots options body span s pool) :
    (f.params.map (·.name)).Nodup := by
  have hstart := f.loweredUpTo_paramsEnd options body span s
  refine List.nodup_iff_getElem?_ne_getElem?.2 fun i j hij hj heq ↦ ?_
  rw [List.length_map] at hj
  have hi : f.params[i]? = some f.params[i] := List.getElem?_eq_getElem (Nat.lt_trans hij hj)
  have hj' : f.params[j]? = some f.params[j] := List.getElem?_eq_getElem hj
  rw [List.getElem?_map, List.getElem?_map, hi, hj'] at heq
  obtain ⟨slot, hrun, hslot⟩ := h.reads i _ hi _ hstart .nowhere
  obtain ⟨slot', hrun', hslot'⟩ := h.reads j _ hj' _ hstart .nowhere
  have hname : f.params[i].name = f.params[j].name := Option.some.inj heq
  rw [hname, hrun'] at hrun
  have hread : [(.getLocal slot' : SymbolicInstruction)] = [.getLocal slot] :=
    congrArg (fun o : Outcome _ ↦ o.output.instructions) hrun
  have hsame : slot' = slot := Instruction.getLocal.inj (List.singleton_inj.1 hread)
  rw [hsame] at hslot'
  omega

theorem OwnsLeadingSlots.arity_le (h : f.OwnsLeadingSlots options body span s pool) :
    f.arity ≤ 65536 := by
  by_contra hgt
  have hlt : 65536 < f.params.length := Nat.lt_of_not_le hgt
  obtain ⟨slot, -, hslot⟩ := h.reads 65536 _ (List.getElem?_eq_getElem hlt) _
    (f.loweredUpTo_paramsEnd options body span s) .nowhere
  have hslot_lt := slot.toUInt16.toNat_lt
  omega

end Callable

/-- A slot that an instruction names is one of the frame. -/
theorem Progress.Orderly.slot_lt {start : Frame} {p : Progress} (hp : p.Orderly start)
    (hone : p.state.frame.OneToOne) {i : SymbolicInstruction} (hi : i ∈ p.output.instructions)
    {slot : UInt32} (hslot : i.slot? = some slot) : slot.toNat < p.state.frame.slots.size := by
  have hset (h : .setLocal slot ∈ p.output.instructions) : slot.toNat < p.state.frame.slots.size := by
    obtain ⟨name, v, hv, rfl, -⟩ := hp.set h
    exact hone.slot_lt hv
  have htee (h : .teeLocal slot ∈ p.output.instructions) : slot.toNat < p.state.frame.slots.size := by
    obtain ⟨name, v, hv, rfl, -⟩ := hp.tee h
    exact hone.slot_lt hv
  cases i with
  | getLocal slot' =>
    obtain rfl := Option.some.inj hslot
    obtain ⟨k, hk⟩ := List.mem_iff_getElem?.1 hi
    rcases hp.read hk with ⟨name, v, hv, rfl⟩ | h | h
    · exact hone.slot_lt (hp.frame.find? hv)
    · exact hset (List.mem_of_mem_take h)
    · exact htee (List.mem_of_mem_take h)
  | setLocal slot' => exact hset (Option.some.inj hslot ▸ hi)
  | teeLocal slot' => exact htee (Option.some.inj hslot ▸ hi)
  | _ => exact nomatch hslot

/-- If all slots fit into 16 bits, code uses those that were meant. -/
theorem Progress.Orderly.map_narrowed {start : Frame} {p : Progress} (hp : p.Orderly start)
    (hone : p.state.frame.OneToOne) (hsize : p.state.frame.slots.size ≤ 65536) :
    p.output.instructions.map Instruction.narrowed = p.output.instructions := by
  have hsame : ∀ i ∈ p.output.instructions, i.narrowed = id i := fun i hi ↦
    Instruction.narrowed_eq fun slot hslot ↦
      Nat.lt_of_lt_of_le (hp.slot_lt hone hi hslot) hsize
  rw [List.map_congr_left hsame, List.map_id]

/-- The slot of a variable of the start is not written. -/
theorem Progress.Orderly.not_written {start : Frame} {p : Progress} (hp : p.Orderly start)
    (hone : p.state.frame.OneToOne) {name : String} {v : LocalVariable}
    (hv : start.find? name = some v) (hname : ¬ IsTemporary name) :
    .setLocal v.slot ∉ p.output.instructions ∧ .teeLocal v.slot ∉ p.output.instructions := by
  have hfind := hp.frame.find? hv
  constructor
  · intro hmem
    obtain ⟨name', v', hv', hslot, hnone, -⟩ := hp.set hmem
    obtain rfl := hone.slot_inj hfind hv' hslot.symm
    exact nomatch hv.symm.trans hnone
  · intro hmem
    obtain ⟨name', v', hv', hslot, htemp⟩ := hp.tee hmem
    exact hname (hone.slot_inj hfind hv' hslot.symm ▸ htemp)

namespace Callable

variable {f : Callable} {body : List Stmt} {span : Span} {s : LoweringState} {pool : ConstantPool}
  {q : Progress}

/-- Up to every moment the slots are used in order. -/
theorem LoweredUpTo.orderly (hq : f.LoweredUpTo options body span s q)
    (hnames : Ordinary (· ∈ f.uses body)) (hsize : q.state.frame.slots.size ≤ UInt32.size) :
    q.state.frame.OneToOne ∧ q.Orderly (f.paramsEnd span s).state.frame := by
  have hparams : Trace options (fun _ ↦ True) ⟨bodyStart s, .empty⟩ (f.paramsEnd span s) :=
    trace_paramsEnd (fun _ _ ↦ trivial) span s
  have hbody : (f.paramsEnd span s).state.Steps q.state := hq.before.trace.steps
  have hempty := (Progress.after_forM_declareParam f.params span ⟨bodyStart s, .empty⟩).1
  have hsequential : (f.paramsEnd span s).state.frame.Sequential :=
    hparams.steps.sequential Frame.sequential_empty
  exact ⟨hbody.oneToOne hsequential hsize,
    hq.before.orderly hnames (.of_nil hempty) hsequential hsize⟩

/-- In a function with at most 65536 slots, the body reads its arguments. -/
theorem readsArguments_of_nodup (hnodup : (f.params.map (·.name)).Nodup)
    (hnames : Ordinary (· ∈ f.uses body))
    (hsize : (f.compile options body span s pool).function.locals.size ≤ 65536) :
    f.ReadsArguments options body span s := by
  intro i param hparam q hq h c c' hrun place
  rw [locals_compile] at hsize
  have hqsize : q.state.frame.slots.size ≤ 65536 :=
    Nat.le_trans hq.after.trace.steps.frame.size_le hsize
  obtain ⟨hone, horderly⟩ := hq.orderly hnames (Nat.le_trans hqsize (by decide))
  have hfind := hq.find? hnodup hparam
  have hcode : (q.after (Operand.var param.name place).infer.run).output.instructions =
      q.output.instructions ++ [.getLocal i.toUInt32] := by
    rw [Progress.instructions_after, Lower.code, Operand.run_infer_var hfind]
    rfl
  have hlt : i.toUInt32.toNat < 65536 := Nat.lt_of_lt_of_le (hone.slot_lt hfind) hqsize
  have hread : Instruction.narrowed (.getLocal i.toUInt32) = .getLocal i.toUInt32 :=
    congrArg Instruction.getLocal (Instruction.toUInt16_toUInt32_eq_iff.2 hlt)
  have htemp : ¬IsTemporary param.name :=
    hnames.declare (List.mem_append_left _ (List.mem_map.2 ⟨param, List.mem_of_getElem? hparam, rfl⟩))
  obtain ⟨hset, htee⟩ :=
    horderly.not_written hone ((frame_paramsEnd hnodup).2 i param hparam) htemp
  rw [horderly.map_narrowed hone hqsize] at hrun
  rw [hcode, List.map_append, horderly.map_narrowed hone hqsize, List.map_singleton, hread,
    Host.run_append_ok hrun, ← Host.slots_run hset htee hrun]
  rfl

/-- Whatever is reported about a function, its parameters own its first slots exactly if they have
different names and 16 bits tell them apart. If the function has no more slots than that and none of
its variables is named like a temporary, its body sees the arguments. -/
theorem ownsLeadingSlots_iff (options : CompilerOptions) (f : Callable) (body : List Stmt)
    (span : Span) (s : LoweringState) (pool : ConstantPool) :
    (f.OwnsLeadingSlots options body span s pool ↔
      (f.params.map (·.name)).Nodup ∧ f.arity ≤ 65536) ∧
    ((f.params.map (·.name)).Nodup → Ordinary (· ∈ f.uses body) →
      (f.compile options body span s pool).function.locals.size ≤ 65536 →
        f.ReadsArguments options body span s) :=
  ⟨⟨fun h ↦ ⟨h.nodup, h.arity_le⟩, fun h ↦ ownsLeadingSlots_of_nodup h.1 h.2⟩,
    readsArguments_of_nodup⟩

/-- A function whose first two parameters have the same name. -/
def namesakeParams : Callable :=
  .function "f" [⟨"a", Primitive.int32.fingerprint, none⟩, ⟨"a", Primitive.double.fingerprint, none⟩,
    ⟨"b", Primitive.int32.fingerprint, none⟩] voidType

/-- The function says that it has three parameters and has two slots. It reads the last parameter from
the second one. Without the first parameter, its parameters own the first slots. -/
theorem ownsLeadingSlots_iff_namesake :
    let s : LoweringState := { symbols := { registry := .withPrimitives .w32 } }
    let body : List Stmt := [.expr (.var ⟨"b", .nowhere⟩ .nowhere) .nowhere]
    let c := namesakeParams.compile {} body .nowhere s .empty
    let f := Callable.function "f" (namesakeParams.params.drop 1) voidType
    (c.function.paramCount = 3 ∧
      c.function.locals = #[Primitive.int32.fingerprint, Primitive.int32.fingerprint] ∧
      decode c.function.chunk.code = .ok [.getLocal 1, .pop, .retVoid] ∧
      c.errors = [.variableRedeclaration "a" .nowhere] ∧
      ¬namesakeParams.OwnsLeadingSlots {} body .nowhere s .empty) ∧
    f.OwnsLeadingSlots {} body .nowhere s .empty ∧ f.ReadsArguments {} body .nowhere s := by
  intro s body c f
  have hsame := ownsLeadingSlots_iff {} namesakeParams body .nowhere s .empty
  have hdifferent := ownsLeadingSlots_iff {} f body .nowhere s .empty
  have hnot : ¬(namesakeParams.params.map (·.name)).Nodup := by decide
  have hnodup : (f.params.map (·.name)).Nodup := by decide
  have huses : f.uses body = [.declare "a", .declare "b", .read "b"] := rfl
  have hnames : Ordinary (· ∈ f.uses body) := by
    rw [huses]
    constructor
    all_goals
      intro name hname
      simp only [List.mem_cons, NameUse.read.injEq, NameUse.declare.injEq, reduceCtorEq, false_or,
        List.not_mem_nil, or_false] at hname
    · rw [hname]
      unfold IsTemporary
      decide
    · rcases hname with rfl | rfl
      all_goals
        unfold IsTemporary
        decide
  exact ⟨⟨by decide +kernel, by decide +kernel, by decide +kernel, by decide +kernel,
    fun h ↦ hnot (hsame.1.1 h).1⟩, hdifferent.1.2 ⟨hnodup, by decide⟩,
    hdifferent.2 hnodup hnames (by decide +kernel)⟩

end Callable

end StackLowering

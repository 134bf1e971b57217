import StackLowering.Proofs.Lowering.Capacity

/-!
# The discipline of slots

A function has three kinds of slots: those of its parameters, those of its variables and those of the
two temporaries. Code reads a slot only after something was put there, writes a variable once, when it
is declared, and never writes a parameter (`SlotDiscipline`).

Slots are allocated at different moments, so the discipline is not a property of single instructions.
It relates the frame to all that was written before (`Progress.Orderly`), and every action keeps it,
given that the names in the script are none of the temporaries. The parameters are declared first and
without an instruction, which is why the body of a function starts from their frame.

## From slots to places in code

What is proved of a lowering holds as long as every slot has a number of its own (`BodyTrace.orderly`).
Code has only the low 16 bits of the number, and they still tell the slots apart if there are at most
65536 of them (`Frame.OneToOne.place?_inj`). So the discipline of the instructions is that of the code,
for every function of a script and whether errors were reported or not (`Script.slots_compile`).
-/

namespace StackLowering

open Relation

variable {options : CompilerOptions} {Uses : NameUse → Prop}

/-! ### What occurs once -/

theorem existsUnique_getElem?_of_count {α : Type} [DecidableEq α] {l : List α} {a : α}
    (h : l.count a = 1) : ∃! k : Nat, l[k]? = some a := by
  induction l with
  | nil => simp at h
  | cons b l ih =>
    rw [List.count_cons] at h
    by_cases hb : b = a
    · -- it is the first element, and occurs nowhere after it
      subst hb
      have hnot : b ∉ l := List.count_eq_zero.1 (by simpa using h)
      refine ⟨0, rfl, fun k hk ↦ ?_⟩
      cases k with
      | zero => rfl
      | succ k => exact absurd (List.mem_of_getElem? (l := l) hk) hnot
    · obtain ⟨k, hk, hunique⟩ := ih (by simpa [hb] using h)
      refine ⟨k + 1, hk, fun k' hk' ↦ ?_⟩
      cases k' with
      | zero => exact absurd (Option.some.inj hk') hb
      | succ k' => rw [hunique k' hk']

/-! ### Slots that are used up to some moment -/

/-- A slot that holds a value: that of a parameter, or one that was written. -/
def Progress.Holds (start : Frame) (is : List SymbolicInstruction) (slot : UInt32) : Prop :=
  (∃ name v, start.find? name = some v ∧ v.slot = slot) ∨ .setLocal slot ∈ is ∨ .teeLocal slot ∈ is

/-- How slots were used so far, if the parameters are those of `start`. -/
structure Progress.Orderly (start : Frame) (p : Progress) : Prop where
  frame : start.Extends p.state.frame
  stored : ∀ {name : String} {v : LocalVariable}, p.state.frame.find? name = some v →
    start.find? name = none → ¬ IsTemporary name →
      p.output.instructions.count (.setLocal v.slot) = 1
  set : ∀ {slot : UInt32}, .setLocal slot ∈ p.output.instructions → ∃ name v,
    p.state.frame.find? name = some v ∧ v.slot = slot ∧ start.find? name = none ∧ ¬ IsTemporary name
  tee : ∀ {slot : UInt32}, .teeLocal slot ∈ p.output.instructions → ∃ name v,
    p.state.frame.find? name = some v ∧ v.slot = slot ∧ IsTemporary name
  read : ∀ {k : Nat} {slot : UInt32}, p.output.instructions[k]? = some (.getLocal slot) →
    Holds start (p.output.instructions.take k) slot

namespace Progress.Orderly

variable {start : Frame} {p p' : Progress}

/-- Before anything is written, there are only parameters. -/
theorem of_nil (hcode : p.output.instructions = []) : p.Orderly p.state.frame := by
  refine ⟨.refl _, fun hv hnone ↦ ?_, ?_, ?_, ?_⟩
  · simp [hnone] at hv
  all_goals simp [hcode]

/-- Without an instruction, only temporaries may be new. -/
theorem of_stored (hp : p.Orderly start) (hframe : p.state.frame.Extends p'.state.frame)
    (hcode : p'.output.instructions = p.output.instructions)
    (hstored : ∀ {name : String} {v : LocalVariable}, p'.state.frame.find? name = some v →
      IsTemporary name ∨ p.state.frame.find? name = some v) : p'.Orderly start := by
  refine ⟨hp.frame.trans hframe, fun hv hnone htemp ↦ ?_, fun hset ↦ ?_, fun htee ↦ ?_, ?_⟩
  · rw [hcode]
    exact hp.stored ((hstored hv).resolve_left htemp) hnone htemp
  · obtain ⟨name, v, hv, hrest⟩ := hp.set (hcode ▸ hset)
    exact ⟨name, v, hframe.find? hv, hrest⟩
  · obtain ⟨name, v, hv, hrest⟩ := hp.tee (hcode ▸ htee)
    exact ⟨name, v, hframe.find? hv, hrest⟩
  · rw [hcode]
    exact hp.read

/-- What is read at the end is read after everything else. -/
theorem read_append (hp : p.Orderly start) {i : SymbolicInstruction} {slot : UInt32}
    (hi : ∀ slot, i = .getLocal slot → Holds start p.output.instructions slot) {k : Nat}
    (h : (p.output.instructions ++ [i])[k]? = some (.getLocal slot)) :
    Holds start ((p.output.instructions ++ [i]).take k) slot := by
  rcases Nat.lt_or_ge k p.output.instructions.length with hlt | hge
  · rw [List.getElem?_append_left hlt] at h
    rw [List.take_append_of_le_length (Nat.le_of_lt hlt)]
    exact hp.read h
  · rw [List.getElem?_append_right hge, List.getElem?_singleton] at h
    split at h
    next hk =>
      rw [show k = p.output.instructions.length by omega, List.take_left]
      exact hi slot (Option.some.inj h)
    next => cases h

/-- An instruction other than a store may be written if it reads what holds a value and writes
temporaries only. -/
theorem emit (hp : p.Orderly start) {i : SymbolicInstruction} (hset : ∀ slot, i ≠ .setLocal slot)
    (htee : ∀ slot, i = .teeLocal slot → ∃ name v,
      p.state.frame.find? name = some v ∧ v.slot = slot ∧ IsTemporary name)
    (hget : ∀ slot, i = .getLocal slot → Holds start p.output.instructions slot) :
    (p.after (Lower.emit i)).Orderly start := by
  have hcode : (p.after (Lower.emit i)).output.instructions = p.output.instructions ++ [i] :=
    p.instructions_after _
  refine ⟨hp.frame, fun hv hnone htemp ↦ ?_, fun h ↦ ?_, fun h ↦ ?_, fun h ↦ ?_⟩
  · rw [hcode, List.count_append, hp.stored hv hnone htemp, List.count_singleton,
      if_neg (by simpa using hset _)]
  · rw [hcode] at h
    rcases List.mem_append.1 h with h | h
    · exact hp.set h
    · exact absurd (List.mem_singleton.1 h).symm (hset _)
  · rw [hcode] at h
    rcases List.mem_append.1 h with h | h
    · exact hp.tee h
    · exact htee _ (List.mem_singleton.1 h).symm
  · rw [hcode] at h ⊢
    exact hp.read_append hget h

/-- An instruction that names no slot may be written. -/
theorem emit_of_slot?_eq_none (hp : p.Orderly start) {i : SymbolicInstruction}
    (h : i.slot? = none) : (p.after (Lower.emit i)).Orderly start := by
  refine hp.emit ?_ ?_ ?_
  all_goals
    rintro slot rfl
    cases h

/-- A new variable may be declared and stored. Its slot is new as well, so nothing else was stored
there. -/
theorem declare (hp : p.Orderly start) {name : String} (hname : ¬ IsTemporary name)
    (hnew : p.state.frame.find? name = none) (type : Fingerprint) (span : Span)
    (hone : (p.state.frame.allocate name type span).2.OneToOne) :
    (Progress.after ⟨{ p.state with frame := (p.state.frame.allocate name type span).2 }, p.output⟩
      (Lower.emit (.setLocal p.state.frame.size))).Orderly start := by
  have hext := Frame.Extends.allocate hnew type span
  have hfind := p.state.frame.find?_allocate_self name type span
  have hcode : (Progress.after
      ⟨{ p.state with frame := (p.state.frame.allocate name type span).2 }, p.output⟩
        (Lower.emit (.setLocal p.state.frame.size))).output.instructions =
      p.output.instructions ++ [.setLocal p.state.frame.size] :=
    Progress.instructions_after _ _
  -- an old variable has another slot
  have hne {name' : String} {v : LocalVariable} (hv : p.state.frame.find? name' = some v) :
      p.state.frame.size ≠ v.slot := by
    intro heq
    obtain rfl := hone.slot_inj hfind (hext.find? hv) heq
    simp [hnew] at hv
  have hnone : start.find? name = none := by
    cases hstart : start.find? name with
    | none => rfl
    | some v => simp [hp.frame.find? hstart] at hnew
  refine ⟨hp.frame.trans hext, fun {name' v} hv hnone' htemp ↦ ?_, fun {slot} h ↦ ?_,
    fun {slot} h ↦ ?_, fun {k slot} h ↦ ?_⟩
  · rw [hcode, List.count_append, List.count_singleton]
    rcases Frame.find?_allocate p.state.frame name name' type span ▸ hv with hv'
    by_cases heq : name = name'
    · rw [if_pos heq] at hv'
      obtain rfl := Option.some.inj hv'
      have hzero : p.output.instructions.count (.setLocal p.state.frame.size) = 0 := by
        refine List.count_eq_zero.2 fun hmem ↦ ?_
        obtain ⟨name₁, v₁, hv₁, hslot, -⟩ := hp.set hmem
        exact hne hv₁ hslot.symm
      simp [hzero]
    · rw [if_neg heq] at hv'
      simp [hp.stored hv' hnone' htemp, hne hv']
  · rw [hcode] at h
    rcases List.mem_append.1 h with h | h
    · obtain ⟨name₁, v₁, hv₁, hrest⟩ := hp.set h
      exact ⟨name₁, v₁, hext.find? hv₁, hrest⟩
    · obtain rfl := Instruction.setLocal.inj (List.mem_singleton.1 h)
      exact ⟨name, _, hfind, rfl, hnone, hname⟩
  · rw [hcode] at h
    rcases List.mem_append.1 h with h | h
    · obtain ⟨name₁, v₁, hv₁, hrest⟩ := hp.tee h
      exact ⟨name₁, v₁, hext.find? hv₁, hrest⟩
    · simp at h
  · rw [hcode] at h ⊢
    exact hp.read_append (by simp) h

end Progress.Orderly

/-- Names in a script are none of the temporaries. -/
structure Ordinary (Uses : NameUse → Prop) : Prop where
  read : ∀ {name : String}, Uses (.read name) → ¬ IsTemporary name
  declare : ∀ {name : String}, Uses (.declare name) → ¬ IsTemporary name

/-- An action in the body of a function keeps the discipline. -/
theorem BodyAction.orderly (hnames : Ordinary Uses) {start : Frame} {p p' : Progress}
    (h : BodyAction options Uses p p') (hp : p.Orderly start)
    (hone : p'.state.frame.OneToOne) : p'.Orderly start := by
  obtain ⟨haction, hstored⟩ := h
  have hframe := LoweringState.Steps.frame haction.steps
  cases haction with
  | line | report | annotate =>
    exact hp.of_stored hframe (p.instructions_after_of_code_eq_nil rfl)
      (hstored (p.instructions_after_of_code_eq_nil rfl))
  | symbols | parameter | temporaries => exact hp.of_stored hframe rfl (hstored rfl)
  | declare name hname hnew type span =>
    exact hp.declare (hnames.declare hname) hnew type span hone
  | write hgrounds =>
    cases hgrounds with
    | plain h => exact hp.emit_of_slot?_eq_none h.2.1
    | const | allocate | call | construct | trap => exact hp.emit_of_slot?_eq_none rfl
    | keep hname hv =>
      refine hp.emit (by simp) (fun slot hi ↦ ?_) (by simp)
      exact ⟨_, _, hv, Instruction.teeLocal.inj hi, hname⟩
    | reload hname hv hkept =>
      refine hp.emit (by simp) (by simp) fun slot hi ↦ ?_
      exact .inr (.inr (Instruction.getLocal.inj hi ▸ hkept))
    | @read name v hname hv =>
      refine hp.emit (by simp) (by simp) fun slot hi ↦ ?_
      obtain rfl := Instruction.getLocal.inj hi
      -- a variable is a parameter or was stored when it was declared
      cases hstart : start.find? name with
      | some v' =>
        obtain rfl := Option.some.inj ((hp.frame.find? hstart).symm.trans hv)
        exact .inl ⟨name, v', hstart, rfl⟩
      | none =>
        have hcount := hp.stored hv hstart (hnames.read hname)
        exact .inr (.inl (List.count_pos_iff.1 (by omega)))

/-- The body of a function keeps the discipline, as long as its slots have numbers. -/
theorem BodyTrace.orderly (hnames : Ordinary Uses) {start : Frame} {p p' : Progress}
    (h : BodyTrace options Uses p p') (hp : p.Orderly start) (hstart : p.state.frame.Sequential)
    (hsize : p'.state.frame.slots.size ≤ UInt32.size) : p'.Orderly start := by
  induction h with
  | refl => exact hp
  | @tail q p' htrace haction ih =>
    have hsteps := haction.action.steps
    have hle := Nat.le_trans hsteps.frame.size_le hsize
    have hq : q.state.frame.Sequential := (BodyTrace.trace htrace).steps.sequential hstart
    exact haction.orderly hnames (ih hle) (LoweringState.Steps.oneToOne hsteps hq hsize)

/-! ### Parameters -/

theorem Lower.state_declareParam (param : Param) (span : Span) (s : LoweringState) :
    ((declareParam span param).run s).state =
      { s with frame := (s.frame.declare param.name param.type span).2 } := by
  rw [declareParam, state_bind, Attempt.run_declare]
  dsimp only
  cases (s.frame.declare param.name param.type span).1 <;> rfl

theorem Lower.code_declareParam (param : Param) (span : Span) (s : LoweringState) :
    (declareParam span param).code s = [] := by
  rw [declareParam, code_bind, Attempt.run_declare]
  dsimp only
  cases (s.frame.declare param.name param.type span).1 <;> rfl

/-- Declaring parameters writes no instruction, and declares their names and no others. -/
theorem Progress.after_forM_declareParam (params : List Param) (span : Span) (p : Progress) :
    (p.after (params.forM (Lower.declareParam span))).output.instructions = p.output.instructions ∧
      ∀ name, ((p.after (params.forM (Lower.declareParam span))).state.frame.find? name).isSome ↔
        (∃ param ∈ params, param.name = name) ∨ (p.state.frame.find? name).isSome := by
  induction params generalizing p with
  | nil =>
    show (p.after (pure ())).output.instructions = _ ∧ ∀ name,
      ((p.after (pure ())).state.frame.find? name).isSome ↔ _
    simp [p.after_pure]
  | cons param params ih =>
    have hafter : p.after ((param :: params).forM (Lower.declareParam span)) =
        (p.after (Lower.declareParam span param)).after (params.forM (Lower.declareParam span)) :=
      p.after_bind _ _
    have hframe : (p.after (Lower.declareParam span param)).state.frame =
        (p.state.frame.declare param.name param.type span).2 :=
      congrArg LoweringState.frame (Lower.state_declareParam param span p.state)
    obtain ⟨hcode, hfind⟩ := ih (p.after (Lower.declareParam span param))
    rw [hafter]
    refine ⟨hcode.trans ?_, fun name ↦ (hfind name).trans ?_⟩
    · exact p.instructions_after_of_code_eq_nil (Lower.code_declareParam param span p.state)
    · rw [hframe, Frame.isSome_find?_declare]
      simp only [List.mem_cons, or_and_right, exists_or, exists_eq_left, @eq_comm _ name]
      exact or_left_comm.trans or_assoc.symm

namespace Callable

/-- The parameters of a function are the variables that are there before its body. -/
theorem isSome_find?_paramsEnd {f : Callable} {span : Span} {s : LoweringState} {name : String} :
    ((f.paramsEnd span s).state.frame.find? name).isSome ↔ ∃ param ∈ f.params, param.name = name := by
  have hstart : (bodyStart s).frame.find? name = none := by simp [bodyStart, Frame.find?, Frame.empty]
  refine ((Progress.after_forM_declareParam f.params span ⟨bodyStart s, .empty⟩).2 name).trans ?_
  simp [hstart]

/-- The statements of a function keep the discipline. -/
theorem orderly_bodyEnd {f : Callable} {body : List Stmt} (hnames : Ordinary Uses)
    (hbody : ∀ stmt ∈ body, ∀ u ∈ stmt.uses, Uses u) (span : Span) (s : LoweringState)
    (hsize : (f.bodyEnd options body span s).state.frame.slots.size ≤ UInt32.size) :
    (f.bodyEnd options body span s).Orderly (f.paramsEnd span s).state.frame := by
  have hbodyTrace : BodyTrace options Uses _ _ := f.bodyTrace_bodyEnd hbody span s
  have hparams : Trace options (fun _ ↦ True) ⟨bodyStart s, .empty⟩ (f.paramsEnd span s) :=
    trace_paramsEnd (fun _ _ ↦ trivial) span s
  have hcode := (Progress.after_forM_declareParam f.params span ⟨bodyStart s, .empty⟩).1
  exact BodyTrace.orderly hnames hbodyTrace (.of_nil hcode)
    (hparams.steps.sequential Frame.sequential_empty) hsize

end Callable

/-! ### Code -/

/-- The place of a variable in code. -/
def Frame.place? (frame : Frame) (name : String) : Option UInt16 :=
  (frame.find? name).map (·.slot.toUInt16)

/-- How code uses the slots of a function. Each slot is that of a parameter, of a variable or of a
temporary, and of no other name. -/
structure SlotDiscipline (params : List Param) (frame : Frame)
    (code : List (IndexedInstruction UInt16)) : Prop where
  /-- Every slot belongs to one name. -/
  exists_unique : ∀ slot : UInt16, slot.toNat < frame.slots.size →
    ∃! name, frame.place? name = some slot
  /-- All operands are slots of the function. -/
  operand_lt : ∀ slot, .getLocal slot ∈ code ∨ .setLocal slot ∈ code ∨ .teeLocal slot ∈ code →
    slot.toNat < frame.slots.size
  /-- Every parameter has a slot. -/
  param : ∀ p ∈ params, (frame.place? p.name).isSome
  /-- What is read is a parameter or was written before. -/
  initialised : ∀ (k : Nat) slot, code[k]? = some (.getLocal slot) →
    (∃ p ∈ params, frame.place? p.name = some slot) ∨
      ∃ j < k, code[j]? = some (.setLocal slot) ∨ code[j]? = some (.teeLocal slot)
  /-- Parameters are not written. -/
  not_written : ∀ p ∈ params, ∀ slot, frame.place? p.name = some slot →
    .setLocal slot ∉ code ∧ .teeLocal slot ∉ code
  /-- Variables are written once. -/
  written_once : ∀ name slot, frame.place? name = some slot → (∀ p ∈ params, p.name ≠ name) →
    ¬ IsTemporary name → (∃! k : Nat, code[k]? = some (.setLocal slot)) ∧ .teeLocal slot ∉ code
  /-- Temporaries are written by the other kind of store, and nothing else is. -/
  temporary : ∀ slot, .teeLocal slot ∈ code → ∃ name, IsTemporary name ∧
    frame.place? name = some slot ∧ .setLocal slot ∉ code

/-- Slots that fit into 16 bits are told apart by them. -/
theorem toUInt16_inj_of_lt {a b : UInt32} (ha : a.toNat < 65536) (hb : b.toNat < 65536)
    (h : a.toUInt16 = b.toUInt16) : a = b := by
  rw [← Instruction.toUInt16_toUInt32_eq_iff.2 ha, ← Instruction.toUInt16_toUInt32_eq_iff.2 hb, h]

namespace Frame

variable {frame : Frame} {name : String} {slot : UInt16}

theorem place?_eq_some_iff :
    frame.place? name = some slot ↔ ∃ v, frame.find? name = some v ∧ v.slot.toUInt16 = slot :=
  Option.map_eq_some_iff

theorem place?_of_find? {v : LocalVariable} (h : frame.find? name = some v) :
    frame.place? name = some v.slot.toUInt16 :=
  place?_eq_some_iff.2 ⟨v, h, rfl⟩

theorem OneToOne.slot_lt_of_size_le (h : frame.OneToOne) (hsize : frame.slots.size ≤ 65536)
    {v : LocalVariable} (hv : frame.find? name = some v) : v.slot.toNat < 65536 :=
  Nat.lt_of_lt_of_le (h.slot_lt hv) hsize

/-- Two names have different places. -/
theorem OneToOne.place?_inj (h : frame.OneToOne) (hsize : frame.slots.size ≤ 65536) {name' : String}
    (hname : frame.place? name = some slot) (hname' : frame.place? name' = some slot) :
    name = name' := by
  obtain ⟨v, hv, rfl⟩ := place?_eq_some_iff.1 hname
  obtain ⟨v', hv', heq⟩ := place?_eq_some_iff.1 hname'
  refine h.slot_inj hv hv' (toUInt16_inj_of_lt ?_ ?_ heq.symm)
  · exact h.slot_lt_of_size_le hsize hv
  · exact h.slot_lt_of_size_le hsize hv'

/-- Every slot is the place of one name. -/
theorem OneToOne.existsUnique_place? (h : frame.OneToOne) (hsize : frame.slots.size ≤ 65536)
    (hslot : slot.toNat < frame.slots.size) : ∃! name, frame.place? name = some slot := by
  obtain ⟨name, ⟨v, hv, hn⟩, -⟩ := h.existsUnique slot.toNat hslot
  have hplace : v.slot.toUInt16 = slot := by
    rw [← UInt16.toNat_inj, UInt32.toNat_toUInt16, hn]
    exact Nat.mod_eq_of_lt slot.toNat_lt
  exact ⟨name, place?_eq_some_iff.2 ⟨v, hv, hplace⟩, fun _ hname' ↦
    h.place?_inj hsize hname' (place?_eq_some_iff.2 ⟨v, hv, hplace⟩)⟩

end Frame

namespace Instruction

variable {pool : ConstantPool} {i : SymbolicInstruction} {slot : UInt16}

theorem shortened_eq_getLocal_iff :
    i.shortened pool = .getLocal slot ↔ ∃ s, i = .getLocal s ∧ s.toUInt16 = slot := by
  cases i <;> simp [shortened, map]

theorem shortened_eq_setLocal_iff :
    i.shortened pool = .setLocal slot ↔ ∃ s, i = .setLocal s ∧ s.toUInt16 = slot := by
  cases i <;> simp [shortened, map]

theorem shortened_eq_teeLocal_iff :
    i.shortened pool = .teeLocal slot ↔ ∃ s, i = .teeLocal s ∧ s.toUInt16 = slot := by
  cases i <;> simp [shortened, map]

end Instruction

namespace Progress.Orderly

variable {start : Frame} {p : Progress} {pool : ConstantPool} {slot : UInt16}

/-- What is stored in code is a variable. -/
theorem set_code (hp : p.Orderly start)
    (h : .setLocal slot ∈ p.output.instructions.map (·.shortened pool)) :
    ∃ name, p.state.frame.place? name = some slot ∧ start.find? name = none ∧ ¬ IsTemporary name := by
  obtain ⟨i, hi, heq⟩ := List.mem_map.1 h
  obtain ⟨s, rfl, rfl⟩ := Instruction.shortened_eq_setLocal_iff.1 heq
  obtain ⟨name, v, hv, rfl, hrest⟩ := hp.set hi
  exact ⟨name, Frame.place?_of_find? hv, hrest⟩

/-- What is kept in code is a temporary. -/
theorem tee_code (hp : p.Orderly start)
    (h : .teeLocal slot ∈ p.output.instructions.map (·.shortened pool)) :
    ∃ name, p.state.frame.place? name = some slot ∧ IsTemporary name := by
  obtain ⟨i, hi, heq⟩ := List.mem_map.1 h
  obtain ⟨s, rfl, rfl⟩ := Instruction.shortened_eq_teeLocal_iff.1 heq
  obtain ⟨name, v, hv, rfl, htemp⟩ := hp.tee hi
  exact ⟨name, Frame.place?_of_find? hv, htemp⟩

/-- What is read in code is a parameter, or was written before. -/
theorem read_code (hp : p.Orderly start) {k : Nat}
    (h : (p.output.instructions.map (·.shortened pool))[k]? = some (.getLocal slot)) :
    (∃ name, (start.find? name).isSome ∧ p.state.frame.place? name = some slot) ∨ ∃ j < k,
      (p.output.instructions.map (·.shortened pool))[j]? = some (.setLocal slot) ∨
        (p.output.instructions.map (·.shortened pool))[j]? = some (.teeLocal slot) := by
  obtain ⟨i, hi, heq⟩ := Option.map_eq_some_iff.1 (List.getElem?_map ▸ h)
  obtain ⟨s, rfl, rfl⟩ := Instruction.shortened_eq_getLocal_iff.1 heq
  have hbefore {i : SymbolicInstruction} (hmem : i ∈ p.output.instructions.take k) :
      ∃ j < k, (p.output.instructions.map (·.shortened pool))[j]? = some (i.shortened pool) := by
    obtain ⟨j, hj⟩ := List.mem_iff_getElem?.1 hmem
    rw [List.getElem?_take] at hj
    split at hj
    next hlt => exact ⟨j, hlt, by rw [List.getElem?_map, hj, Option.map_some]⟩
    next => cases hj
  rcases hp.read hi with ⟨name, v, hv, rfl⟩ | hset | htee
  · exact .inl ⟨name, Option.isSome_of_mem hv, Frame.place?_of_find? (hp.frame.find? hv)⟩
  · obtain ⟨j, hj, hset⟩ := hbefore hset
    exact .inr ⟨j, hj, .inl hset⟩
  · obtain ⟨j, hj, htee⟩ := hbefore htee
    exact .inr ⟨j, hj, .inr htee⟩

/-- A variable is stored once in code. -/
theorem existsUnique_set_code (hp : p.Orderly start) (hone : p.state.frame.OneToOne)
    (hsize : p.state.frame.slots.size ≤ 65536) {name : String}
    (hname : p.state.frame.place? name = some slot) (hnone : start.find? name = none)
    (htemp : ¬ IsTemporary name) :
    ∃! k : Nat, (p.output.instructions.map (·.shortened pool))[k]? = some (.setLocal slot) := by
  obtain ⟨v, hv, rfl⟩ := Frame.place?_eq_some_iff.1 hname
  obtain ⟨k, hk, hunique⟩ := existsUnique_getElem?_of_count (hp.stored hv hnone htemp)
  refine ⟨k, by simp [hk, Instruction.shortened, Instruction.map], fun k' hk' ↦ hunique k' ?_⟩
  simp only [List.getElem?_map] at hk'
  obtain ⟨i, hi, heq⟩ := Option.map_eq_some_iff.1 hk'
  obtain ⟨s, rfl, hs⟩ := Instruction.shortened_eq_setLocal_iff.1 heq
  obtain ⟨name', v', hv', rfl, -⟩ := hp.set (List.mem_of_getElem? hi)
  -- the two slots are the same before they are shortened as well
  rw [hi, toUInt16_inj_of_lt (hone.slot_lt_of_size_le hsize hv')
    (hone.slot_lt_of_size_le hsize hv) hs]

/-- The code of a function keeps the discipline if its instructions do. -/
theorem slotDiscipline (hp : p.Orderly start) (hone : p.state.frame.OneToOne)
    (hsize : p.state.frame.slots.size ≤ 65536) {params : List Param}
    (hparams : ∀ {name}, (start.find? name).isSome ↔ ∃ param ∈ params, param.name = name)
    (hnames : ∀ param ∈ params, ¬ IsTemporary param.name) (pool : ConstantPool) :
    SlotDiscipline params p.state.frame (p.output.instructions.map (·.shortened pool)) := by
  have hlt {name : String} {slot : UInt16} (h : p.state.frame.place? name = some slot) :
      slot.toNat < p.state.frame.slots.size := by
    obtain ⟨v, hv, rfl⟩ := Frame.place?_eq_some_iff.1 h
    have hslot := hone.slot_lt hv
    rw [UInt32.toNat_toUInt16]
    omega
  -- a parameter shares its slot neither with a variable nor with a temporary
  have hset {name : String} {slot : UInt16} (hplace : p.state.frame.place? name = some slot)
      (h : (start.find? name).isSome ∨ IsTemporary name) :
      .setLocal slot ∉ p.output.instructions.map (·.shortened pool) := by
    intro hmem
    obtain ⟨name', hname', hnone, htemp⟩ := hp.set_code hmem
    obtain rfl := hone.place?_inj hsize hplace hname'
    simp [hnone, htemp] at h
  have htee {name : String} {slot : UInt16} (hplace : p.state.frame.place? name = some slot)
      (h : ¬ IsTemporary name) : .teeLocal slot ∉ p.output.instructions.map (·.shortened pool) := by
    intro hmem
    obtain ⟨name', hname', htemp⟩ := hp.tee_code hmem
    exact h (hone.place?_inj hsize hname' hplace ▸ htemp)
  refine ⟨fun slot ↦ hone.existsUnique_place? hsize, ?_, ?_, ?_, ?_, ?_, ?_⟩
  · rintro slot (h | h | h)
    · obtain ⟨k, hk⟩ := List.mem_iff_getElem?.1 h
      rcases hp.read_code hk with ⟨name, -, hname⟩ | ⟨j, -, hj | hj⟩
      · exact hlt hname
      · obtain ⟨name, hname, -⟩ := hp.set_code (List.mem_of_getElem? hj)
        exact hlt hname
      · obtain ⟨name, hname, -⟩ := hp.tee_code (List.mem_of_getElem? hj)
        exact hlt hname
    · obtain ⟨name, hname, -⟩ := hp.set_code h
      exact hlt hname
    · obtain ⟨name, hname, -⟩ := hp.tee_code h
      exact hlt hname
  · intro param hmem
    obtain ⟨v, hv⟩ := Option.isSome_iff_exists.1 (hparams.2 ⟨param, hmem, rfl⟩)
    exact Option.isSome_of_mem (Frame.place?_of_find? (hp.frame.find? hv))
  · intro k slot h
    refine (hp.read_code h).imp_left ?_
    rintro ⟨name, hsome, hname⟩
    obtain ⟨param, hmem, rfl⟩ := hparams.1 hsome
    exact ⟨param, hmem, hname⟩
  · intro param hmem slot hplace
    exact ⟨hset hplace (.inl (hparams.2 ⟨param, hmem, rfl⟩)), htee hplace (hnames param hmem)⟩
  · intro name slot hplace hne htemp
    have hnone : start.find? name = none := by
      refine Option.not_isSome_iff_eq_none.1 fun hsome ↦ ?_
      obtain ⟨param, hmem, heq⟩ := hparams.1 hsome
      exact hne param hmem heq
    exact ⟨hp.existsUnique_set_code hone hsize hplace hnone htemp, htee hplace htemp⟩
  · intro slot h
    obtain ⟨name, hname, htemp⟩ := hp.tee_code h
    exact ⟨name, htemp, hname, hset hname (.inr htemp)⟩

end Progress.Orderly

/-! ### Functions -/

namespace Callable

/-- The instruction that ends a function uses no slot. -/
theorem orderly_ending (f : Callable) (body : List Stmt) {start : Frame} {p : Progress}
    (hp : p.Orderly start) : (p.after (Lower.emitAll (f.ending body))).Orderly start := by
  unfold ending
  split
  · exact hp.of_stored (.refl _) (p.instructions_after_of_code_eq_nil rfl) fun hv ↦ .inr hv
  · split
    · exact hp.emit_of_slot?_eq_none (i := .retVoid) rfl
    · exact hp.emit_of_slot?_eq_none (i := .trap) rfl

/-- The code of a function keeps the discipline of the slots of its frame. -/
theorem slotDiscipline_lower {f : Callable} {body : List Stmt} (hnames : Ordinary Uses)
    (hparams : ∀ param ∈ f.params, Uses (.declare param.name))
    (hbody : ∀ stmt ∈ body, ∀ u ∈ stmt.uses, Uses u) {span : Span} {s : LoweringState}
    (hsize : (f.lower options body span s).1.locals.size ≤ 65536) (pool : ConstantPool) :
    SlotDiscipline f.params (f.lower options body span s).2.frame
      ((f.lower options body span s).1.output.instructions.map (·.shortened pool)) := by
  have hsteps := f.steps_lower options body span s
  have hle : (f.bodyEnd options body span s).state.frame.slots.size ≤ UInt32.size := by
    rw [← snd_lower]
    exact Nat.le_trans hsize (by decide)
  have hp := f.orderly_ending body (f.orderly_bodyEnd hnames hbody span s hle)
  have hcode : ((f.bodyEnd options body span s).after
      (Lower.emitAll (f.ending body))).output.instructions =
        (f.lower options body span s).1.output.instructions := by
    rw [Progress.instructions_after, Lower.code_emitAll, instructions_lower]
  rw [snd_lower] at hsteps ⊢
  rw [← hcode]
  exact hp.slotDiscipline (hsteps.oneToOne Frame.sequential_empty hle)
    (snd_lower options f body span s ▸ hsize)
    isSome_find?_paramsEnd (fun param hmem ↦ hnames.declare (hparams param hmem)) pool

end Callable

/-! ### Scripts -/

/-- The variable that a name stands for where it is used. -/
def NameUse.variable? : NameUse → Option String
  | .read name | .declare name => some name
  | .call _ => none

namespace Script

variable {registry : Registry} {script : Script}

/-- No variable that a script reads or declares has a name that starts with a dot. -/
def Undotted (script : Script) : Prop :=
  ∀ d ∈ script, ∀ u ∈ d.uses, ∀ name ∈ u.variable?, name.toList.head? ≠ some '.'

instance : Decidable script.Undotted := by
  unfold Undotted
  infer_instance

theorem head?_of_isTemporary {name : String} (h : IsTemporary name) : name.toList.head? = some '.' := by
  rcases h with rfl | rfl <;> decide

theorem Undotted.ordinary (h : script.Undotted) {d : FunctionDecl} (hd : d ∈ script) :
    Ordinary (· ∈ d.uses) :=
  ⟨fun hread htemp ↦ h d hd _ hread _ rfl (head?_of_isTemporary htemp),
    fun hdeclare htemp ↦ h d hd _ hdeclare _ rfl (head?_of_isTemporary htemp)⟩

/-- Whatever a script is compiled from and whatever is reported, the code of each function keeps the
discipline of its slots, provided that they fit into 16 bits and that no variable is named like a
temporary. -/
theorem slots_compile (options : CompilerOptions) (registry : Registry) (script : Script)
    (hscript : script.Undotted) :
    List.Forall₂ (fun q c ↦ c.locals.size ≤ 65536 → ∃ s code,
        (q.2.lower options q.1.body q.1.span s).1.AssembledTo
          (script.compile options registry).pool c ∧
        (q.2.lower options q.1.body q.1.span s).2.frame.slots = c.locals ∧
        decode c.chunk.code = .ok code ∧
        SlotDiscipline q.2.params (q.2.lower options q.1.body q.1.span s).2.frame code)
      (declareFunctions script { registry }).1.1 (script.compile options registry).functions := by
  refine forall₂_comp (forall₂_lowerFunctions options _ _)
    (script.assembledTo_compile options registry) ?_
  rintro q hq _ - c ⟨s, -, rfl, -⟩ hassembled hsize
  obtain ⟨hd, types, returns, hcallable⟩ := mem_declareFunctions hq
  refine ⟨s, _, hassembled, hassembled.locals.symm,
    hassembled.decode_code (script.listed_compile options registry), ?_⟩
  refine Callable.slotDiscipline_lower (hscript.ordinary hd) (fun param hparam ↦ ?_)
    (fun stmt hstmt u hu ↦ ?_) (hassembled.locals ▸ hsize) _
  · rw [hcallable] at hparam
    obtain ⟨p, hp, hname⟩ := FunctionDecl.name_mem_params hparam
    exact List.mem_append_left _ (List.mem_map.2 ⟨p, hp, congrArg _ hname⟩)
  · exact List.mem_append_right _ (List.mem_flatMap.2 ⟨stmt, hstmt, hu⟩)

/-- A script with a parameter, a variable and both temporaries. -/
theorem slots_compile_point :
    pointScript.Undotted ∧ (pointScript.compile {} pointRegistry).functions.length = 2 ∧
      ∀ c ∈ (pointScript.compile {} pointRegistry).functions, ∃ params frame code,
        frame.slots = c.locals ∧ decode c.chunk.code = .ok code ∧ SlotDiscipline params frame code := by
  have hnames : pointScript.Undotted := by decide +kernel
  have hlocals : ∀ c ∈ (pointScript.compile {} pointRegistry).functions, c.locals.size ≤ 65536 := by
    decide +kernel
  refine ⟨hnames, by decide +kernel, fun c hc ↦ ?_⟩
  obtain ⟨q, -, h⟩ := exists_mem_of_forall₂ (slots_compile {} pointRegistry pointScript hnames) hc
  obtain ⟨s, code, -, hframe, hcode, hslots⟩ := h (hlocals c hc)
  exact ⟨q.2.params, _, code, hframe, hcode, hslots⟩

end Script

end StackLowering

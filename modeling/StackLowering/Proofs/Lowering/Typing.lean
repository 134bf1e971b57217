import StackLowering.Proofs.Lowering.Growth
import StackLowering.Proofs.Lowering.Verification

/-!
# A typing of lowering computations

The code that a computation writes is checked against the symbols and the slots in the end (`Ending`).
`Lower.Typed` says of a computation that its code leads from a given stack to another one, provided
that the state fits the ending before and that lowering stays below the ending: every function that was
registered has a signature with layouts, and every variable has a slot of its type
(`LoweringState.Fits`). The condition `P` of the judgement collects what is known of the values of
earlier computations.

The check uses the end and not the state in which an instruction is written, because that is what the
finished code is checked against: an instance that is created later, or a slot that is added later,
must not invalidate earlier code. It does not, as lowering takes nothing away
(`LoweringState.Steps.extends`). That the computation only makes steps is therefore part of the
judgement, without any condition, since a computation has to know of those after it that they keep what
it relied on.

A computation that fails leaves its code where it stands, and a trap follows. After a trap the stack
may be taken to be anything, so that the code of a failure has to lead somewhere, but it does not
matter to which cells (`Attempt.Typed`).
-/

namespace StackLowering

/-! ### The end of lowering -/

/-- What the code of a function is checked against, with the remembered instances. -/
structure Ending where
  /-- The symbol of the allocator. -/
  allocator : String
  /-- The symbols in the end. -/
  symbols : Symbols
  /-- The types of the slots of the function. -/
  slots : Array Fingerprint
  /-- The type of its result. -/
  returns : Fingerprint

namespace Ending

/-- The context of the code. -/
def context (E : Ending) : StackContext Constant String UInt32 :=
  CodeContext.symbolic ⟨E.allocator, E.symbols.registry, E.slots, E.returns⟩

/-- A type whose values can be stored. -/
def Sized (E : Ending) (type : Fingerprint) : Prop := (E.symbols.registry.layout? type).isSome

/-- A type whose values can be stored, or the type of no value. -/
def Known (E : Ending) (type : Fingerprint) : Prop := type = voidType ∨ E.Sized type

/-- A stack with a value of the given type on top, if there are values of this type. -/
def push (E : Ending) (type : Fingerprint) (cells : List Category) : List Category :=
  (E.symbols.registry.category? type).toList ++ cells

/-- A function whose parameters can be stored, and so can its result if it has one. -/
structure Signed (E : Ending) (f : Callable) : Prop where
  params : ∀ p ∈ f.params, E.Sized p.type
  returns : E.Known f.returns

/-- What the typing needs to know of the ending. The primitive types are registered, every constructor
of a class is built as one, the symbol of the allocator is free, and what is remembered for a template
at some arguments is a class. -/
structure Sound (E : Ending) : Prop where
  built : E.symbols.registry.Built
  primitives : E.symbols.registry.HasPrimitives
  constructors : ∀ {id : Fingerprint} {f : Callable},
    E.symbols.registry.constructorOf? id = some f → f.isConstructor ∧ f.returns = addressType
  allocator : E.symbols.registry.functionNamed? E.allocator = none
  instances : ∀ {template id : Fingerprint} {args : List Fingerprint},
    E.symbols.instances.find? template args = some id → args ≠ [] →
      (E.symbols.registry.class? id).isSome
  slots : E.slots.size ≤ 65536

variable {E : Ending} {type : Fingerprint} {cells : List Category}

/-- A type that can be stored is known. -/
theorem Sized.known (h : E.Sized type) : E.Known type := .inr h

/-- A value that can be stored has a category on the stack. -/
theorem Sized.exists_category (h : E.Sized type) :
    ∃ c, E.symbols.registry.category? type = some c := by
  obtain ⟨layout, hlayout⟩ := Option.isSome_iff_exists.1 h
  exact ⟨layout.category, by rw [Registry.category?, hlayout, Option.map_some]⟩

/-- A value on the stack is one cell. -/
theorem push_eq_cons {c : Category} (h : E.symbols.registry.category? type = some c) :
    E.push type cells = c :: cells := by
  rw [push, h]
  rfl

/-- Every primitive type but `void` can be stored. -/
theorem sized_of_hasPrimitives (h : E.symbols.registry.HasPrimitives) {p : Primitive}
    (hp : p ≠ .void) : E.Sized p.fingerprint := by
  rw [Sized, h.layout?]
  cases p <;> first | rfl | exact absurd rfl hp

namespace Sound

variable (hE : E.Sound)

include hE

/-- In the end a primitive type has its own layout. -/
theorem layout?_primitive (p : Primitive) :
    E.symbols.registry.layout? p.fingerprint = p.layout E.symbols.registry.width :=
  hE.primitives.layout? p

/-- Every primitive type but `void` can be stored in the end. -/
theorem sized_primitive {p : Primitive} (h : p ≠ .void) : E.Sized p.fingerprint :=
  sized_of_hasPrimitives hE.primitives h

theorem sized_address : E.Sized addressType := hE.sized_primitive (by decide)

/-- An address is an integer of the width of pointers. -/
theorem category?_address :
    E.symbols.registry.category? addressType = some E.symbols.registry.width.category := by
  rw [Registry.category?, addressType, hE.layout?_primitive]
  rfl

/-- A call without a result leaves no cell. -/
theorem push_void : E.push voidType cells = cells := by
  rw [push, Registry.category?, voidType, hE.layout?_primitive]
  rfl

/-- An address is one cell, whose category depends on the width. -/
theorem push_address :
    E.push addressType cells = E.symbols.registry.width.category :: cells :=
  push_eq_cons hE.category?_address

end Sound

/-- An object is held by its address. -/
theorem category?_object {id : Fingerprint} (h : (E.symbols.registry.class? id).isSome) :
    E.symbols.registry.category? id = some E.symbols.registry.width.category := by
  obtain ⟨c, hc⟩ := Option.isSome_iff_exists.1 h
  rw [Registry.category?, Registry.layout?, Registry.type?, Registry.class?_eq_some_iff.1 hc]
  rfl

/-- Objects of every registered class can be stored, also of one that is not laid out. -/
theorem sized_object {id : Fingerprint} (h : (E.symbols.registry.class? id).isSome) :
    E.Sized id := by
  obtain ⟨c, hc⟩ := Option.isSome_iff_exists.1 h
  rw [Sized, Registry.layout?, Registry.type?, Registry.class?_eq_some_iff.1 hc]
  rfl

end Ending

/-! ### States that fit an ending -/

/-- Symbols that lead to those of the ending, in which every function and every constructor of a
template can be called. -/
structure Symbols.Fits (s : Symbols) (E : Ending) : Prop where
  built : s.registry.Built
  before : s.Extends E.symbols
  functions : ∀ {id : Fingerprint} {f : Callable}, s.registry.functions[id]? = some f → E.Signed f
  templates : ∀ {id : Fingerprint} {t : TemplateEntry} {params : List Param},
    s.registry.types[id]? = some (.template t) → t.constructor? = some params →
      ∀ p ∈ params, E.Sized p.type ∨ ∃ q ∈ t.params, q.id = p.type

/-- A frame whose variables have slots of their type, and whose temporaries hold addresses. -/
structure Frame.Fits (f : Frame) (E : Ending) : Prop where
  before : f.slots.toList <+: E.slots.toList
  bindings : ∀ {name : String} {v : LocalVariable}, f.find? name = some v →
    E.slots[v.slot.toNat]? = some v.type ∧ E.Sized v.type
  temporaries : ∀ {name : String} {v : LocalVariable}, f.find? name = some v →
    IsTemporary name → v.type = addressType

/-- A state whose symbols and frame fit the ending. -/
structure LoweringState.Fits (s : LoweringState) (E : Ending) : Prop where
  symbols : s.symbols.Fits E
  frame : s.frame.Fits E

/-- A state from which lowering can still reach the ending. -/
structure LoweringState.Before (s : LoweringState) (E : Ending) : Prop where
  symbols : s.symbols.Extends E.symbols
  slots : s.frame.slots.toList <+: E.slots.toList

/-- What is before a later state of the ending is before the ending. -/
theorem LoweringState.Extends.before {s s' : LoweringState} {E : Ending} (h : s.Extends s')
    (h' : s'.Before E) : s.Before E :=
  ⟨h.symbols.trans h'.symbols, h.frame.slots.trans h'.slots⟩

/-! ### The judgement -/

/-- Under a condition, the code of a computation leads from some cells to cells that go with its
value, in every state that fits the ending. -/
structure Lower.Typed {α : Type} (E : Ending) (P : Prop) (cells : List Category) (x : Lower α)
    (post : α → List Category → Prop) : Prop where
  steps : x.Steps
  sound : P → ∀ s : LoweringState, s.Fits E → (x.run s).state.Before E →
    (x.run s).state.Fits E ∧ ∃ cells', post (x.run s).value cells' ∧
      E.context.Runs (x.run s).output.instructions cells cells'

namespace Lower.Typed

variable {α β : Type} {E : Ending} {P Q : Prop} {cells : List Category} {x : Lower α}
  {post post' : α → List Category → Prop}

/-- The condition may be strengthened, and what is known in the end may be weakened. -/
theorem mono (h : Typed E Q cells x post) (hP : P → Q)
    (hpost : P → ∀ a cells', post a cells' → post' a cells') : Typed E P cells x post' := by
  refine ⟨h.steps, fun hp s hs hbefore ↦ ?_⟩
  obtain ⟨hfits, cells', ha, hruns⟩ := h.sound (hP hp) s hs hbefore
  exact ⟨hfits, cells', hpost hp _ _ ha, hruns⟩

/-- The condition may be strengthened. -/
theorem of_imp (h : Typed E Q cells x post) (hP : P → Q) : Typed E P cells x post :=
  h.mono hP fun _ _ _ ha ↦ ha

/-- The condition may say what the cells are. -/
theorem of_eq {cells' : List Category} (heq : P → cells' = cells) (h : Typed E P cells x post) :
    Typed E P cells' x post := by
  refine ⟨h.steps, fun hp s hs hbefore ↦ ?_⟩
  rw [heq hp]
  exact h.sound hp s hs hbefore

/-- A value is returned without code, and goes with the cells that are there. -/
theorem pure {a : α} (h : P → post a cells) : Typed E P cells (pure a) post :=
  ⟨.pure a, fun hp _ hs _ ↦ ⟨hs, cells, h hp, .nil cells⟩⟩

/-- The second computation starts from the cells that the first one leaves, and knows what is known
of its value. Only values that the first computation can have need to be looked at. -/
theorem bind_value {f : α → Lower β} {mid : α → List Category → Prop}
    {post : β → List Category → Prop} (hx : Typed E P cells x mid)
    (hf : ∀ s cells', Typed E (P ∧ mid (x.run s).value cells') cells' (f (x.run s).value) post) :
    Typed E P cells (x >>= f) post := by
  have hsteps (s : LoweringState) : (f (x.run s).value).Steps := (hf s []).steps
  refine ⟨fun s ↦ (hx.steps s).trans (hsteps s _), fun hp s hs hbefore ↦ ?_⟩
  -- nothing that the second computation needs of the first one is taken away by it
  have hbuilt := (hx.steps s).built hs.symbols.built
  have hmid := ((hsteps s _).extends hbuilt).before hbefore
  obtain ⟨hfits, cells₁, ha, hruns⟩ := hx.sound hp s hs hmid
  obtain ⟨hfits', cells₂, hb, hruns'⟩ := (hf s cells₁).sound ⟨hp, ha⟩ _ hfits hbefore
  refine ⟨hfits', cells₂, hb, ?_⟩
  rw [output_bind, Output.instructions_append]
  exact hruns.append hruns'

/-- The code of the second computation starts from the cells that the code of the first one leaves. -/
theorem bind {f : α → Lower β} {mid : α → List Category → Prop} {post : β → List Category → Prop}
    (hx : Typed E P cells x mid)
    (hf : ∀ a cells', Typed E (P ∧ mid a cells') cells' (f a) post) :
    Typed E P cells (x >>= f) post :=
  hx.bind_value fun _ cells' ↦ hf _ cells'

/-- Nothing is known after a computation that was not known before, but for the cells that it
leaves. -/
theorem seq {f : α → Lower β} {cells' : List Category} {post : β → List Category → Prop}
    (hx : Typed E P cells x fun _ cells'' ↦ cells'' = cells')
    (hf : ∀ a, Typed E P cells' (f a) post) : Typed E P cells (x >>= f) post :=
  hx.bind fun a _ ↦ of_eq And.right ((hf a).of_imp And.left)

/-- The cells go with some value. -/
theorem discard (h : Typed E P cells x post) :
    Typed E P cells (discard x) fun _ cells' ↦ ∃ a, post a cells' := by
  show Typed E P cells (x >>= fun _ ↦ Pure.pure ()) _
  exact h.bind fun a cells' ↦ pure fun ⟨_, ha⟩ ↦ ⟨a, ha⟩

/-- A loop whose body changes the cells in a known way at every element. -/
theorem forM {l : List α} {f : α → Lower Unit} (next : α → List Category → List Category)
    (h : ∀ a ∈ l, ∀ cells, Typed E P cells (f a) fun _ cells' ↦ cells' = next a cells) :
    Typed E P cells (l.forM f) fun _ cells' ↦ cells' = l.foldl (fun cells a ↦ next a cells) cells := by
  induction l generalizing cells with
  | nil => exact pure fun _ ↦ rfl
  | cons a l ih =>
    show Typed E P cells (f a >>= fun _ ↦ l.forM f) _
    exact (h a List.mem_cons_self cells).seq fun _ ↦ ih fun b hb ↦ h b (List.mem_cons_of_mem a hb)

/-- A loop whose body leaves the cells as they are. -/
theorem forM_fixed {l : List α} {f : α → Lower Unit}
    (h : ∀ a ∈ l, Typed E P cells (f a) fun _ cells' ↦ cells' = cells) :
    Typed E P cells (l.forM f) fun _ cells' ↦ cells' = cells := by
  induction l with
  | nil => exact pure fun _ ↦ rfl
  | cons a l ih =>
    show Typed E P cells (f a >>= fun _ ↦ l.forM f) _
    exact (h a List.mem_cons_self).seq fun _ ↦ ih fun b hb ↦ h b (List.mem_cons_of_mem a hb)

/-! #### State -/

/-- The state that is looked at fits the ending, and the cells stay. -/
theorem get : Typed E P cells Lower.get fun s cells' ↦ cells' = cells ∧ s.Fits E :=
  ⟨.get, fun _ _ hs _ ↦ ⟨hs, cells, ⟨rfl, hs⟩, .nil cells⟩⟩

/-- The registry that is looked at is that of symbols which fit the ending. -/
theorem registry :
    Typed E P cells Lower.registry fun r cells' ↦
      cells' = cells ∧ ∃ s : Symbols, s.Fits E ∧ s.registry = r :=
  ⟨.registry, fun _ s hs _ ↦ ⟨hs, cells, ⟨rfl, s.symbols, hs.symbols, rfl⟩, .nil cells⟩⟩

/-- The width is that of the ending. -/
theorem width :
    Typed E P cells Lower.width fun w cells' ↦ cells' = cells ∧ w = E.symbols.registry.width :=
  ⟨.width, fun _ _ hs _ ↦
    ⟨hs, cells, ⟨rfl, hs.symbols.before.registry.width_eq.symm⟩, .nil cells⟩⟩

theorem setLine (line : UInt32) :
    Typed E P cells (Lower.setLine line) fun _ cells' ↦ cells' = cells :=
  ⟨.setLine line, fun _ _ hs _ ↦ ⟨⟨hs.symbols, hs.frame⟩, cells, rfl, .nil cells⟩⟩

/-! #### Output -/

/-- An instruction is checked when it is written. -/
theorem emit {i : SymbolicInstruction} (cells' : List Category)
    (h : P → E.context.Runs [i] cells cells') :
    Typed E P cells (Lower.emit i) fun _ cells'' ↦ cells'' = cells' :=
  ⟨.emit i, fun hp _ hs _ ↦ ⟨hs, cells', rfl, h hp⟩⟩

/-- So is a run of instructions. -/
theorem emitAll {is : List SymbolicInstruction} (cells' : List Category)
    (h : P → E.context.Runs is cells cells') :
    Typed E P cells (Lower.emitAll is) fun _ cells'' ↦ cells'' = cells' := by
  refine ⟨.emitAll is, fun hp s hs _ ↦ ⟨hs, cells', rfl, ?_⟩⟩
  have hcode : (is.map fun i ↦ (⟨s.line, i⟩ : LocatedInstruction)).map (·.instruction) = is := by
    simp [Function.comp_def]
  have hruns := h hp
  rwa [← hcode] at hruns

theorem report (error : CompileError) :
    Typed E P cells (Lower.report error) fun _ cells' ↦ cells' = cells :=
  ⟨.report error, fun _ _ hs _ ↦ ⟨hs, cells, rfl, .nil cells⟩⟩

theorem annotate (node : NodeId) (type : Fingerprint) :
    Typed E P cells (Lower.annotate node type) fun _ cells' ↦ cells' = cells :=
  ⟨.annotate node type, fun _ _ hs _ ↦ ⟨hs, cells, rfl, .nil cells⟩⟩

/-- A trap stands for whatever is needed in its place. -/
theorem trap {error : CompileError} (cells' : List Category) :
    Typed E P cells (Lower.trap error) fun _ cells'' ↦ cells'' = cells' :=
  (report error).seq fun _ ↦ emit cells' fun _ ↦ .trap cells cells'

end Lower.Typed

/-! ### Variables -/

namespace Frame

variable {E : Ending} {f : Frame}

/-- A new variable gets a slot of its type. -/
theorem slots_allocate (hE : E.Sound) {name : String} {type : Fingerprint} {span : Span}
    (h : (f.allocate name type span).2.slots.toList <+: E.slots.toList) :
    E.slots[f.size.toNat]? = some type := by
  have hlast : (f.allocate name type span).2.slots.toList[f.slots.size]? = some type := by
    simp [allocate]
  have hget : E.slots.toList[f.slots.size]? = some type := by
    obtain ⟨later, hlater⟩ := h
    rw [← hlater, List.getElem?_append_left (by simp [allocate]), hlast]
  have hlt : f.slots.size < E.slots.size := by
    obtain ⟨hlt, -⟩ := List.getElem?_eq_some_iff.1 hget
    simpa using hlt
  have hsize : f.slots.size < UInt32.size :=
    Nat.lt_of_lt_of_le hlt (Nat.le_trans hE.slots (by decide))
  rw [toNat_size hsize, ← Array.getElem?_toList, hget]

/-- A frame still fits after a new variable was declared, if the type suits the name. -/
theorem Fits.allocate (hf : f.Fits E) (hE : E.Sound) {name : String} {type : Fingerprint}
    {span : Span} (hsized : E.Sized type) (htemporary : IsTemporary name → type = addressType)
    (h : (f.allocate name type span).2.slots.toList <+: E.slots.toList) :
    (f.allocate name type span).2.Fits E := by
  refine ⟨h, fun {name' v} hv ↦ ?_, fun {name' v} hv hname ↦ ?_⟩
  · rw [find?_allocate] at hv
    split at hv
    next =>
      obtain rfl := Option.some.inj hv
      exact ⟨slots_allocate hE h, hsized⟩
    next => exact hf.bindings hv
  · rw [find?_allocate] at hv
    split at hv
    next heq =>
      obtain rfl := Option.some.inj hv
      exact htemporary (heq ▸ hname)
    next => exact hf.temporaries hv hname

end Frame

namespace Lower.Typed

variable {E : Ending} {P : Prop} {cells : List Category}

/-- A temporary has a slot for addresses. -/
theorem temporary (hE : E.Sound) {name : String} (hname : IsTemporary name) :
    Typed E P cells (Lower.temporary name addressType) fun slot cells' ↦
      cells' = cells ∧ E.slots[slot.toNat]? = some addressType := by
  refine ⟨.temporary hname, fun _ s hs hbefore ↦ ?_⟩
  have hslots := hbefore.slots
  simp only [Lower.temporary, Lower.run, Frame.temporary] at hslots ⊢
  cases hfind : s.frame.find? name with
  | some v =>
    have hv := (hs.frame.bindings hfind).1
    rw [hs.frame.temporaries hfind hname] at hv
    exact ⟨hs, cells, ⟨rfl, hv⟩, .nil cells⟩
  | none =>
    simp only [hfind] at hslots
    have hframe := hs.frame.allocate hE hE.sized_address (fun _ ↦ rfl) hslots
    exact ⟨⟨hs.symbols, hframe⟩, cells, ⟨rfl, Frame.slots_allocate hE hslots⟩, .nil cells⟩

/-- A new variable gets a slot of its type, which has to be one that can be stored. A name that is
taken changes nothing. -/
theorem declare (hE : E.Sound) (name : String) (type : Fingerprint) (span : Span)
    (h : P → E.Sized type ∧ ¬ IsTemporary name) :
    Typed E P cells (Attempt.declare name type span).run fun r cells' ↦
      cells' = cells ∧ ∀ slot, r = .ok slot → E.slots[slot.toNat]? = some type := by
  refine ⟨Attempt.Steps.declare name type span, fun hp s hs hbefore ↦ ?_⟩
  obtain ⟨hsized, hname⟩ := h hp
  have hslots := hbefore.slots
  rw [Attempt.run_declare] at hslots ⊢
  unfold Frame.declare at hslots ⊢
  cases hfind : s.frame.find? name with
  | some v => exact ⟨⟨hs.symbols, hs.frame⟩, cells, ⟨rfl, fun _ heq ↦ by simp at heq⟩, .nil cells⟩
  | none =>
    simp only [hfind] at hslots
    have hframe := hs.frame.allocate hE hsized (fun h ↦ (hname h).elim) hslots
    refine ⟨⟨hs.symbols, hframe⟩, cells, ⟨rfl, fun slot heq ↦ ?_⟩, .nil cells⟩
    obtain rfl := Except.ok.inj heq
    exact Frame.slots_allocate hE hslots

end Lower.Typed

/-- Laying out a class adds no function and no template. -/
theorem Symbols.Fits.layOut {E : Ending} {s : Symbols} {id : Fingerprint} {size : UInt32}
    {r : Registry} (hs : s.Fits E) (h : s.registry.layOutClass id = .ok (size, r))
    (hbefore : Symbols.Extends { s with registry := r } E.symbols) :
    Symbols.Fits { s with registry := r } E := by
  refine ⟨hs.built.step (.layOutClass h), hbefore, fun {id f} hf ↦ ?_, fun {id t params} ht ↦ ?_⟩
  · exact hs.functions (Registry.functions_layOutClass h ▸ hf)
  · exact hs.templates (Registry.template_layOutClass h ht)

/-! ### Computations that may fail -/

/-- Under a condition, the code of a computation that succeeds leads from some cells to cells that go
with its value. The code of one that fails leads somewhere. -/
def Attempt.Typed {α : Type} (E : Ending) (P : Prop) (cells : List Category) (x : Attempt α)
    (post : α → List Category → Prop) : Prop :=
  Lower.Typed E P cells x.run fun r cells' ↦ ∀ a, r = .ok a → post a cells'

namespace Attempt.Typed

variable {α β : Type} {E : Ending} {P Q : Prop} {cells : List Category} {x : Attempt α}
  {post post' : α → List Category → Prop}

/-- The condition may be strengthened. -/
theorem of_imp (h : Typed E Q cells x post) (hP : P → Q) : Typed E P cells x post :=
  Lower.Typed.of_imp h hP

/-- The condition may say what the cells are. -/
theorem of_eq {cells' : List Category} (heq : P → cells' = cells) (h : Typed E P cells x post) :
    Typed E P cells' x post :=
  Lower.Typed.of_eq heq h

theorem pure {a : α} (h : P → post a cells) : Typed E P cells (pure a) post :=
  Lower.Typed.pure fun hp a' heq ↦ by
    obtain rfl : a = a' := Except.ok.inj heq
    exact h hp

/-- Nothing needs to be shown of the cells after a failure: a trap will be written there. -/
theorem throw (error : CompileError) : Typed E P cells (throw error) post :=
  Lower.Typed.pure fun _ _ heq ↦ by simp at heq

/-- A computation that cannot fail may stand where others might. -/
theorem lift {x : Lower α} (h : Lower.Typed E P cells x post) :
    Typed E P cells (liftM x : Attempt α) post := by
  show Lower.Typed E P cells (x >>= fun a ↦ Pure.pure (Except.ok a)) _
  refine h.bind fun a cells' ↦ .pure fun ⟨_, ha⟩ a' heq ↦ ?_
  obtain rfl : a = a' := Except.ok.inj heq
  exact ha

/-- The second attempt starts from the cells that the first one leaves if it succeeds. -/
theorem bind {f : α → Attempt β} {mid : α → List Category → Prop} {post : β → List Category → Prop}
    (hx : Typed E P cells x mid)
    (hf : ∀ a cells', Typed E (P ∧ mid a cells') cells' (f a) post) :
    Typed E P cells (x >>= f) post := by
  refine Lower.Typed.bind hx fun r cells' ↦ ?_
  cases r with
  | ok a => exact Lower.Typed.of_imp (hf a cells') fun ⟨hp, ha⟩ ↦ ⟨hp, ha a rfl⟩
  | error error => exact .pure fun _ _ heq ↦ by simp at heq

/-- Nothing is known after a computation that was not known before, but for the cells that it
leaves. -/
theorem seq {x : Lower α} {f : α → Attempt β} {cells' : List Category}
    {post : β → List Category → Prop}
    (hx : Lower.Typed E P cells x fun _ cells'' ↦ cells'' = cells')
    (hf : ∀ a, Typed E P cells' (f a) post) : Typed E P cells (liftM x >>= f) post :=
  (lift hx).bind fun a _ ↦ of_eq And.right ((hf a).of_imp And.left)

/-- After a computation that cannot fail, only the values that it can have need to be looked at. -/
theorem lift_bind {x : Lower α} {f : α → Attempt β} {mid : α → List Category → Prop}
    {post : β → List Category → Prop} (hx : Lower.Typed E P cells x mid)
    (hf : ∀ s cells', Typed E (P ∧ mid (x.run s).value cells') cells' (f (x.run s).value) post) :
    Typed E P cells (liftM x >>= f) post := by
  refine Lower.Typed.bind_value (lift hx) fun s cells' ↦ ?_
  exact Lower.Typed.of_imp (hf s cells') fun ⟨hp, ha⟩ ↦ ⟨hp, ha _ rfl⟩

/-- A class is laid out without any code. -/
theorem layOutClass (id : Fingerprint) (span : Span) :
    Typed E P cells (Attempt.layOutClass id span) fun _ cells' ↦ cells' = cells := by
  refine ⟨Attempt.Steps.layOutClass id span, fun hp s hs hbefore ↦ ?_⟩
  rw [Attempt.run_layOutClass] at hbefore ⊢
  cases hlay : s.symbols.registry.layOutClass id with
  | error error => exact ⟨hs, cells, fun _ heq ↦ by simp at heq, .nil cells⟩
  | ok out =>
    rw [hlay] at hbefore
    exact ⟨⟨hs.symbols.layOut hlay hbefore.symbols, hs.frame⟩, cells, fun _ _ ↦ rfl, .nil cells⟩

end Attempt.Typed

end StackLowering

import StackLowering.Proofs.Lowering.Growth

/-!
# Planned constructions

What the plan of a construction tells, and how planning fails. The elements of a buffer have one of
four sizes. A template that is constructed with a wrong number of type arguments is refused, unless
there are none: then its own identity is that of the instance, so that it is taken for it, and the
construction fails because it is no class.

## Planning is quiet

To plan a construction is to create instances and to lay out a class. It declares nothing and writes
nothing, not even an error (`Attempt.Quiet`): a plan that fails returns its error, and the construction
reports it. So between the classification of a construction and the code that follows only the symbols
have changed, and what was found in the frame is still there.

## What plans are like

The plan of a buffer has the count of the construction and the size of its elements. The size is that
of a code unit, or that of the layout of the element type in the symbols that its resolution leaves
(`BufferElement.Sized`, `ConstructionPlan.sized_ofConstruction`). Every other plan is that of an
object, with the constructor that its class has in the end
(`ConstructionPlan.constructorOf?_ofConstruction`).

## Refusals

`LoweringState.template_refused_iff` says when a request that has to be refused is refused: unless its
instance is remembered, or a type is registered under the identity of the instance.
-/

namespace StackLowering

open Relation

/-! ### Planning -/

/-- A computation that changes nothing but the symbols, and writes nothing. -/
def Attempt.Quiet {α : Type} (x : Attempt α) : Prop :=
  ∀ s : LoweringState, ∃ symbols, s.symbols.Steps symbols ∧
    (x.run.run s).state = { s with symbols } ∧ (x.run.run s).output = .empty

namespace Attempt.Quiet

variable {α β : Type}

theorem pure (a : α) : Quiet (pure a : Attempt α) :=
  fun s ↦ ⟨s.symbols, .refl, rfl, rfl⟩

theorem throw (error : CompileError) : Quiet (throw error : Attempt α) :=
  fun s ↦ ⟨s.symbols, .refl, rfl, rfl⟩

theorem registry : Quiet (liftM Lower.registry : Attempt Registry) :=
  fun s ↦ ⟨s.symbols, .refl, rfl, rfl⟩

theorem bind {x : Attempt α} {f : α → Attempt β} (hx : x.Quiet) (hf : ∀ a, (f a).Quiet) :
    Quiet (x >>= f) := by
  intro s
  obtain ⟨symbols, hsteps, hstate, houtput⟩ := hx s
  rcases hrun : x.run.run s with ⟨error | a, s', o⟩
  · rw [hrun] at hstate houtput
    rw [Attempt.run_bind_error f hrun]
    exact ⟨symbols, hsteps, hstate, houtput⟩
  · rw [hrun] at hstate houtput
    obtain ⟨symbols', hsteps', hstate', houtput'⟩ := hf a s'
    obtain rfl : s' = { s with symbols } := hstate
    obtain rfl : o = .empty := houtput
    rw [Attempt.run_bind_ok f hrun]
    exact ⟨symbols', hsteps.trans hsteps', hstate', houtput'⟩

theorem resolve {x : Resolution α} (h : x.Steps) : (Attempt.resolve x).Quiet :=
  fun s ↦ ⟨_, h s.symbols, rfl, rfl⟩

theorem layOutClass (id : Fingerprint) (span : Span) : (Attempt.layOutClass id span).Quiet := by
  intro s
  rw [Attempt.run_layOutClass]
  split
  next => exact ⟨s.symbols, .refl, rfl, rfl⟩
  next h => exact ⟨_, .single (.layOut h), rfl, rfl⟩

/-- Where it ends, the symbols have made steps, the frame is the same, and nothing is written. -/
theorem of_run {x : Attempt α} (h : x.Quiet) {s s' : LoweringState} {r : Except CompileError α}
    {o : Output} (hrun : x.run.run s = ⟨r, s', o⟩) :
    s.symbols.Steps s'.symbols ∧ s'.frame = s.frame ∧ o = .empty := by
  obtain ⟨symbols, hsteps, hstate, houtput⟩ := h s
  rw [hrun] at hstate houtput
  obtain rfl : s' = { s with symbols } := hstate
  exact ⟨hsteps, rfl, houtput⟩

theorem steps {x : Attempt α} (h : x.Quiet) : x.Steps := by
  intro s
  obtain ⟨symbols, hsteps, hstate, -⟩ := h s
  rw [hstate]
  exact hsteps.state

end Attempt.Quiet

namespace ConstructionPlan

theorem quiet_elementSize (element : BufferElement) : (elementSize element).Quiet := by
  cases element with
  | codeUnit => exact .pure _
  | declared type =>
    refine .bind (.resolve type.steps_resolve) fun id ↦ .bind .registry fun registry ↦ ?_
    split
    · exact .pure _
    · exact .throw _

theorem quiet_ofClass (id : Fingerprint) (span : Span) : (ofClass id span).Quiet := by
  refine .bind (.layOutClass id span) fun size ↦ .bind .registry fun registry ↦ ?_
  split
  · exact .pure _
  · split
    · exact .pure _
    · exact .throw _

/-- Planning creates instances and lays out classes, and does nothing else. -/
theorem quiet_ofConstruction (span : Span) (shape : Construction) :
    (ofConstruction span shape).Quiet := by
  cases shape with
  | buffer element count => exact .bind (quiet_elementSize element) fun _ ↦ .pure _
  | object id => exact quiet_ofClass id span
  | template id typeArgs =>
    refine .bind (.resolve (steps_resolveTypes typeArgs)) fun args ↦ ?_
    exact .bind (.resolve (.instantiate id args span)) fun id ↦ quiet_ofClass id span
  | unsupported => exact .throw _

theorem steps_ofConstruction (span : Span) (shape : Construction) :
    (ofConstruction span shape).Steps :=
  (quiet_ofConstruction span shape).steps

/-- The plan of an object: its class is laid out, and its constructor is that of the class. -/
theorem run_ofClass (id : Fingerprint) (span : Span) (s : LoweringState) :
    (ofClass id span).run.run s =
      match s.symbols.registry.layOutClass id with
      | .error error => ⟨.error (.registration error span), s, .empty⟩
      | .ok (size, registry) =>
        ⟨match registry.constructorOf? id with
          | none => .ok (.object size none)
          | some c =>
            match argcByte? (constructorArgc c) with
            | some _ => .ok (.object size (some c))
            | none => .error (.internal s!"constructor '{c.name}' has too many parameters"),
          { s with symbols := { s.symbols with registry } }, .empty⟩ := by
  have hlayout := Attempt.run_layOutClass id span s
  cases h : s.symbols.registry.layOutClass id with
  | error error =>
    rw [h] at hlayout
    exact Attempt.run_bind_error _ hlayout
  | ok laidOut =>
    rw [h] at hlayout
    rw [ofClass, Attempt.run_bind_ok _ hlayout, Attempt.run_registry_bind]
    dsimp only
    cases laidOut.2.constructorOf? id with
    | none => rfl
    | some c =>
      dsimp only
      cases argcByte? (constructorArgc c) <;> rfl

/-- What is planned for a class is an object. Its constructor, if there is one, is that of the class,
and a call can pass its arguments. -/
theorem ofClass_eq_ok {id : Fingerprint} {span : Span} {s : LoweringState} {plan : ConstructionPlan}
    (h : ((ofClass id span).run.run s).value = .ok plan) :
    ∃ size constructor?, plan = .object size constructor? ∧ ∀ c, constructor? = some c →
      ((ofClass id span).run.run s).state.symbols.registry.constructorOf? id = some c ∧
        ∃ argc, argcByte? (constructorArgc c) = some argc := by
  rw [run_ofClass] at h ⊢
  split at h
  next => simp at h
  next size registry _ =>
    dsimp only at h ⊢
    split at h
    next => exact ⟨size, none, (Except.ok.inj h).symm, nofun⟩
    next c hc =>
      split at h
      next argc hargc =>
        refine ⟨size, some c, (Except.ok.inj h).symm, fun c' hc' ↦ ?_⟩
        obtain rfl := Option.some.inj hc'
        exact ⟨hc, argc, hargc⟩
      next => simp at h

/-- The constructor in a plan is that of a class in the end, and a call can pass its arguments. -/
theorem constructorOf?_ofConstruction {span : Span} {shape : Construction} {s : LoweringState}
    {size : UInt32} {c : Callable}
    (h : ((ofConstruction span shape).run.run s).value = .ok (.object size (some c))) :
    ∃ id argc, ((ofConstruction span shape).run.run s).state.symbols.registry.constructorOf? id =
      some c ∧ argcByte? (constructorArgc c) = some argc := by
  cases shape with
  | buffer element count =>
    obtain ⟨size', -, h⟩ := Attempt.bind_eq_ok.1 h
    exact absurd (Except.ok.inj h) nofun
  | object id =>
    obtain ⟨size', constructor?, hplan, hc⟩ := ofClass_eq_ok h
    obtain ⟨-, rfl⟩ := ConstructionPlan.object.inj hplan
    exact ⟨id, (hc c rfl).2.imp fun argc hargc ↦ ⟨(hc c rfl).1, hargc⟩⟩
  | template template typeArgs =>
    obtain ⟨args, hargs, h⟩ := Attempt.bind_eq_ok.1 h
    obtain ⟨id, hid, h⟩ := Attempt.bind_eq_ok.1 h
    obtain ⟨size', constructor?, hplan, hc⟩ := ofClass_eq_ok h
    obtain ⟨-, rfl⟩ := ConstructionPlan.object.inj hplan
    rw [ofConstruction, Attempt.state_bind _ hargs, Attempt.state_bind _ hid]
    exact ⟨id, (hc c rfl).2.imp fun argc hargc ↦ ⟨(hc c rfl).1, hargc⟩⟩
  | unsupported => simp [ofConstruction] at h

/-- What is planned for a buffer is a buffer with the same count, and everything else is an object. -/
theorem ofConstruction_eq_ok {span : Span} {shape : Construction} {s : LoweringState}
    {plan : ConstructionPlan} (h : ((ofConstruction span shape).run.run s).value = .ok plan) :
    (∃ element count size, shape = .buffer element count ∧ plan = .buffer size count) ∨
      ∃ size constructor?, plan = .object size constructor? := by
  cases shape with
  | buffer element count =>
    obtain ⟨size, -, h⟩ := Attempt.bind_eq_ok.1 h
    exact .inl ⟨element, count, size, rfl, (Except.ok.inj h).symm⟩
  | object id =>
    obtain ⟨size, constructor?, hplan, -⟩ := ofClass_eq_ok h
    exact .inr ⟨size, constructor?, hplan⟩
  | template id typeArgs =>
    obtain ⟨args, -, h⟩ := Attempt.bind_eq_ok.1 h
    obtain ⟨id, -, h⟩ := Attempt.bind_eq_ok.1 h
    obtain ⟨size, constructor?, hplan, -⟩ := ofClass_eq_ok h
    exact .inr ⟨size, constructor?, hplan⟩
  | unsupported => simp [ofConstruction] at h

end ConstructionPlan

/-- What is written like a buffer: an array of a written type or a string, with one argument. -/
theorem bufferShape?_eq_some {name : String} {typeArgs : Option (List TypeExpr)}
    {args : Option (List Operand)} {element : BufferElement} {count : Operand}
    (h : bufferShape? name typeArgs args = some (element, count)) :
    args = some [count] ∧
      (name = arrayName ∧ (∃ type, element = .declared type ∧ typeArgs = some [type]) ∨
        name = stringName ∧ element = .codeUnit ∧ typeArgs.getD [] = []) := by
  -- the two ways in which no type argument is written are one case
  have hstring {count' : Operand} (htypes : typeArgs.getD [] = [])
      (h : (if name = stringName then some (BufferElement.codeUnit, count') else none) =
        some (element, count)) :
      count' = count ∧ name = stringName ∧ element = .codeUnit ∧ typeArgs.getD [] = [] := by
    obtain ⟨hname, h⟩ := Option.ite_none_right_eq_some.1 h
    obtain ⟨rfl, rfl⟩ := Prod.mk.inj (Option.some.inj h)
    exact ⟨rfl, hname, rfl, htypes⟩
  unfold bufferShape? at h
  split at h
  next type count' =>
    obtain ⟨hname, h⟩ := Option.ite_none_right_eq_some.1 h
    obtain ⟨rfl, rfl⟩ := Prod.mk.inj (Option.some.inj h)
    exact ⟨rfl, .inl ⟨hname, type, rfl, rfl⟩⟩
  next count' =>
    obtain ⟨rfl, hbuffer⟩ := hstring rfl h
    exact ⟨rfl, .inr hbuffer⟩
  next count' =>
    obtain ⟨rfl, hbuffer⟩ := hstring rfl h
    exact ⟨rfl, .inr hbuffer⟩
  next => simp at h

/-- The count of a construction that is classified as a buffer is its argument. -/
theorem Construction.classify_eq_buffer {r : Registry} {f : Frame} {callee : Option String}
    {typeArgs : Option (List TypeExpr)} {args : Option (List Operand)} {element : BufferElement}
    {count : Operand} (h : classify r f callee typeArgs args = .buffer element count) :
    args = some [count] := by
  unfold classify at h
  split at h
  · simp at h
  · split at h
    next name _ element' count' hshape =>
      obtain ⟨rfl, rfl⟩ : element' = element ∧ count' = count := by simpa using h
      exact (bufferShape?_eq_some hshape).1
    next => split at h <;> simp at h

/-! ### The temporaries of a buffer -/

namespace ConstructionPlan

/-- The state in which the count of a buffer is lowered: the two temporaries have their slots. -/
def countState (s : LoweringState) : LoweringState :=
  { s with frame := ((s.frame.temporary countTemporary addressType).2.temporary
      addressTemporary addressType).2 }

/-- The slot of the count of a buffer. -/
def countSlot (s : LoweringState) : UInt32 := (s.frame.temporary countTemporary addressType).1

/-- The slot of the address of a buffer. -/
def addressSlot (s : LoweringState) : UInt32 :=
  ((s.frame.temporary countTemporary addressType).2.temporary addressTemporary addressType).1

variable {s s' : LoweringState}

theorem steps_countState (s : LoweringState) : s.Steps (countState s) :=
  (ReflTransGen.single (.temporary s (.inl rfl))).tail (.temporary _ (.inr rfl))

/-- Nothing but temporaries is declared. -/
theorem find?_countState {name : String} {v : LocalVariable}
    (h : (countState s).frame.find? name = some v) :
    IsTemporary name ∨ s.frame.find? name = some v := by
  rcases Frame.eq_or_find?_of_temporary h with rfl | h
  · exact .inl (.inr rfl)
  · exact (Frame.eq_or_find?_of_temporary h).imp_left .inl

/-- The temporary for the count keeps its slot. -/
theorem find?_countSlot (h : (countState s).Steps s') :
    ∃ v, s'.frame.find? countTemporary = some v ∧ v.slot = countSlot s := by
  obtain ⟨v, hv, hslot⟩ := s.frame.find?_temporary countTemporary addressType
  have hext := Frame.Extends.temporary (s.frame.temporary countTemporary addressType).2
    addressTemporary addressType
  exact ⟨v, (hext.trans h.frame).find? hv, hslot⟩

/-- The temporary for the address keeps its slot. -/
theorem find?_addressSlot (h : (countState s).Steps s') :
    ∃ v, s'.frame.find? addressTemporary = some v ∧ v.slot = addressSlot s := by
  obtain ⟨v, hv, hslot⟩ :=
    (s.frame.temporary countTemporary addressType).2.find?_temporary addressTemporary addressType
  exact ⟨v, h.frame.find? hv, hslot⟩

end ConstructionPlan

/-! ### Elements of a buffer -/

/-- A value that can be stored has one, two, four or eight bytes. -/
theorem Primitive.size_layout {pointer : Width} {p : Primitive} {layout : Layout}
    (h : p.layout pointer = some layout) : layout.size ∈ [1, 2, 4, 8] := by
  cases p with
  | void => simp [Primitive.layout] at h
  | uintptr =>
    obtain rfl := Option.some.inj h
    cases pointer <;> decide
  | _ =>
    obtain rfl := Option.some.inj h
    decide

theorem Registry.size_layout? {r : Registry} {type : Fingerprint} {layout : Layout}
    (h : r.layout? type = some layout) : layout.size ∈ [1, 2, 4, 8] := by
  unfold Registry.layout? at h
  split at h
  · exact Primitive.size_layout h
  · obtain rfl := Option.some.inj h
    cases r.width <;> decide
  · simp at h
  · simp at h

/-- The size of an element: that of a code unit, or that of the layout of the element type, to which the
written type was resolved. Resolving it may change the symbols. -/
def BufferElement.Sized (s s' : Symbols) (size : UInt32) : BufferElement → Prop
  | .codeUnit => s' = s ∧ size = codeUnitSize
  | .declared type => ∃ id layout, type.resolve.run.run s = (.ok id, s') ∧
      s'.registry.layout? id = some layout ∧ size = layout.size

/-- An element takes up one, two, four or eight bytes. -/
theorem BufferElement.Sized.mem {element : BufferElement} {s s' : Symbols} {size : UInt32}
    (h : element.Sized s s' size) : size ∈ [1, 2, 4, 8] := by
  cases element with
  | codeUnit =>
    obtain ⟨-, rfl⟩ := h
    decide
  | declared type =>
    obtain ⟨id, layout, -, hlayout, rfl⟩ := h
    exact Registry.size_layout? hlayout

namespace ConstructionPlan

/-- The size of an element is only found where the type of the element has a layout. -/
theorem sized_elementSize {element : BufferElement} {s : LoweringState} {size : UInt32}
    (h : ((elementSize element).run.run s).value = .ok size) :
    element.Sized s.symbols ((elementSize element).run.run s).state.symbols size := by
  cases element with
  | codeUnit => exact ⟨rfl, (Except.ok.inj h).symm⟩
  | declared type =>
    obtain ⟨id, hid, hfound⟩ := Attempt.bind_eq_ok.1 h
    -- looking for a layout changes nothing more
    have hstate : ((elementSize (.declared type)).run.run s).state =
        ((Attempt.resolve type.resolve).run.run s).state := by
      rw [elementSize, Attempt.state_bind _ hid, Attempt.run_registry_bind]
      split <;> rfl
    rw [hstate]
    obtain ⟨registry, hregistry, hsize⟩ := Attempt.bind_eq_ok.1 hfound
    obtain rfl : _ = registry := Except.ok.inj hregistry
    split at hsize
    next layout hlayout =>
      exact ⟨id, layout, Prod.ext hid rfl, hlayout, (Except.ok.inj hsize).symm⟩
    next => simp at hsize

/-- A buffer is planned with the size of its elements. -/
theorem sized_ofConstruction {span : Span} {element : BufferElement} {count count' : Operand}
    {s : LoweringState} {size : UInt32}
    (h : ((ofConstruction span (.buffer element count)).run.run s).value =
      .ok (.buffer size count')) :
    element.Sized s.symbols ((ofConstruction span (.buffer element count)).run.run s).state.symbols
      size := by
  obtain ⟨size₁, hsize, hbuffer⟩ := Attempt.bind_eq_ok.1 h
  obtain ⟨rfl, -⟩ : size₁ = size ∧ count = count' := by simpa using Except.ok.inj hbuffer
  rw [ofConstruction, Attempt.state_bind _ hsize]
  exact sized_elementSize hsize

/-- The elements of a planned buffer have one, two, four or eight bytes. -/
theorem size_ofConstruction {span : Span} {shape : Construction} {s : LoweringState} {size : UInt32}
    {count : Operand} (h : ((ofConstruction span shape).run.run s).value = .ok (.buffer size count)) :
    size ∈ [1, 2, 4, 8] := by
  rcases ofConstruction_eq_ok h with
    ⟨element, count', size', rfl, -⟩ | ⟨size', constructor?, hobject⟩
  · exact (sized_ofConstruction h).mem
  · simp at hobject

/-! ### Templates without type arguments -/

/-- A template without type arguments is instantiated and then planned as a class. -/
theorem value_ofConstruction_template_nil (s : LoweringState) (template : Fingerprint) (span : Span) :
    ((ofConstruction span (.template template [])).run.run s).value =
      match s.symbols.instantiate template [] span with
      | (.ok id, symbols) => ((ofClass id span).run.run { s with symbols }).value
      | (.error error, _) => .error error := by
  show ((Attempt.resolve (Resolution.instantiate template [] span) >>=
    fun id ↦ ofClass id span).run.run s).value = _
  rw [ExceptT.run_bind, Lower.value_bind,
    show (Attempt.resolve (Resolution.instantiate template [] span)).run.run s =
      ⟨(s.symbols.instantiate template [] span).1,
        { s with symbols := (s.symbols.instantiate template [] span).2 }, .empty⟩ from rfl]
  generalize s.symbols.instantiate template [] span = out
  rcases out with ⟨error | id, symbols⟩
  · rfl
  · rfl

/-- A template is not refused without type arguments: it is taken for its own instance, and the
construction fails since it is no class. -/
theorem ofConstruction_template_nil {s : LoweringState} {template : Fingerprint} {t : TemplateEntry}
    (ht : s.symbols.registry.type? template = some (.template t))
    (hfind : s.symbols.instances.find? template [] = none) (span : Span) :
    ((ofConstruction span (.template template [])).run.run s).value =
      .error (.registration (.typeNotFound template.text) span) := by
  have hreg : (s.symbols.registry.type? (.ofInstance template [])).isSome := by
    rw [Fingerprint.ofInstance_nil, ht]
    rfl
  -- what is laid out is then the template itself
  have hclass : s.symbols.registry.class? template = none := by
    rw [Registry.class?, ht]
    rfl
  have hlayout : s.symbols.registry.layOutClass template = .error (.typeNotFound template.text) := by
    rw [Registry.layOutClass, hclass]
  rw [value_ofConstruction_template_nil, Symbols.instantiate_of_type? hfind hreg,
    Fingerprint.ofInstance_nil]
  dsimp only
  rw [ofClass, ExceptT.run_bind, Lower.value_bind, Attempt.run_layOutClass]
  simp only [Symbols.remember, hlayout]
  rfl

end ConstructionPlan

/-! ### Refused templates -/

/-- A request that has to be refused is refused, without a trace, exactly if no instance is
remembered for it and no type is registered under the identity of the instance. Without type
arguments, what is requested is such a type itself. A template is then constructed as if it were a
class, and the number of type arguments is never counted. -/
theorem LoweringState.template_refused_iff (s : LoweringState) {template : Fingerprint}
    {args : List Fingerprint} {span : Span} {entry : TypeEntry} {error : CompileError}
    (hentry : s.symbols.registry.type? template = some entry)
    (herror : entry.refusal? args span = some error) :
    (s.symbols.instantiate template args span = (.error error, s.symbols) ↔
      s.symbols.instances.find? template args = none ∧
        s.symbols.registry.type? (.ofInstance template args) = none) ∧
    (args = [] → s.symbols.instances.find? template args = none →
      s.symbols.instantiate template args span =
          (.ok template, s.symbols.remember template args template) ∧
        ∀ t, entry = .template t →
          ((ConstructionPlan.ofConstruction span (.template template [])).run.run s).value =
            .error (.registration (.typeNotFound template.text) span)) := by
  obtain ⟨hrefused, hnil⟩ := Symbols.instantiate_eq_refusal_iff hentry herror
  refine ⟨hrefused, fun hargs hfind ↦ ⟨hnil hargs hfind, ?_⟩⟩
  rintro t rfl
  subst hargs
  exact ConstructionPlan.ofConstruction_template_nil hentry hfind span

/-- The template is refused at two arguments. Without any it is an instance, but no object. -/
theorem LoweringState.template_refused_iff_box :
    let s : LoweringState := { symbols := { registry := Symbols.boxRegistry } }
    let box := Symbols.boxTemplate.id
    let int := Primitive.int32.fingerprint
    s.symbols.instantiate box [int, int] .nowhere =
        (.error (.templateArgumentCount "Box" 1 2 .nowhere), s.symbols) ∧
      (TypeEntry.template Symbols.boxTemplate).refusal? [] .nowhere =
        some (.templateArgumentCount "Box" 1 0 .nowhere) ∧
      (s.symbols.instantiate box [] .nowhere).1 = .ok box ∧
      ((ConstructionPlan.ofConstruction .nowhere (.template box [])).run.run s).value =
        .error (.registration (.typeNotFound box.text) .nowhere) := by
  intro s box int
  have hentry : s.symbols.registry.type? box = some (.template Symbols.boxTemplate) := by
    decide +kernel
  obtain ⟨hempty, hobject⟩ := (s.template_refused_iff hentry rfl).2 rfl (by decide +kernel)
  refine ⟨?_, rfl, ?_, hobject _ rfl⟩
  · exact (s.template_refused_iff hentry rfl).1.2 ⟨by decide +kernel, by decide +kernel⟩
  · rw [hempty]

end StackLowering

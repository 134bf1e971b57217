import StackLowering.Proofs.Lowering.Construction
import StackLowering.Proofs.Lowering.Operand

/-!
# Typing of expressions

Calls and constructions are typed if their arguments are, and so is every expression, provided that
`void` is no type argument in it and that it calls no constructor (`Expr.Admissible`).

A call is checked against the signature of what its symbol means in the end: the allocator, or a
function of the registry. Three kinds of call have to be told apart. A script calls a function by its
name, which is not that of a constructor. A construction calls the constructor of its class, which
takes the address of the object first and leaves it on the stack (`Ending.runs_callConstructor`). And a
construction calls the allocator, whose symbol no function has (`Ending.runs_allocate`). The second
condition on expressions is there because a constructor that is called by its symbol expects an address
that the call does not push.

A construction is typed by its plan: a buffer leaves its address, and so does an object, with or
without a constructor (`ConstructionPlan.typed_lower`). `Expr.typed_operand` is the induction over
expressions that puts these together.
-/

namespace StackLowering

/-! ### Calls -/

namespace Ending

variable {E : Ending} {cells : List Category}

/-- The categories of parameters that can be stored. -/
theorem exists_categories {params : List Param} (h : ∀ p ∈ params, E.Sized p.type) :
    ∃ cs, params.mapM (fun p ↦ E.symbols.registry.category? p.type) = some cs ∧
      cs.length = params.length ∧ ∀ cells, E.pushAll params cells = cs.reverse ++ cells := by
  induction params with
  | nil => exact ⟨[], rfl, rfl, fun _ ↦ rfl⟩
  | cons p params ih =>
    obtain ⟨c, hc⟩ := (h p List.mem_cons_self).exists_category
    obtain ⟨cs, hcs, hlength, hpush⟩ := ih fun q hq ↦ h q (List.mem_cons_of_mem p hq)
    refine ⟨c :: cs, by simp [hc, hcs], by simp [hlength], fun cells ↦ ?_⟩
    show E.pushAll params (E.push p.type cells) = _
    rw [hpush, push_eq_cons hc, List.reverse_cons, List.append_assoc]
    rfl

/-- The result of a function is one value of its type, or none if that is `void`. -/
theorem result_append (hE : E.Sound) (type : Fingerprint) :
    (E.symbols.registry.resultCategory? type).toList ++ cells = E.push type cells := by
  unfold Registry.resultCategory?
  split
  next heq =>
    rw [heq, hE.push_void]
    rfl
  next => rfl

/-- The signature of a function whose parameters and result can be stored. -/
theorem Signed.signature? {f : Callable} (h : E.Signed f) :
    ∃ cs, E.symbols.registry.signature? f = some
        ⟨if f.isConstructor then E.symbols.registry.width.category :: cs else cs,
          E.symbols.registry.resultCategory? f.returns⟩ ∧
      cs.length = f.arity ∧ ∀ cells, E.pushAll f.params cells = cs.reverse ++ cells := by
  obtain ⟨cs, hcs, hlength, hpush⟩ := exists_categories h.params
  refine ⟨cs, ?_, hlength, hpush⟩
  have hreturns : f.returns = voidType ∨ (E.symbols.registry.category? f.returns).isSome := by
    refine h.returns.imp id fun hsized ↦ ?_
    obtain ⟨c, hc⟩ := hsized.exists_category
    exact Option.isSome_of_mem hc
  rw [Registry.signature?, if_pos hreturns, hcs, Option.map_some]

/-- A registered function is what its symbol refers to. -/
theorem callee?_eq (hE : E.Sound) {name : String} {f : Callable}
    (hf : E.symbols.registry.functionNamed? name = some f) :
    E.context.callee? f.name = E.symbols.registry.signature? f := by
  obtain ⟨-, hname⟩ := hE.built.indexed.functionNamed?_eq_some_iff.1 hf
  have hne : f.name ≠ E.allocator := by
    intro heq
    rw [← hname, heq, hE.allocator] at hf
    simp at hf
  show Registry.calleeSignature? _ _ _ = _
  rw [Registry.calleeSignature?, if_neg hne, hname, hf, Option.bind_some]

/-- A call takes the arguments of the function and leaves its result. -/
theorem runs_call (hE : E.Sound) {name : String} {f : Callable} (hsigned : E.Signed f)
    (hf : E.symbols.registry.functionNamed? name = some f) (hfunction : f.isConstructor = false)
    {argc : UInt8} (hargc : argcByte? f.arity = some argc) :
    E.context.Runs [.call f.name argc] (E.pushAll f.params cells) (E.push f.returns cells) := by
  obtain ⟨cs, hsignature, hlength, hpush⟩ := hsigned.signature?
  rw [hfunction] at hsignature
  have hcount : argc.toNat = cs.length := by
    unfold argcByte? at hargc
    split at hargc
    next hlt =>
      obtain rfl := Option.some.inj hargc
      rw [hlength]
      exact UInt8.toNat_ofNat_of_lt' hlt
    next => simp at hargc
  rw [hpush, ← result_append hE]
  exact .call ((callee?_eq hE hf).trans hsignature) hcount

/-- A call of a constructor takes an address and the arguments, and leaves an address. -/
theorem runs_callConstructor (hE : E.Sound) {id : Fingerprint} {f : Callable}
    (hsigned : E.Signed f) (hf : E.symbols.registry.constructorOf? id = some f)
    (hargc : (argcByte? (constructorArgc f)).isSome) :
    E.context.Runs [.call f.name (constructorArgc f).toUInt8]
      (E.pushAll f.params (E.push addressType cells)) (E.push addressType cells) := by
  obtain ⟨hconstructor, hreturns⟩ := hE.constructors hf
  obtain ⟨cs, hsignature, hlength, hpush⟩ := hsigned.signature?
  rw [hconstructor, if_pos rfl] at hsignature
  have hnamed : E.symbols.registry.functionNamed? f.name = some f := by
    obtain ⟨k, -, hk⟩ := Option.bind_eq_some_iff.1 hf
    have hid := hE.built.indexed.function_id hk
    exact hE.built.indexed.functionNamed?_eq_some_iff.2 ⟨hid ▸ hk, rfl⟩
  have hcount : (constructorArgc f).toUInt8.toNat = cs.length + 1 := by
    unfold argcByte? at hargc
    split at hargc
    next hlt =>
      rw [hlength]
      exact UInt8.toNat_ofNat_of_lt' hlt
    next => simp at hargc
  -- the address lies below the arguments: it is the first parameter of the signature
  have hruns : E.context.Runs [.call f.name (constructorArgc f).toUInt8] (_ ++ cells) (_ ++ cells) :=
    .call ((callee?_eq hE hnamed).trans hsignature) hcount
  rw [result_append hE, hreturns] at hruns
  rw [hpush, hE.push_address]
  simpa [hE.push_address] using hruns

/-- The allocator turns a size into an address. -/
theorem runs_allocate :
    E.context.Runs [.call E.allocator 1] (E.symbols.registry.width.category :: cells)
      (E.symbols.registry.width.category :: cells) := by
  have hcallee : E.context.callee? E.allocator =
      some ⟨[E.symbols.registry.width.category], some E.symbols.registry.width.category⟩ := by
    show Registry.calleeSignature? _ _ _ = _
    rw [Registry.calleeSignature?, if_pos rfl]
  exact StackContext.Runs.call hcallee rfl

/-- A size has the category of addresses. -/
theorem runs_constPointer (value : UInt64) :
    E.context.Runs [.const (.ofPointer value E.symbols.registry.width)] cells
      (E.symbols.registry.width.category :: cells) := by
  refine .const ?_
  show (Constant.ofPointer value _).category? = _
  cases E.symbols.registry.width <;> rfl

end Ending

/-- A call of a function that is no constructor is typed if its arguments are. -/
theorem Operand.typed_call {E : Ending} (hE : E.Sound) (options : CompilerOptions)
    (callee : Option String) (calleeSpan : Span) {args : List Operand}
    (hfunction : ∀ f, E.symbols.registry.functionNamed? (callee.getD anonymousCallee) = some f →
      f.isConstructor = false)
    (h : ∀ arg ∈ args, arg.Typed E) (span : Span) :
    (call options callee calleeSpan args span).Typed E := by
  refine typed_ofInference hE fun cells ↦ .bind (.lift .registry) fun r cells₁ ↦ ?_
  split
  next => exact .throw _
  next f hf =>
    split
    next => exact .throw _
    next argc hargc =>
      have hsigned (hp : True ∧ cells₁ = cells ∧ ∃ s : Symbols, s.Fits E ∧ s.registry = r) :
          E.Signed f ∧
            E.symbols.registry.functionNamed? (callee.getD anonymousCallee) = some f := by
        obtain ⟨-, -, s, hs, rfl⟩ := hp
        exact ⟨hs.functions (hs.built.indexed.functionNamed?_eq_some_iff.1 hf).1,
          hs.before.registry.functionNamed? hf⟩
      refine .seq (Lower.typed_bindArguments hE options
        (fun hp p ↦ (hsigned hp).1.params p) h span _) fun _ ↦ ?_
      refine .seq (.emit (E.push f.returns cells) fun hp ↦ ?_) fun _ ↦
        .pure fun hp ↦ ⟨(hsigned hp).1.returns, rfl⟩
      rw [hp.2.1]
      exact Ending.runs_call hE (hsigned hp).1 (hsigned hp).2 (hfunction f (hsigned hp).2) hargc

/-! ### Constructions -/

namespace ConstructionPlan

variable {E : Ending} {P : Prop} {cells : List Category}

/-- A plan whose constructor, if it has one, is that of a class and can be called. -/
def Sound (E : Ending) : ConstructionPlan → Prop
  | buffer _ _ => True
  | object _ constructor? => ∀ c, constructor? = some c →
    E.Signed c ∧ (∃ id, E.symbols.registry.constructorOf? id = some c) ∧
      (argcByte? (constructorArgc c)).isSome

theorem typed_ofClass (id : Fingerprint) (span : Span) :
    (ofClass id span).Typed E P cells fun plan cells' ↦ cells' = cells ∧ plan.Sound E := by
  refine .bind (.layOutClass id span) fun size cells₁ ↦ .of_eq And.right ?_
  refine .bind (.lift .registry) fun r cells₂ ↦ ?_
  split
  next => exact .pure fun ⟨_, heq, _⟩ ↦ ⟨heq, fun c hc ↦ by simp at hc⟩
  next c hc =>
    split
    next argc hargc =>
      refine .pure fun ⟨_, heq, s, hs, hr⟩ ↦ ⟨heq, fun c' hc' ↦ ?_⟩
      obtain rfl := Option.some.inj hc'
      subst hr
      obtain ⟨k, -, hk⟩ := Option.bind_eq_some_iff.1 hc
      exact ⟨hs.functions hk, ⟨id, hs.before.registry.constructorOf? hc⟩, Option.isSome_of_mem hargc⟩
    next => exact .throw _

theorem typed_elementSize (hE : E.Sound) {element : BufferElement}
    (h : ∀ type, element = .declared type → type.ArgsStorable) :
    (elementSize element).Typed E P cells fun _ cells' ↦ cells' = cells := by
  cases element with
  | codeUnit => exact .pure fun _ ↦ rfl
  | declared type =>
    have htype : type.resolve.Typed E P _ :=
      (type.typed_resolve hE (h type rfl)).of_imp fun _ ↦ trivial
    refine .bind (.resolve htype) fun id cells₁ ↦ .of_eq (fun hp ↦ hp.2.1) ?_
    refine .bind (.lift .registry) fun r cells₂ ↦ ?_
    split
    · exact .pure fun ⟨_, heq, _⟩ ↦ heq
    · exact .throw _

end ConstructionPlan

/-- The types that are resolved for a construction. -/
def Construction.types : Construction → List TypeExpr
  | buffer (.declared type) _ => [type]
  | template _ typeArgs => typeArgs
  | buffer .codeUnit _ | object _ | unsupported => []

/-- The types that are resolved for a construction are its type arguments. -/
theorem Construction.types_classify_subset (r : Registry) (f : Frame) (callee : Option String)
    (typeArgs : Option (List TypeExpr)) (args : Option (List Operand)) :
    (classify r f callee typeArgs args).types ⊆ typeArgs.getD [] := by
  unfold classify
  split
  next => simp [types]
  next name _ =>
    split
    next element count hshape =>
      rcases bufferShape?_eq_some hshape with ⟨-, ⟨-, type, rfl, rfl⟩ | ⟨-, rfl, -⟩⟩
      · simp [types]
      · simp [types]
    next => split <;> simp [types]

namespace ConstructionPlan

variable {E : Ending} {P : Prop} {cells : List Category}

theorem typed_ofConstruction (hE : E.Sound) (span : Span) {shape : Construction}
    (h : ∀ t ∈ shape.types, t.Storable) :
    (ofConstruction span shape).Typed E P cells fun plan cells' ↦
      cells' = cells ∧ plan.Sound E := by
  cases shape with
  | buffer element count =>
    have helement (type : TypeExpr) (heq : element = .declared type) : type.ArgsStorable :=
      (h type (by simp [heq, Construction.types])).argsStorable
    exact .bind (typed_elementSize hE helement) fun _ _ ↦ .pure fun ⟨_, heq⟩ ↦ ⟨heq, trivial⟩
  | object id => exact typed_ofClass id span
  | template id typeArgs =>
    have htypes : (resolveTypes typeArgs).Typed E P _ :=
      (typed_resolveTypes hE typeArgs h).of_imp fun _ ↦ trivial
    refine .bind (.resolve htypes) fun ids cells₁ ↦ .of_eq (fun hp ↦ hp.2.1) ?_
    refine .bind (.resolve (.instantiate hE id ids span fun hp ↦ hp.2.2.2)) fun id cells₂ ↦ ?_
    exact .of_eq (fun hp ↦ hp.2.1) (typed_ofClass id span)
  | unsupported => exact .throw _

private theorem slot?_address (hE : E.Sound) {slot : UInt32}
    (h : E.slots[slot.toNat]? = some addressType) :
    E.context.slot? slot = some E.symbols.registry.width.category :=
  Option.bind_eq_some_iff.2 ⟨addressType, h, hE.category?_address⟩

/-- From two sizes and a count to the address of a buffer and the count again. -/
theorem runs_allocate (hE : E.Sound) {countSlot addressSlot : UInt32}
    (hcount : E.slots[countSlot.toNat]? = some addressType)
    (haddress : E.slots[addressSlot.toNat]? = some addressType) (cells : List Category) :
    E.context.Runs [.teeLocal countSlot, .mul E.symbols.registry.width,
        .add E.symbols.registry.width, .call E.allocator 1, .teeLocal addressSlot,
        .getLocal countSlot]
      (E.push addressType (E.push addressType (E.push addressType cells)))
      (E.push addressType (E.push addressType cells)) := by
  have hcount := slot?_address hE hcount
  have haddress := slot?_address hE haddress
  simp only [hE.push_address]
  refine .append (.teeLocal hcount) (.append (.mul _) (.append (.add _) ?_))
  exact .append Ending.runs_allocate (.append (.teeLocal haddress) (.getLocal hcount))

theorem runs_narrowCount (hE : E.Sound) (cells : List Category) :
    E.context.Runs (narrowCount E.symbols.registry.width) (E.push addressType cells)
      (.i32 :: cells) := by
  rw [hE.push_address]
  cases E.symbols.registry.width with
  | w32 => exact .nil _
  | w64 => exact .convert _ _ _

/-- The header is stored at the address, which is then the value. -/
theorem runs_storeHeader (hE : E.Sound) {addressSlot : UInt32}
    (haddress : E.slots[addressSlot.toNat]? = some addressType) (cells : List Category) :
    E.context.Runs [.store .i32 0 headerSize.toUInt8, .getLocal addressSlot]
      (.i32 :: E.push addressType cells) (E.push addressType cells) := by
  have haddress := slot?_address hE haddress
  simp only [hE.push_address]
  exact .append (.store .i32 0 headerSize.toUInt8) (.getLocal haddress)

/-- The code of a buffer leaves its address. -/
theorem typed_lowerBuffer (hE : E.Sound) (options : CompilerOptions)
    (hoptions : options.allocator = E.allocator) (elementSize : UInt32) {count : Operand}
    (h : count.Typed E) (cells : List Category) :
    (lowerBuffer options elementSize count).Typed E P cells fun _ cells' ↦
      cells' = E.push addressType cells := by
  refine .bind .width fun width cells₁ ↦ .of_eq (fun hp ↦ hp.2.1) ?_
  refine .bind (.temporary hE (.inl rfl)) fun countSlot cells₂ ↦ .of_eq (fun hp ↦ hp.2.1) ?_
  refine .bind (.temporary hE (.inr rfl)) fun addressSlot cells₃ ↦ .of_eq (fun hp ↦ hp.2.1) ?_
  -- what was found out is the width, and that both slots hold addresses
  refine .of_imp (Q := width = E.symbols.registry.width ∧
    E.slots[countSlot.toNat]? = some addressType ∧ E.slots[addressSlot.toNat]? = some addressType)
    ?_ fun ⟨⟨⟨_, _, hwidth⟩, _, hcount⟩, _, haddress⟩ ↦ ⟨hwidth, hcount, haddress⟩
  refine .seq (.emit (E.push addressType cells) fun ⟨hwidth, _⟩ ↦ ?_) fun _ ↦ ?_
  · rw [hwidth, hE.push_address]
    exact E.runs_constPointer _
  refine .seq (.emit (E.push addressType (E.push addressType cells)) fun ⟨hwidth, _⟩ ↦ ?_) fun _ ↦ ?_
  · rw [hwidth, hE.push_address, hE.push_address]
    exact E.runs_constPointer _
  refine .bind (.of_imp (.discard (h.checkOrTrap addressType _)) fun _ ↦ hE.sized_address.known)
    fun _ cells₄ ↦ ?_
  refine .of_eq (fun ⟨_, _, _, heq⟩ ↦ heq) (.of_imp ?_ And.left)
  refine .seq (.emitAll (E.push addressType (E.push addressType cells)) ?_) fun _ ↦ ?_
  · rintro ⟨rfl, hcount, haddress⟩
    rw [hoptions]
    exact runs_allocate hE hcount haddress cells
  refine .seq (.emitAll (.i32 :: E.push addressType cells) fun ⟨hwidth, _⟩ ↦ ?_) fun _ ↦ ?_
  · rw [hwidth]
    exact runs_narrowCount hE _
  exact .emitAll _ fun ⟨_, _, haddress⟩ ↦ runs_storeHeader hE haddress cells

/-- The code of an object leaves its address, with and without a constructor. -/
theorem typed_lowerObject (hE : E.Sound) (options : CompilerOptions)
    (hoptions : options.allocator = E.allocator) (size : UInt32) {constructor? : Option Callable}
    {args : List Operand} (h : ∀ arg ∈ args, arg.Typed E) (span : Span) (cells : List Category) :
    (lowerObject options size constructor? args span).Typed E
      ((object size constructor?).Sound E) cells fun _ cells' ↦
        cells' = E.push addressType cells := by
  refine .bind .width fun width cells₁ ↦ .of_eq (fun hp ↦ hp.2.1) ?_
  refine .seq (.emit (E.push addressType cells) fun ⟨_, _, hwidth⟩ ↦ ?_) fun _ ↦ ?_
  · rw [hwidth, hE.push_address]
    exact E.runs_constPointer _
  refine .seq (.emit (E.push addressType cells) fun _ ↦ ?_) fun _ ↦ ?_
  · rw [hoptions, hE.push_address]
    exact Ending.runs_allocate
  cases constructor? with
  | none => exact .pure fun _ ↦ rfl
  | some c =>
    refine .seq (Lower.typed_bindArguments hE options
      (fun hp ↦ (hp.1 c rfl).1.params) h span _) fun _ ↦ .emit _ fun ⟨hplan, _⟩ ↦ ?_
    obtain ⟨hsigned, ⟨id, hc⟩, hargc⟩ := hplan c rfl
    exact Ending.runs_callConstructor hE hsigned hc hargc

/-- A planned construction leaves the address of what it makes. -/
theorem typed_lower (hE : E.Sound) (options : CompilerOptions)
    (hoptions : options.allocator = E.allocator) {plan : ConstructionPlan}
    (hcount : ∀ size count, plan = buffer size count → count.Typed E) {args : List Operand}
    (h : ∀ arg ∈ args, arg.Typed E) (span : Span) (cells : List Category) :
    (plan.lower options args span).Typed E (plan.Sound E) cells fun _ cells' ↦
      cells' = E.push addressType cells := by
  cases plan with
  | buffer size count => exact typed_lowerBuffer hE options hoptions size (hcount size count rfl) cells
  | object size constructor? => exact typed_lowerObject hE options hoptions size h span cells

end ConstructionPlan

/-- A construction is typed if its arguments are, and `void` is not written in its type arguments. -/
theorem Operand.typed_construct {E : Ending} (hE : E.Sound) (options : CompilerOptions)
    (hoptions : options.allocator = E.allocator) (node : NodeId) (callee : Option String)
    {typeArgs : Option (List TypeExpr)} (htypes : ∀ t ∈ typeArgs.getD [], t.Storable)
    {args : Option (List Operand)} (h : ∀ arg ∈ args.getD [], arg.Typed E) (span : Span) :
    (construct options node callee typeArgs args span).Typed E := by
  refine typed_ofInference hE fun cells ↦ ?_
  refine .seq (.annotate _ _) fun _ ↦ ?_
  refine .bind (.lift .get) fun s cells₁ ↦ .of_eq (fun hp ↦ hp.2.1) ?_
  have hshape : ∀ t ∈ (Construction.classify s.symbols.registry s.frame callee typeArgs args).types,
      t.Storable :=
    fun t ht ↦ htypes t (Construction.types_classify_subset _ _ _ _ _ ht)
  -- a plan that can be made has a count that is an argument
  refine .lift_bind (ConstructionPlan.typed_ofConstruction hE span hshape) fun s' cells₃ ↦ ?_
  split
  next plan hplan =>
    have hcount (size : UInt32) (count : Operand) (heq : plan = .buffer size count) :
        count.Typed E := by
      rcases ConstructionPlan.ofConstruction_eq_ok hplan with
        ⟨element, count', size', hclass, hbuffer⟩ | ⟨size', constructor?, hobject⟩
      · obtain ⟨rfl, rfl⟩ : size' = size ∧ count' = count := by simpa [hbuffer] using heq
        exact h count' (by simp [Construction.classify_eq_buffer hclass])
      · simp [hobject] at heq
    refine .of_eq (fun hp ↦ (hp.2 plan hplan).1) ?_
    have hlower := ConstructionPlan.typed_lower hE options hoptions hcount h span cells
    exact .seq (hlower.of_imp fun hp ↦ (hp.2 plan hplan).2) fun _ ↦
      .pure fun _ ↦ ⟨hE.sized_address.known, rfl⟩
  next error herror =>
    exact .seq (.trap (E.push addressType cells)) fun _ ↦
      .pure fun _ ↦ ⟨hE.sized_address.known, rfl⟩

/-! ### Expressions -/

/-- An expression in which `void` is not written and the name of every callee satisfies a
condition. -/
inductive Expr.Admissible (p : String → Prop) : Expr → Prop
  | literal (value : Literal) (span : Span) : Admissible p (.literal value span)
  | var (name : Ident) (span : Span) : Admissible p (.var name span)
  | call {callee : Expr} {args : List Expr} {span : Span}
      (hcallee : p (callee.ident?.getD anonymousCallee)) (hargs : ∀ e ∈ args, Admissible p e) :
      Admissible p (.call callee args span)
  | construct {node : NodeId} {callee : Option Expr} {typeArgs : Option (List TypeExpr)}
      {args : Option (List Expr)} {span : Span} (htypes : ∀ t ∈ typeArgs.getD [], t.Storable)
      (hargs : ∀ e ∈ args.getD [], Admissible p e) :
      Admissible p (.construct node callee typeArgs args span)
  | paren {inner : Expr} {span : Span} (hinner : Admissible p inner) :
      Admissible p (.paren inner span)

/-- Every expression is typed, if it calls no constructor. -/
theorem Expr.typed_operand {E : Ending} (hE : E.Sound) (options : CompilerOptions)
    (hoptions : options.allocator = E.allocator) {e : Expr}
    (he : e.Admissible fun name ↦ ∀ f, E.symbols.registry.functionNamed? name = some f →
      f.isConstructor = false) : (e.operand options).Typed E := by
  induction he with
  | literal value span => exact Operand.typed_literal hE value span
  | var name span => exact Operand.typed_var hE name.name span
  | @call callee args span hcallee _ ih =>
    refine Operand.typed_call hE options _ callee.span hcallee (fun arg harg ↦ ?_) span
    rw [operandsOfList_eq_map] at harg
    obtain ⟨e, he, rfl⟩ := List.mem_map.1 harg
    exact ih e he
  | @construct node callee typeArgs args span htypes _ ih =>
    refine Operand.typed_construct hE options hoptions node _ htypes (fun arg harg ↦ ?_) span
    rw [operandsOfArgs_eq_map] at harg
    cases args with
    | none => simp at harg
    | some es =>
      obtain ⟨e, he, rfl⟩ := List.mem_map.1 (show arg ∈ es.map _ from harg)
      exact ih e he
  | @paren inner span _ ih => exact ih.paren span

end StackLowering

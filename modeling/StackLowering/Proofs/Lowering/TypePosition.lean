import StackLowering.Proofs.Lowering.Script

/-!
# Constructions and written types

A name that is applied to type arguments can be constructed, and it can be written as a type. The first
goes by what the name means (`Construction.target`), the second by the resolution of written types
(`TypeExpr.resolve`), and nothing makes the two agree. They do for names with the arguments that belong
to them: none for a class, and some for a template (`TypeEntry.Takes`). Type arguments of a class are
refused where a type is written, and ignored where an object is constructed. A template without
arguments is refused where a type is written, and constructed as if it were a class.

To compare the two, the resolution of what is constructed is separated from the rest of the plan
(`ConstructionPlan.ofConstruction_eq`), and is then seen to depend on the name and the type arguments
only (`namedTarget`). What is left is a case distinction over what the name means. That a template
without arguments gives a type at all needs the state to be one that is reached from a host's registry:
otherwise something else might be remembered for it (`Symbols.Reachable.instantiate_nil`).
-/

namespace StackLowering

/-! ### Targets -/

/-- The type of which a construction makes an object. -/
def Construction.target (span : Span) : Construction → Resolution Fingerprint
  | object id => pure id
  | template id typeArgs => do
    let args ← resolveTypes typeArgs
    Resolution.instantiate id args span
  | buffer _ _ | unsupported => throw (.unsupportedConstruction span)

/-- The type of which a name applied to type arguments makes an object, where no variable has the name
and no buffer is written so. -/
def namedTarget (name : String) (typeArgs : List TypeExpr) (span : Span) : Resolution Fingerprint := do
  match (← get).registry.typeNamed? name with
  | some (.object c) => pure c.id
  | some (.template t) => do
    let args ← resolveTypes typeArgs
    Resolution.instantiate t.id args span
  | _ => throw (.unsupportedConstruction span)

theorem Attempt.run_resolve {α : Type} (x : Resolution α) (s : LoweringState) :
    (Attempt.resolve x).run.run s =
      ⟨(x.run.run s.symbols).1, { s with symbols := (x.run.run s.symbols).2 }, .empty⟩ := rfl

/-- Two resolutions in a row are one. -/
theorem Attempt.resolve_bind {α β : Type} (x : Resolution α) (f : α → Resolution β) :
    Attempt.resolve (x >>= f) = Attempt.resolve x >>= fun a ↦ Attempt.resolve (f a) := by
  refine ExceptT.ext (Lower.ext fun s ↦ ?_)
  have hfirst := Attempt.run_resolve x s
  rw [run_resolve, Resolution.run_bind]
  rcases hx : x.run.run s.symbols with ⟨error | a, symbols⟩
  · rw [hx] at hfirst
    rw [Attempt.run_bind_error _ hfirst]
  · rw [hx] at hfirst
    rw [Attempt.run_bind_ok _ hfirst, run_resolve]
    rfl

/-- A construction that makes no buffer is planned by laying out its target. -/
theorem ConstructionPlan.ofConstruction_eq (span : Span) {shape : Construction}
    (h : ∀ element count, shape ≠ .buffer element count) :
    ofConstruction span shape = Attempt.resolve (shape.target span) >>= fun id ↦ ofClass id span := by
  rcases shape with ⟨element, count⟩ | id | ⟨id, typeArgs⟩ | _
  · exact absurd rfl (h element count)
  · rfl
  · rw [Construction.target, Attempt.resolve_bind, bind_assoc]
    rfl
  · rfl

variable {s : LoweringState} {name : String} {typeArgs : Option (List TypeExpr)}
  {args : Option (List Operand)}

/-- What a construction reaches is what its name does. -/
theorem Construction.run_target (hframe : s.frame.find? name = none)
    (hbuffer : bufferShape? name typeArgs args = none) (span : Span) :
    ((classify s.symbols.registry s.frame (some name) typeArgs args).target span).run.run s.symbols =
      (namedTarget name (typeArgs.getD []) span).run.run s.symbols := by
  unfold classify Meaning.ofName namedTarget
  dsimp only
  rw [hbuffer, hframe, Resolution.run_get_bind]
  dsimp only
  rcases s.symbols.registry.typeNamed? name with _ | p | c | t
  · dsimp only
    rcases s.symbols.registry.functionNamed? name with _ | f <;> rfl
  · rfl
  · rfl
  · rfl

theorem Construction.classify_ne_buffer {r : Registry} {f : Frame}
    (h : bufferShape? name typeArgs args = none) (element : BufferElement) (count : Operand) :
    classify r f (some name) typeArgs args ≠ .buffer element count := by
  unfold classify
  dsimp only
  rw [h]
  dsimp only
  split <;> exact nofun

/-- Whether a type can be applied to type arguments: a template needs some, and a class takes none. -/
def TypeEntry.Takes : TypeEntry → List TypeExpr → Prop
  | primitive _, _ => True
  | object _, args => args = []
  | template _, args => args ≠ []

/-- A template without type arguments is an instance of itself. -/
theorem Symbols.Reachable.instantiate_nil {s : Symbols} (hs : s.Reachable) {t : TemplateEntry}
    (ht : s.registry.type? t.id = some (.template t)) (span : Span) :
    (s.instantiate t.id [] span).1 = .ok t.id := by
  rcases hfind : s.instances.find? t.id [] with _ | id
  · have hreg : (s.registry.type? (.ofInstance t.id [])).isSome := by
      rw [Fingerprint.ofInstance_nil, ht]
      rfl
    rw [instantiate_of_type? hfind hreg, Fingerprint.ofInstance_nil]
  · rw [instantiate_of_find? hfind, hs.faithful.id_eq hfind, Fingerprint.ofInstance_nil]

/-- Without type arguments a registered type that is no template is written by its name alone. -/
theorem TypeExpr.run_resolve_apply {s : Symbols} {name : Ident} {e : TypeEntry}
    (he : s.registry.typeNamed? name.name = some e) (ht : e.template? = none) (types : List TypeExpr)
    (span : Span) :
    (TypeExpr.apply name types span).resolve.run.run s =
      if types = [] then (.ok e.id, s) else (.error (.notATemplate name.name span), s) := by
  rw [TypeExpr.resolve, Resolution.run_get_bind, he]
  rcases e with p | c | t
  · rcases types with _ | ⟨type, types⟩ <;> rfl
  · rcases types with _ | ⟨type, types⟩ <;> rfl
  · exact nomatch ht

/-- With type arguments a template is written as it is constructed. -/
theorem TypeExpr.run_resolve_template {s : Symbols} {name : Ident} {t : TemplateEntry}
    (ht : s.registry.typeNamed? name.name = some (.template t)) (types : List TypeExpr) (span : Span) :
    (TypeExpr.apply name types span).resolve.run.run s =
      if types = [] then (.error (.templateArgumentCount name.name t.arity 0 span), s)
      else (namedTarget name.name types span).run.run s := by
  rw [TypeExpr.resolve, namedTarget, Resolution.run_get_bind, Resolution.run_get_bind, ht]
  rcases types with _ | ⟨type, types⟩ <;> rfl

/-- What a name applied to type arguments reaches is what it stands for where a type is written, and a
class, exactly if the named type is applied to what it takes, and its instances are classes. -/
theorem namedTarget_iff_resolve {s : Symbols} (hs : s.Reachable) (name : Ident) (types : List TypeExpr)
    (span : Span) :
    let written := (TypeExpr.apply name types span).resolve.run.run s
    (∀ id, ((namedTarget name.name types span).run.run s).1 = .ok id ↔
        written.1 = .ok id ∧ (written.2.registry.class? id).isSome) ↔
      (∀ e, s.registry.typeNamed? name.name = some e → e.Takes types) ∧
        ∀ t, s.registry.typeNamed? name.name = some (.template t) →
          ∀ id, written.1 = .ok id → (written.2.registry.class? id).isSome := by
  intro written
  have hregistered {e : TypeEntry} (he : s.registry.typeNamed? name.name = some e) :
      s.registry.type? e.id = some e :=
    (hs.built.indexed.typeNamed?_eq_some_iff.1 he).1
  have hwritten : written = (TypeExpr.apply name types span).resolve.run.run s := rfl
  rw [namedTarget, Resolution.run_get_bind]
  rcases he : s.registry.typeNamed? name.name with _ | p | c | t
  · rw [TypeExpr.resolve, Resolution.run_get_bind, he] at hwritten
    rw [hwritten]
    exact iff_of_true (fun id ↦ ⟨nofun, nofun⟩) ⟨nofun, nofun⟩
  · -- a built-in type is no class, and is not constructed
    rw [TypeExpr.run_resolve_apply he rfl] at hwritten
    refine iff_of_true (fun id ↦ ⟨nofun, ?_⟩) ⟨fun e heq ↦ Option.some.inj heq ▸ trivial, nofun⟩
    rintro ⟨hid, hclass⟩
    rw [hwritten] at hid hclass
    split at hid
    next htypes =>
      obtain rfl := Except.ok.inj hid
      rw [if_pos htypes, Registry.class?, hregistered he] at hclass
      exact absurd hclass Bool.false_ne_true
    next => cases hid
  · rw [TypeExpr.run_resolve_apply he rfl] at hwritten
    by_cases htypes : types = []
    · rw [hwritten, if_pos htypes]
      refine iff_of_true (fun id ↦ ⟨fun hid ↦ ⟨hid, ?_⟩, And.left⟩)
        ⟨fun e heq ↦ Option.some.inj heq ▸ htypes, fun t ht ↦ by cases ht⟩
      obtain rfl := Except.ok.inj hid
      rw [Registry.class?, show s.registry.type? c.id = _ from hregistered he]
      rfl
    · rw [hwritten, if_neg htypes]
      exact iff_of_false (fun h ↦ by cases ((h c.id).1 rfl).1) fun h ↦ htypes (h.1 _ rfl)
  · rw [TypeExpr.run_resolve_template he, namedTarget, Resolution.run_get_bind, he] at hwritten
    by_cases htypes : types = []
    · -- without type arguments a template reaches itself, and is not written so
      subst htypes
      have htarget : ((resolveTypes [] >>= fun args ↦ Resolution.instantiate t.id args span).run.run
          s).1 = .ok t.id :=
        hs.instantiate_nil (hregistered he) span
      refine iff_of_false (fun h ↦ ?_) fun h ↦ h.1 _ rfl rfl
      have hid := ((h t.id).1 htarget).1
      rw [hwritten] at hid
      cases hid
    · rw [if_neg htypes] at hwritten
      rw [hwritten]
      exact ⟨fun h ↦ ⟨fun e heq ↦ Option.some.inj heq ▸ htypes, fun _ _ id hid ↦ ((h id).1 hid).2⟩,
        fun h id ↦ ⟨fun hid ↦ ⟨hid, h.2 t rfl id hid⟩, And.left⟩⟩

/-- A construction that makes no buffer is planned by laying out its target. This target is the type
that is written in the same way, if that is a class and there is none otherwise, exactly if the named
type is applied to what it takes, and its instances are classes. Type arguments of a class are refused
where a type is written; the construction does not look at them. -/
theorem Construction.target_iff_resolve (s : LoweringState) (hs : s.symbols.Reachable) (name : Ident)
    (typeArgs : Option (List TypeExpr)) (args : Option (List Operand)) (span : Span)
    (hframe : s.frame.find? name.name = none)
    (hbuffer : bufferShape? name.name typeArgs args = none) :
    let written := (TypeExpr.apply name (typeArgs.getD []) span).resolve.run.run s.symbols
    let shape := classify s.symbols.registry s.frame (some name.name) typeArgs args
    let target := (shape.target span).run.run s.symbols
    (ConstructionPlan.ofConstruction span shape =
        (Attempt.resolve (shape.target span) >>= fun id ↦ ConstructionPlan.ofClass id span)) ∧
      ((∀ id, target.1 = .ok id ↔ written.1 = .ok id ∧ (written.2.registry.class? id).isSome) ↔
        (∀ e, s.symbols.registry.typeNamed? name.name = some e → e.Takes (typeArgs.getD [])) ∧
          ∀ t, s.symbols.registry.typeNamed? name.name = some (.template t) →
            ∀ id, written.1 = .ok id → (written.2.registry.class? id).isSome) ∧
      ∀ c, s.symbols.registry.typeNamed? name.name = some (.object c) → typeArgs.getD [] ≠ [] →
        target = (.ok c.id, s.symbols) ∧ written = (.error (.notATemplate name.name span), s.symbols) := by
  intro written shape target
  have htarget : target = (namedTarget name.name (typeArgs.getD []) span).run.run s.symbols :=
    run_target hframe hbuffer span
  rw [htarget]
  refine ⟨ConstructionPlan.ofConstruction_eq span (classify_ne_buffer hbuffer),
    namedTarget_iff_resolve hs name (typeArgs.getD []) span, fun c hc hargs ↦ ⟨?_, ?_⟩⟩
  · rw [namedTarget, Resolution.run_get_bind, hc]
    rfl
  · show (TypeExpr.apply name _ span).resolve.run.run s.symbols = _
    rw [TypeExpr.run_resolve_apply hc rfl, if_neg hargs]

/-- The class `Point` is constructed with a type argument, although there is no type that is written
so. Without type arguments it is the same class in both places. -/
theorem Construction.target_iff_resolve_point :
    let s : LoweringState := { symbols := { registry := pointRegistry } }
    let target (types : List TypeExpr) := ((classify s.symbols.registry s.frame (some "Point")
      (some types) none).target .nowhere).run.run s.symbols
    let written (types : List TypeExpr) := (TypeExpr.plain "Point" types).resolve.run.run s.symbols
    (target []).1 = .ok pointClass.id ∧ (written []).1 = .ok pointClass.id ∧
      (target [.plain "int" []]).1 = .ok pointClass.id ∧
      (written [.plain "int" []]).1 = .error (.notATemplate "Point" .nowhere) := by
  intro s target written
  have hs : s.symbols.Reachable := .start usable_pointRegistry.built
  have hpoint : s.symbols.registry.typeNamed? "Point" = some (.object pointClass) := by
    decide +kernel
  obtain ⟨-, hagree, -⟩ := target_iff_resolve s hs (.plain "Point") (some []) none .nowhere rfl rfl
  obtain ⟨-, -, hignored⟩ := target_iff_resolve s hs (.plain "Point") (some [.plain "int" []]) none
    .nowhere rfl rfl
  have hplain : (target []).1 = .ok pointClass.id := by
    decide +kernel
  have hsame := hagree.2 ⟨fun e he ↦ ?_, fun t ht ↦ nomatch ht.symm.trans hpoint⟩
  · obtain ⟨htarget, hwritten⟩ := hignored _ hpoint (List.cons_ne_nil _ _)
    exact ⟨hplain, ((hsame _).1 hplain).1, congrArg Prod.fst htarget, congrArg Prod.fst hwritten⟩
  · obtain rfl := Option.some.inj (hpoint.symm.trans he)
    rfl

end StackLowering

import StackLowering.Proofs.Lowering.Passes
import StackLowering.Proofs.Symbols.Likeness

/-!
# Resolution in registries that look alike

A name means the same in two registries that look alike. A written type stands for the same type in
both, or for none, and the registries look alike afterwards (`Resolution.Alike`). The same is so for
the signatures of a script. How classes are laid out plays no part in this.

How much two registries have in common is a parameter (`ClassView`). The comparison of two widths looks
at classes without the numbers of their layouts, and the order of calls looks at them without layouts
at all; both use the same rules. So a rule may rely on nothing but what every view shows of a class,
which is all of it but its layout.
-/

namespace StackLowering

variable {v : ClassView}

/-! ### Names -/

namespace Registry.Alike

variable {r r' : Registry}

/-- A name has the same meaning in registries that look alike. -/
theorem ofName (h : r.Alike v r') (f : Frame) (name : String) :
    Meaning.ofName r' f name = Meaning.ofName r f name := by
  unfold Meaning.ofName
  rw [h.functionNamed?]
  rcases h.cases_typeNamed? name with heq | ⟨c, c', hc, hc', hsee⟩
  · rw [heq]
  · have hmeaning : (TypeEntry.object c').meaning = (TypeEntry.object c).meaning :=
      congrArg Meaning.object (ClassView.id_eq hsee)
    rw [hc, hc']
    dsimp only
    rw [hmeaning]

/-- A construction makes the same in both registries. -/
theorem classify (h : r.Alike v r') (f : Frame) (callee : Option String)
    (typeArgs : Option (List TypeExpr)) (args : Option (List Operand)) :
    Construction.classify r' f callee typeArgs args =
      Construction.classify r f callee typeArgs args := by
  rcases callee with _ | name
  · rfl
  · unfold Construction.classify
    dsimp only
    rw [h.ofName]

/-- The same conversions are found in both registries. -/
theorem find? (h : r.Alike v r') (source target : Fingerprint) :
    Conversion.find? r' source target = Conversion.find? r source target := by
  simp only [Conversion.find?, Conversion.handle?, h.isSome_class?]

end Registry.Alike

/-! ### Resolutions -/

/-- Two resolutions, each from its own state, have the same value and lead to states that look
alike. -/
structure Resolution.Alike {α : Type} (v : ClassView) (s s' : Symbols) (x y : Resolution α) :
    Prop where
  value : (y.run.run s').1 = (x.run.run s).1
  symbols : (x.run.run s).2.Alike v (y.run.run s').2

namespace Resolution.Alike

variable {α β : Type} {s s' : Symbols} {x y : Resolution α}

/-- A value is returned in both states. -/
theorem pure (h : s.Alike v s') (a : α) : Alike v s s' (pure a) (pure a) :=
  ⟨rfl, h⟩

/-- A failure leaves both states as they are. -/
theorem throw (h : s.Alike v s') (error : CompileError) :
    Alike v s s' (throw error : Resolution α) (throw error) :=
  ⟨rfl, h⟩

/-- The second resolutions start where the first ones have got to. -/
theorem bind {f g : α → Resolution β} (hx : Alike v s s' x y)
    (hf : ∀ a s₁ s₁', s₁.Alike v s₁' → Alike v s₁ s₁' (f a) (g a)) :
    Alike v s s' (x >>= f) (y >>= g) := by
  obtain ⟨hvalue, hsymbols⟩ := hx
  have hleft := run_bind x f s
  have hright := run_bind y g s'
  generalize x.run.run s = out at hvalue hsymbols hleft
  generalize y.run.run s' = out' at hvalue hsymbols hright
  obtain ⟨a, s₁⟩ := out
  obtain ⟨a', s₁'⟩ := out'
  obtain rfl : a' = a := hvalue
  rcases a' with error | a
  · exact ⟨by rw [hleft, hright], by rw [hleft, hright]; exact hsymbols⟩
  · obtain ⟨hvalue', hsymbols'⟩ := hf a s₁ s₁' hsymbols
    exact ⟨by rw [hleft, hright]; exact hvalue', by rw [hleft, hright]; exact hsymbols'⟩

/-- Two resolutions may depend on what they find in their states. -/
theorem get_bind {f g : Symbols → Resolution β} (h : Alike v s s' (f s) (g s')) :
    Alike v s s' (MonadState.get >>= f) (MonadState.get >>= g) := by
  refine ⟨?_, ?_⟩
  · rw [run_get_bind, run_get_bind]
    exact h.value
  · rw [run_get_bind, run_get_bind]
    exact h.symbols

/-- An instance is requested in both states, with the same outcome. -/
theorem instantiate (h : s.Alike v s') (template : Fingerprint) (args : List Fingerprint)
    (span : Span) :
    Alike v s s' (Resolution.instantiate template args span)
      (Resolution.instantiate template args span) :=
  ⟨(h.instantiate template args span).1, (h.instantiate template args span).2⟩

end Resolution.Alike

/-! ### Written types -/

mutual

/-- A written type is resolved to the same type, or refused in the same words. -/
theorem TypeExpr.alike_resolve : (t : TypeExpr) → ∀ {s s' : Symbols}, s.Alike v s' →
    Resolution.Alike v s s' t.resolve t.resolve
  | .apply name args span, s, s', h => by
    rw [TypeExpr.resolve]
    refine .get_bind ?_
    rcases h.registry.cases_typeNamed? name.name with heq | ⟨c, c', hc, hc', hsee⟩
    · rw [heq]
      rcases s.registry.typeNamed? name.name with _ | p | c | t
      · exact .throw h _
      · dsimp only
        split
        · exact .pure h _
        · exact .throw h _
      · dsimp only
        split
        · exact .pure h _
        · exact .throw h _
      · dsimp only
        split
        · exact .throw h _
        · exact .bind (alike_resolveTypes args h) fun ids _ _ h₁ ↦ .instantiate h₁ _ ids span
    · rw [hc, hc']
      have hid : (TypeEntry.object c').id = (TypeEntry.object c).id := ClassView.id_eq hsee
      dsimp only
      rw [hid]
      split
      · exact .pure h _
      · exact .throw h _
termination_by structural t => t

theorem alike_resolveTypes : (ts : List TypeExpr) → ∀ {s s' : Symbols}, s.Alike v s' →
    Resolution.Alike v s s' (resolveTypes ts) (resolveTypes ts)
  | [], _, _, h => .pure h []
  | t :: ts, s, s', h => by
    rw [resolveTypes]
    exact .bind (t.alike_resolve h) fun id _ _ h₁ ↦
      .bind (alike_resolveTypes ts h₁) fun ids _ _ h₂ ↦ .pure h₂ (id :: ids)
termination_by structural ts => ts

end

/-! ### Signatures -/

namespace FunctionDecl

variable {s s' : Symbols}

theorem alike_types (d : FunctionDecl) (h : s.Alike v s') :
    Resolution.Alike v s s' d.types d.types := by
  refine .bind (alike_resolveTypes _ h) fun types s₁ s₁' h₁ ↦ ?_
  cases d.returns with
  | none => exact .pure h₁ _
  | some type => exact .bind (type.alike_resolve h₁) fun returns _ _ h₂ ↦ .pure h₂ (types, returns)

/-- A signature is registered in both registries, or in none. -/
theorem alike_signature (d : FunctionDecl) (h : s.Alike v s') :
    Resolution.Alike v s s' d.signature d.signature := by
  rw [d.signature_eq]
  refine .bind (d.alike_types h) fun p s₁ s₁' h₁ ↦ ?_
  rcases h₁.registry.registerFunction (d.callable p.1 p.2) with
    ⟨error, herror, herror'⟩ | ⟨r, r', hr, hr', halike⟩
  · constructor <;> rw [run_register, run_register, herror, herror']
    exact h₁
  · constructor <;> rw [run_register, run_register, hr, hr']
    exact ⟨halike, h₁.instances⟩

end FunctionDecl

/-- The same signatures are registered in both states, and the others fail for the same reasons. -/
theorem alike_declareFunctions (script : Script) {s s' : Symbols} (h : s.Alike v s') :
    (declareFunctions script s').1 = (declareFunctions script s).1 ∧
      (declareFunctions script s).2.Alike v (declareFunctions script s').2 := by
  induction script generalizing s s' with
  | nil => exact ⟨rfl, h⟩
  | cons d ds ih =>
    obtain ⟨hvalue, hsymbols⟩ := d.alike_signature h
    rw [declareFunctions, declareFunctions]
    generalize d.signature.run.run s = out at hvalue hsymbols
    generalize d.signature.run.run s' = out' at hvalue hsymbols
    obtain ⟨f, s₁⟩ := out
    obtain ⟨f', s₁'⟩ := out'
    obtain rfl : f' = f := hvalue
    obtain ⟨hrest, hend⟩ := ih hsymbols
    rcases f' with error | f
    · exact ⟨congrArg (fun q ↦ (q.1, error :: q.2)) hrest, hend⟩
    · exact ⟨congrArg (fun q ↦ ((d, f) :: q.1, q.2)) hrest, hend⟩

end StackLowering

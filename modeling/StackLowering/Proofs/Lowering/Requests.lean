import StackLowering.Proofs.Lowering.Steps
import StackLowering.Proofs.Symbols.Agreement

/-!
# Requests that are written in a script

A written type applies a name to type arguments, and so does a construction (`Expr.applications`).
Going by the registry at the start, this is a request for an instance of a template if the name is that
of a template (`Registry.request?`). Resolving a written type makes these requests and no others, and
agrees in all registries that have grown from the one at the start (`TypeExpr.agree_resolve`).

The point of going by the start is that the requests of a script are then known before anything is
compiled, from the text and the registry alone. An instance that is still to be created has an identity
already (`TypeExpr.identity?`), which is computed from those of the template and the arguments. So the
list of all requests that a script can make is finite and fixed, and it does not matter which function
makes them first.

A name has to be plain for this (`Setting.Writes`). One that looks like the name of an instance means
nothing at the start and something later, and would make the order of functions visible.
-/

namespace StackLowering

/-! ### Applications -/

/-- A name that is applied to type arguments, of which there may be none. -/
structure Application where
  /-- The name. -/
  name : String
  /-- The type arguments. -/
  args : List TypeExpr

mutual

/-- The names that are applied in a written type, each to what it is applied to. -/
def TypeExpr.applications : TypeExpr → List Application
  | .apply name args _ => ⟨name.name, args⟩ :: applicationsOfTypes args
termination_by structural t => t

/-- The names that are applied in a list of written types. -/
def applicationsOfTypes : List TypeExpr → List Application
  | [] => []
  | t :: ts => t.applications ++ applicationsOfTypes ts
termination_by structural ts => ts

end

/-- The names that are applied in the callee of a construction and its type arguments. -/
def applicationsOfNew (callee : Option String) (typeArgs : Option (List TypeExpr)) :
    List Application :=
  (callee.map fun name ↦ ⟨name, typeArgs.getD []⟩).toList ++ applicationsOfTypes (typeArgs.getD [])

mutual

/-- The names that are applied to type arguments in an expression. -/
def Expr.applications : Expr → List Application
  | .literal _ _ => []
  | .var _ _ => []
  | .call _ args _ => applicationsOfList args
  | .construct _ callee typeArgs args _ =>
    applicationsOfNew (callee.bind Expr.ident?) typeArgs ++ applicationsOfArgs args
  | .paren inner _ => inner.applications
termination_by structural e => e

/-- The names that are applied to type arguments in a list of expressions. -/
def applicationsOfList : List Expr → List Application
  | [] => []
  | e :: es => e.applications ++ applicationsOfList es
termination_by structural es => es

/-- The names that are applied to type arguments in the arguments of a construction. -/
def applicationsOfArgs : Option (List Expr) → List Application
  | none => []
  | some es => applicationsOfList es
termination_by structural es => es

end

/-- The names that are applied to type arguments in a statement. -/
def Stmt.applications : Stmt → List Application
  | .expr e _ => e.applications
  | .declare _ none value _ => value.applications
  | .declare _ (some type) value _ => type.applications ++ value.applications
  | .ret (some value) _ => value.applications
  | .ret none _ => []

/-! ### What they stand for -/

mutual

/-- The type that a written type stands for, whether the instance is registered or not. -/
def TypeExpr.identity? (r : Registry) : TypeExpr → Option Fingerprint
  | .apply name args _ =>
    match r.typeNamed? name.name with
    | none => none
    | some (.template t) => (identities? r args).map (Fingerprint.ofInstance t.id)
    | some entry => some entry.id
termination_by structural t => t

/-- The types that a list of written types stands for. -/
def identities? (r : Registry) : List TypeExpr → Option (List Fingerprint)
  | [] => some []
  | t :: ts => (t.identity? r).bind fun id ↦ (identities? r ts).map (id :: ·)
termination_by structural ts => ts

end

/-- The request that a name stands for that is applied to type arguments, if it is that of a
template. -/
def Registry.request? (r : Registry) (a : Application) : Option Request :=
  match r.typeNamed? a.name with
  | some (.template t) => (identities? r a.args).map (Request.mk t)
  | _ => none

/-- A name that is applied is plain, and a request that it stands for is one of the script. -/
structure Setting.Writes (W : Setting) (a : Application) : Prop where
  plain : PlainName a.name
  mem : ∀ q, W.base.request? a = some q → q ∈ W.requests

/-! ### Resolutions that agree -/

/-- Two resolutions, each from its own state, have the same value and go on in step. -/
structure Resolution.Agree {α : Type} (W : Setting) (s t : Symbols) (x y : Resolution α)
    (post : α → Registry → Prop) : Prop where
  value : (y.run.run t).1 = (x.run.run s).1
  step : W.InStep s t (x.run.run s).2 (y.run.run t).2
  post : ∀ a, (x.run.run s).1 = .ok a → post a (x.run.run s).2.registry

namespace Resolution.Agree

variable {α β : Type} {W : Setting} {s t : Symbols} {x y : Resolution α}
  {post : α → Registry → Prop}

theorem pure (h : W.Below s t) {a : α} (ha : post a s.registry) :
    Agree W s t (pure a) (pure a) post :=
  ⟨rfl, .refl h, fun _ heq ↦ Except.ok.inj heq ▸ ha⟩

theorem throw (h : W.Below s t) (error : CompileError) :
    Agree W s t (throw error) (throw error) post :=
  ⟨rfl, .refl h, fun _ heq ↦ nomatch heq⟩

/-- The second resolutions start where the first ones have got to, which know the same. -/
theorem bind {f g : α → Resolution β} {mid : α → Registry → Prop} {post : β → Registry → Prop}
    (hx : Agree W s t x y mid)
    (hf : ∀ a s₁ t₁, W.InStep s t s₁ t₁ → mid a s₁.registry → Agree W s₁ t₁ (f a) (g a) post) :
    Agree W s t (x >>= f) (y >>= g) post := by
  obtain ⟨hvalue, hstep, hmid⟩ := hx
  rcases hrun : x.run.run s with ⟨v, s₁⟩
  rcases hrun' : y.run.run t with ⟨v', t₁⟩
  rw [hrun, hrun'] at hvalue hstep
  obtain rfl : v' = v := hvalue
  have hleft := run_bind x f s
  have hright := run_bind y g t
  rw [hrun] at hleft
  rw [hrun'] at hright
  cases v' with
  | error error =>
    refine ⟨by rw [hleft, hright], by rw [hleft, hright]; exact hstep, fun b hb ↦ ?_⟩
    rw [hleft] at hb
    exact nomatch hb
  | ok a =>
    rw [hrun] at hmid
    obtain ⟨hvalue', hstep', hpost⟩ := hf a s₁ t₁ hstep (hmid a rfl)
    refine ⟨by rw [hleft, hright]; exact hvalue', by rw [hleft, hright]; exact hstep.trans hstep',
      fun b hb ↦ ?_⟩
    rw [hleft] at hb ⊢
    exact hpost b hb

/-- Two resolutions may depend on what they find in their states. -/
theorem get_bind {f g : Symbols → Resolution β} {post : β → Registry → Prop}
    (h : Agree W s t (f s) (g t) post) :
    Agree W s t (MonadState.get >>= f) (MonadState.get >>= g) post := by
  obtain ⟨hvalue, hstep, hpost⟩ := h
  constructor
  · rw [run_get_bind, run_get_bind]
    exact hvalue
  · rw [run_get_bind, run_get_bind]
    exact hstep
  · rw [run_get_bind]
    exact hpost

/-- A request of the script is answered with the instance. -/
theorem instantiate (h : W.Below s t) (hW : W.Sound) {q : Request} (hq : q ∈ W.requests)
    (hargs : ∀ arg ∈ q.args, (s.registry.type? arg).isSome) (span : Span) :
    Agree W s t (Resolution.instantiate q.template.id q.args span)
      (Resolution.instantiate q.template.id q.args span)
      fun id r ↦ id = q.id ∧ (r.type? id).isSome := by
  have hserved := h.lower.served hW hq hargs span
  have hserved' := h.upper.served hW hq
    (fun arg harg ↦ h.extend.type?_isSome (hargs arg harg)) span
  obtain ⟨hvalue, hstep⟩ := h.served hW hq hargs hserved hserved'
  exact ⟨hvalue, hstep, fun id hid ↦ hserved.isSome_type? hid⟩

end Resolution.Agree

/-! ### Written types -/

variable {W : Setting}

mutual

/-- A written type is resolved in the same way in both states, to the type that it stands for at the
start. -/
theorem TypeExpr.agree_resolve (hW : W.Sound) : (w : TypeExpr) →
    (∀ a ∈ w.applications, W.Writes a) → ∀ {s t : Symbols}, W.Below s t →
      w.resolve.Agree W s t w.resolve fun id r ↦
        (r.type? id).isSome ∧ w.identity? W.base = some id
  | .apply name args span, hwrites, s, t, h => by
    have hname := hwrites _ List.mem_cons_self
    have hrest : ∀ a ∈ applicationsOfTypes args, W.Writes a :=
      fun a ha ↦ hwrites a (List.mem_cons_of_mem _ ha)
    have hidentity : (TypeExpr.apply name args span).identity? W.base =
        match W.base.typeNamed? name.name with
        | none => none
        | some (.template t) => (identities? W.base args).map (Fingerprint.ofInstance t.id)
        | some entry => some entry.id := rfl
    have hreg {e : TypeEntry} (he : s.registry.typeNamed? name.name = some e) :
        (s.registry.type? e.id).isSome :=
      Option.isSome_of_mem (h.lower.grown.indexed.typeNamed?_eq_some_iff.1 he).1
    rw [TypeExpr.resolve, hidentity]
    refine .get_bind ?_
    -- the name stands for the same type in both states, but for its layout
    rcases h.typeNamed?_eq hW hname.plain with ⟨-, hs, ht⟩ | ⟨e₀, e, e', hbase, hs, ht, hb, hb'⟩
    · rw [hs, ht]
      exact .throw h _
    · rw [hs, ht, hbase]
      cases e₀ with
      | template template =>
        cases hb
        cases hb'
        dsimp only
        split
        · exact .throw h _
        · refine .bind (agree_resolveTypes hW args hrest h) fun ids s₁ t₁ hstep hids ↦ ?_
          have hmem : (⟨template, ids⟩ : Request) ∈ W.requests :=
            hname.mem _ (by simp only [Registry.request?, hbase, hids.2, Option.map_some])
          have hagree := Resolution.Agree.instantiate hstep.below hW hmem hids.1 span
          refine ⟨hagree.value, hagree.step, fun id hid ↦ ?_⟩
          obtain ⟨rfl, hid⟩ := hagree.post id hid
          exact ⟨hid, by rw [hids.2]; rfl⟩
      | primitive p =>
        cases hb
        cases hb'
        dsimp only
        split
        · exact .pure h ⟨hreg hs, rfl⟩
        · exact .throw h _
      | object c =>
        obtain ⟨c₁, rfl, hid⟩ := hb.exists_object
        obtain ⟨c₂, rfl, hid'⟩ := hb'.exists_object
        dsimp only [TypeEntry.id]
        rw [hid, hid']
        split
        · exact .pure h ⟨hid ▸ hreg hs, rfl⟩
        · exact .throw h _
termination_by structural w => w

/-- Written types are resolved in the same way in both states. -/
theorem agree_resolveTypes (hW : W.Sound) : (ws : List TypeExpr) →
    (∀ a ∈ applicationsOfTypes ws, W.Writes a) → ∀ {s t : Symbols}, W.Below s t →
      (resolveTypes ws).Agree W s t (resolveTypes ws) fun ids r ↦
        (∀ id ∈ ids, (r.type? id).isSome) ∧ identities? W.base ws = some ids
  | [], _, _, _, h => .pure h ⟨by simp, rfl⟩
  | w :: ws, hwrites, s, t, h => by
    have hfirst := w.agree_resolve hW (fun a ha ↦ hwrites a (List.mem_append_left _ ha)) h
    rw [resolveTypes, identities?]
    refine .bind hfirst fun id s₁ t₁ hstep hid ↦ ?_
    refine .bind (agree_resolveTypes hW ws (fun a ha ↦ hwrites a (List.mem_append_right _ ha))
      hstep.below) fun ids s₂ t₂ hstep' hids ↦ ?_
    refine .pure hstep'.below ⟨fun id' hid' ↦ ?_, by rw [hid.2, hids.2]; rfl⟩
    rcases List.mem_cons.1 hid' with rfl | hid'
    · exact hstep'.extend.type?_isSome hid.1
    · exact hids.1 id' hid'
termination_by structural ws => ws

end

end StackLowering

import Mathlib.Data.List.Forall2
import StackLowering.Lowering.Compilation
import StackLowering.Proofs.Lowering.Trace

/-!
# Compilation takes nothing away

The symbols only grow while a script is compiled: while its signatures are registered, and while its
functions are lowered one after the other.

Compilation has two passes, and this module takes them apart. The first one resolves the types of each
signature and registers its function (`FunctionDecl.signature_eq`, `FunctionDecl.signature_cases`); a
signature that fails leaves behind what its types have created. The second one lowers the bodies of
those functions that were registered. What both do to the symbols is a row of changes
(`Symbols.Changes`): the steps of lowering, and registrations of functions. So a property that each
change keeps is kept by a compilation (`Script.changes_compile`).

`Symbols.Grows` puts two facts about such a row together, since each needs the other: a registry that a
host can build stays one, and then nothing is taken away.

`mem_declareFunctions` and `map_fst_declareFunctions` say which declarations the second pass is about.
Statements about the functions of a script are made over that list, since it fixes their types.
-/

namespace StackLowering

open Relation

/-- What corresponds to the elements of a list belongs to one of them. -/
theorem exists_mem_of_forall₂ {α β : Type} {R : α → β → Prop} {as : List α} {bs : List β}
    (h : List.Forall₂ R as bs) {b : β} (hb : b ∈ bs) : ∃ a ∈ as, R a b := by
  induction h with
  | nil => simp at hb
  | cons hr _ ih =>
    rcases List.mem_cons.1 hb with rfl | hb
    · exact ⟨_, List.mem_cons_self, hr⟩
    · obtain ⟨a, ha, hr⟩ := ih hb
      exact ⟨a, List.mem_cons_of_mem _ ha, hr⟩

/-- What corresponds to what the elements of a list correspond to, corresponds to them. -/
theorem forall₂_comp {α β γ : Type} {R : α → β → Prop} {S : β → γ → Prop} {T : α → γ → Prop}
    {as : List α} {bs : List β} {cs : List γ} (h : List.Forall₂ R as bs) (h' : List.Forall₂ S bs cs)
    (hT : ∀ a ∈ as, ∀ b ∈ bs, ∀ c, R a b → S b c → T a c) : List.Forall₂ T as cs := by
  induction h generalizing cs with
  | nil =>
    obtain rfl := List.forall₂_nil_left_iff.1 h'
    exact .nil
  | cons hr _ ih =>
    obtain ⟨c, cs, hs, hrest, rfl⟩ := List.forall₂_cons_left_iff.1 h'
    refine .cons (hT _ List.mem_cons_self _ List.mem_cons_self c hr hs) (ih hrest fun a ha b hb ↦ ?_)
    exact hT a (List.mem_cons_of_mem _ ha) b (List.mem_cons_of_mem _ hb)

/-! ### Signatures -/

namespace FunctionDecl

/-- The types of the parameters and of the result. -/
def types (d : FunctionDecl) : Resolution (List Fingerprint × Fingerprint) := do
  let types ← resolveTypes (d.params.map (·.type))
  let returns ←
    match d.returns with
    | some type => type.resolve
    | none => pure voidType
  return (types, returns)

/-- The function with parameters and a result of the given types. -/
def callable (d : FunctionDecl) (types : List Fingerprint) (returns : Fingerprint) : Callable :=
  .function d.name.name ((d.params.zip types).map fun (p, type) ↦ { name := p.name.name, type }) returns

/-- Registers a function in the place of its declaration. -/
def register (d : FunctionDecl) (f : Callable) : Resolution Callable := do
  let s ← get
  match s.registry.registerFunction f with
  | .error error => throw (.registration error d.name.span)
  | .ok registry =>
    set { s with registry }
    return f

/-- A function is registered, or its declaration is reported and nothing changes. -/
theorem run_register (d : FunctionDecl) (f : Callable) (s : Symbols) :
    (d.register f).run.run s =
      match s.registry.registerFunction f with
      | .error error => (.error (.registration error d.name.span), s)
      | .ok registry => (.ok f, { s with registry }) := by
  rw [register, Resolution.run_bind, show (get : Resolution Symbols).run.run s = (.ok s, s) from rfl]
  dsimp only
  cases s.registry.registerFunction f <;> rfl

/-- A signature is registered after its types were resolved. -/
theorem signature_eq (d : FunctionDecl) :
    d.signature = d.types >>= fun p ↦ d.register (d.callable p.1 p.2) := by
  unfold signature types
  cases d.returns with
  | none =>
    simp only [pure_bind, bind_assoc]
    rfl
  | some type =>
    simp only [pure_bind, bind_assoc]
    rfl

/-- A signature fails before anything is registered, or it registers the function of its types. -/
theorem signature_cases (d : FunctionDecl) (s : Symbols) :
    (∃ error, d.signature.run.run s = (.error error, (d.types.run.run s).2)) ∨
      ∃ types r, (d.types.run.run s).1 = .ok types ∧
        (d.types.run.run s).2.registry.registerFunction (d.callable types.1 types.2) = .ok r ∧
        d.signature.run.run s =
          (.ok (d.callable types.1 types.2), { (d.types.run.run s).2 with registry := r }) := by
  rw [signature_eq, Resolution.run_bind]
  rcases d.types.run.run s with ⟨error | types, s₁⟩
  · exact .inl ⟨error, rfl⟩
  · dsimp only
    rw [run_register]
    cases h : s₁.registry.registerFunction (d.callable types.1 types.2) with
    | error error => exact .inl ⟨_, rfl⟩
    | ok r => exact .inr ⟨types, r, rfl, h, rfl⟩

/-- What a signature registers is the function of its declaration: parameters and result have the types
that were resolved in the same run. -/
theorem signature_eq_ok {d : FunctionDecl} {s : Symbols} {f : Callable}
    (h : (d.signature.run.run s).1 = .ok f) :
    ∃ types returns, (d.types.run.run s).1 = .ok (types, returns) ∧ f = d.callable types returns := by
  rcases d.signature_cases s with ⟨error, hrun⟩ | ⟨⟨types, returns⟩, r, htypes, -, hrun⟩
  · simp [hrun] at h
  · rw [hrun] at h
    exact ⟨types, returns, htypes, (Except.ok.inj h).symm⟩

/-- The parameters of a function have the names of those of its declaration. -/
theorem name_mem_params {d : FunctionDecl} {types : List Fingerprint} {returns : Fingerprint}
    {p : Param} (h : p ∈ (d.callable types returns).params) : ∃ q ∈ d.params, q.name.name = p.name := by
  obtain ⟨⟨q, type⟩, hmem, rfl⟩ := List.mem_map.1 h
  exact ⟨q, (List.of_mem_zip hmem).1, rfl⟩

end FunctionDecl

/-! ### Changes -/

/-- What compilation may do to the registered symbols: what lowering may do, and registering a
function. -/
inductive Symbols.Change : Symbols → Symbols → Prop
  | step {s s' : Symbols} (h : s.Step s') : Change s s'
  | registerFunction {s : Symbols} {f : Callable} {r : Registry}
      (h : s.registry.registerFunction f = .ok r) : Change s { s with registry := r }

/-- Some changes in a row. -/
abbrev Symbols.Changes : Symbols → Symbols → Prop := ReflTransGen Symbols.Change

/-- What lowering does is something that compilation may do. -/
theorem Symbols.Changes.of_steps {s s' : Symbols} (h : s.Steps s') : s.Changes s' :=
  ReflTransGen.mono (fun _ _ ↦ .step) _ _ h

namespace FunctionDecl

/-- To resolve the types of a signature is to make steps. -/
theorem changes_types (d : FunctionDecl) (s : Symbols) : s.Changes (d.types.run.run s).2 := by
  refine .of_steps (Resolution.Steps.bind (steps_resolveTypes _) (fun types ↦ ?_) s)
  cases d.returns with
  | none => exact .pure _
  | some type => exact .bind type.steps_resolve fun _ ↦ .pure _

/-- A signature makes steps, and then registers its function if it can. -/
theorem changes_signature (d : FunctionDecl) (s : Symbols) :
    s.Changes (d.signature.run.run s).2 := by
  rcases d.signature_cases s with ⟨error, hrun⟩ | ⟨types, r, -, hr, hrun⟩
  · rw [hrun]
    exact d.changes_types s
  · rw [hrun]
    exact (d.changes_types s).tail (.registerFunction hr)

end FunctionDecl

/-- The signature of the first function is registered before those of the others. -/
theorem snd_declareFunctions_cons (d : FunctionDecl) (ds : List FunctionDecl) (s : Symbols) :
    (declareFunctions (d :: ds) s).2 = (declareFunctions ds (d.signature.run.run s).2).2 := by
  rw [declareFunctions]
  generalize d.signature.run.run s = out
  rcases out with ⟨_ | f, s₁⟩ <;> rfl

/-- So do signatures one after the other, those that fail included. -/
theorem changes_declareFunctions (script : Script) (s : Symbols) :
    s.Changes (declareFunctions script s).2 := by
  induction script generalizing s with
  | nil => exact .refl
  | cons d ds ih =>
    rw [snd_declareFunctions_cons]
    exact (d.changes_signature s).trans (ih _)

theorem Callable.changes_lower (options : CompilerOptions) (f : Callable) (body : List Stmt)
    (span : Span) (s : LoweringState) :
    s.symbols.Changes (f.lower options body span s).2.symbols :=
  -- a body starts with the symbols that it finds
  .of_steps (LoweringState.Steps.symbols (s := bodyStart s) (f.steps_lower options body span s))

/-- Functions are lowered by steps, one after the other. -/
theorem changes_lowerFunctions (options : CompilerOptions) (fs : List (FunctionDecl × Callable))
    (s : LoweringState) : s.symbols.Changes (lowerFunctions options fs s).2.symbols := by
  induction fs generalizing s with
  | nil => exact .refl
  | cons q fs ih => exact (q.2.changes_lower options q.1.body q.1.span s).trans (ih _)

/-- Compilation changes the symbols while the signatures are registered, and while the functions are
lowered. -/
theorem Script.changes_compile (options : CompilerOptions) (registry : Registry) (script : Script) :
    Symbols.Changes { registry } (lowerFunctions options (declareFunctions script { registry }).1.1
      { symbols := (declareFunctions script { registry }).2 }).2.symbols :=
  (changes_declareFunctions script { registry }).trans
    (changes_lowerFunctions options _ { symbols := (declareFunctions script { registry }).2 })

/-! ### Growth -/

/-- From a registry that a host can build, compilation leads to such a registry again, and takes
nothing away on the way. -/
structure Symbols.Grows (s s' : Symbols) : Prop where
  built : s.registry.Built → s'.registry.Built
  extend : s.registry.Built → s.Extends s'

namespace Symbols.Grows

variable {s s' s'' : Symbols}

theorem refl (s : Symbols) : s.Grows s :=
  ⟨id, fun _ ↦ .refl s⟩

/-- Growth in two stages is growth. The second stage starts from a registry that a host can build
because the first one does. -/
theorem trans (h : s.Grows s') (h' : s'.Grows s'') : s.Grows s'' :=
  ⟨fun hs ↦ h'.built (h.built hs), fun hs ↦ (h.extend hs).trans (h'.extend (h.built hs))⟩

/-- Every change is growth. -/
theorem of_change (h : s.Change s') : s.Grows s' := by
  rcases h with h | h
  · exact ⟨h.built, h.extends⟩
  · exact ⟨fun hs ↦ hs.step (.registerFunction h),
      fun _ ↦ ⟨.of_registerFunction h, fun hfind ↦ hfind⟩⟩

/-- Changes in a row are growth. -/
theorem of_changes (h : s.Changes s') : s.Grows s' := by
  induction h with
  | refl => exact .refl s
  | tail _ hchange ih => exact ih.trans (of_change hchange)

theorem lower (options : CompilerOptions) (f : Callable) (body : List Stmt) (span : Span)
    (s : LoweringState) : s.symbols.Grows (f.lower options body span s).2.symbols :=
  of_changes (f.changes_lower options body span s)

end Symbols.Grows

/-- A declared function is that of the first declaration, if its signature succeeds, or that of a later
one. -/
theorem mem_declareFunctions_cons {d : FunctionDecl} {ds : List FunctionDecl} {s : Symbols}
    {q : FunctionDecl × Callable} (h : q ∈ (declareFunctions (d :: ds) s).1.1) :
    (q.1 = d ∧ (d.signature.run.run s).1 = .ok q.2) ∨
      q ∈ (declareFunctions ds (d.signature.run.run s).2).1.1 := by
  rw [declareFunctions] at h
  generalize d.signature.run.run s = out at h ⊢
  rcases out with ⟨error | f, s₁⟩
  · exact .inr h
  · rcases List.mem_cons.1 h with rfl | h
    · exact .inl ⟨rfl, rfl⟩
    · exact .inr h

/-- Every declared function has the name and the parameters of a declaration. Which types it has is
settled by the symbols at its turn, so a statement about them is made over `declareFunctions`. -/
theorem mem_declareFunctions {script : Script} {s : Symbols} {q : FunctionDecl × Callable}
    (h : q ∈ (declareFunctions script s).1.1) :
    q.1 ∈ script ∧ ∃ types returns, q.2 = q.1.callable types returns := by
  induction script generalizing s with
  | nil => simp [declareFunctions] at h
  | cons d ds ih =>
    rcases mem_declareFunctions_cons h with ⟨rfl, hok⟩ | h
    · obtain ⟨types, returns, -, hcallable⟩ := FunctionDecl.signature_eq_ok hok
      exact ⟨List.mem_cons_self, types, returns, hcallable⟩
    · exact ⟨List.mem_cons_of_mem d (ih h).1, (ih h).2⟩

/-- If no signature fails, every function of the script is declared. -/
theorem map_fst_declareFunctions {script : Script} {s : Symbols}
    (h : (declareFunctions script s).1.2 = []) :
    (declareFunctions script s).1.1.map Prod.fst = script := by
  induction script generalizing s with
  | nil => rfl
  | cons d ds ih =>
    rw [declareFunctions] at h ⊢
    generalize d.signature.run.run s = out at h ⊢
    rcases out with ⟨error | f, s₁⟩
    · cases h
    · exact congrArg (d :: ·) (ih h)

/-- The symbols grow while signatures are registered. -/
theorem Symbols.Grows.declareFunctions (script : Script) (s : Symbols) :
    s.Grows (StackLowering.declareFunctions script s).2 :=
  of_changes (changes_declareFunctions script s)

/-- The symbols grow while functions are lowered. -/
theorem Symbols.Grows.lowerFunctions (options : CompilerOptions)
    (fs : List (FunctionDecl × Callable)) (s : LoweringState) :
    s.symbols.Grows (StackLowering.lowerFunctions options fs s).2.symbols :=
  of_changes (changes_lowerFunctions options fs s)

end StackLowering

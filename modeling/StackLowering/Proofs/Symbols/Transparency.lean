import StackLowering.Proofs.Symbols.Instances
import StackLowering.Proofs.Symbols.Operations

/-!
# What remembering instances changes

Nothing that can be seen. A remembered instance is taken without any question, but in every history of
requests and host operations it is the instance that the registry holds under the identity of the
request (`Symbols.Faithful`). So a request is answered as it would be if nothing were remembered, and
it leaves the same registry behind. What was answered once is answered in the same way forever, with or
without the memory, and no longer changes the registry (`Symbols.instantiate_performAll`).

A host may even enter the primitive types again, over whatever is there: this takes no type away and
leaves every type under its own identity, and more is not needed here.

The memory is looked at before anything else, and before the number of the arguments is compared with
that of the parameters. It could therefore answer requests that would otherwise be refused, if it
remembered something under the wrong arguments. That it does not is what has to be shown of a history:
an instance is only remembered after it was registered, under the arguments from which its identity was
computed.
-/

namespace StackLowering

/-- What may happen to the symbols of a program. -/
inductive SymbolsOperation where
  /-- The host changes the registry. -/
  | host (operation : HostOperation)
  /-- An instance of a template is requested. -/
  | request (template : Fingerprint) (args : List Fingerprint) (span : Span)
deriving DecidableEq, Repr

/-! ### The registry -/

namespace Registry

variable {r : Registry}

/-- What the entering of a primitive type keeps is kept when all of them are entered. -/
theorem putPrimitives_induction {P : Registry → Prop}
    (hput : ∀ (r : Registry) (p : Primitive), P r → P (r.putType (.primitive p))) (h : P r) :
    P r.putPrimitives := by
  unfold putPrimitives
  generalize Primitive.all = primitives
  induction primitives generalizing r with
  | nil => exact h
  | cons p primitives ih => exact ih (hput r p h)

/-- What the entering of a type and the steps of a host keep, every operation keeps. -/
theorem perform_induction {P : Registry → Prop}
    (hput : ∀ (r : Registry) (e : TypeEntry), P r → P (r.putType e))
    (hstep : ∀ {r r' : Registry}, P r → r.Step r' → P r') (h : P r) (operation : HostOperation) :
    P (r.perform operation) := by
  by_cases heq : operation = .registerPrimitives
  · rw [heq]
    exact putPrimitives_induction (fun r p ↦ hput r (.primitive p)) h
  · rcases r.perform_eq_or_step heq with hsame | hs
    · rwa [hsame]
    · exact hstep h hs

/-- No operation of a host puts a type under the identity of another one, not even the registration of
all primitive types. -/
theorem Keyed.perform (h : r.Keyed) (operation : HostOperation) : (r.perform operation).Keyed :=
  perform_induction (fun _ e hr ↦ hr.putType e) .step h operation

/-- No operation takes a type away, not even one that enters another type in its place. -/
theorem type?_isSome_perform {id : Fingerprint} (h : (r.type? id).isSome)
    (operation : HostOperation) : ((r.perform operation).type? id).isSome := by
  refine perform_induction (fun r e hr ↦ ?_) (fun hr hs ↦ hs.type?_isSome hr) h operation
  rw [type?, types_putType]
  split
  · rfl
  · exact hr

end Registry

/-! ### Histories -/

namespace Symbols

variable {s : Symbols}

/-- The symbols after something happened. -/
def perform (s : Symbols) : SymbolsOperation → Symbols
  | .host operation => { s with registry := s.registry.perform operation }
  | .request template args span => (s.instantiate template args span).2

/-- The symbols after some operations in a row. -/
def performAll (s : Symbols) (operations : List SymbolsOperation) : Symbols :=
  operations.foldl perform s

/-- The same registry, with no instance remembered: what a new compilation starts with. -/
def forget (s : Symbols) : Symbols := { registry := s.registry }

/-- The remembered instances can be relied on: every type lies under its own identity, and what is
remembered is registered. -/
structure Reliable (s : Symbols) : Prop where
  keyed : s.registry.Keyed
  faithful : s.Faithful

namespace Reliable

/-- Where nothing is remembered, nothing is wrong. -/
theorem forget {r : Registry} (h : r.Keyed) : ({ registry := r } : Symbols).Reliable :=
  ⟨h, by simp [InstanceCache.find?_empty], by simp [InstanceCache.find?_empty]⟩

/-- One operation or request keeps the memory reliable. -/
theorem perform (h : s.Reliable) (operation : SymbolsOperation) :
    (s.perform operation).Reliable := by
  cases operation with
  | host operation =>
    exact ⟨h.keyed.perform operation,
      h.faithful.setRegistry fun _ hid ↦ Registry.type?_isSome_perform hid operation⟩
  | request template args span =>
    have hanswer := answer_instantiate s template args span
    exact ⟨hanswer.of_step .step h.keyed, hanswer.faithful h.faithful⟩

/-- Whatever happens, the memory stays reliable. -/
theorem performAll (h : s.Reliable) (operations : List SymbolsOperation) :
    (s.performAll operations).Reliable := by
  induction operations generalizing s with
  | nil => exact h
  | cons operation operations ih => exact ih (h.perform operation)

/-- What is remembered once is remembered from then on. -/
theorem find?_perform (h : s.Reliable) {template id : Fingerprint} {args : List Fingerprint}
    (hfind : s.instances.find? template args = some id) (operation : SymbolsOperation) :
    (s.perform operation).instances.find? template args = some id := by
  cases operation with
  | host operation => exact hfind
  | request template' args' span =>
    exact ((answer_instantiate s template' args' span).extends h.keyed).instances hfind

/-- What was remembered once is never forgotten, and never replaced. -/
theorem find?_performAll (h : s.Reliable) {template id : Fingerprint} {args : List Fingerprint}
    (hfind : s.instances.find? template args = some id) (operations : List SymbolsOperation) :
    (s.performAll operations).instances.find? template args = some id := by
  induction operations generalizing s with
  | nil => exact hfind
  | cons operation operations ih => exact ih (h.perform operation) (h.find?_perform hfind operation)

end Reliable

/-! ### Requests with and without memory -/

/-- Two outcomes of a request that differ at most in what is remembered. -/
def SameAnswer (out out' : Except CompileError Fingerprint × Symbols) : Prop :=
  out.1 = out'.1 ∧ out.2.registry = out'.2.registry

/-- An instance is created in the same way whatever is remembered. -/
theorem createInstance_forget (s : Symbols) (t : TemplateEntry) (args : List Fingerprint)
    (substitution : Substitution) (span : Span) :
    SameAnswer (s.forget.createInstance t args substitution span)
      (s.createInstance t args substitution span) := by
  unfold createInstance forget
  dsimp only
  split
  · exact ⟨rfl, rfl⟩
  · split
    · exact ⟨rfl, rfl⟩
    · split <;> exact ⟨rfl, rfl⟩

/-- A request for what is not remembered does not depend on what else is remembered. -/
theorem instantiate_forget_of_find?_eq_none {template : Fingerprint} {args : List Fingerprint}
    (hfind : s.instances.find? template args = none) (span : Span) :
    SameAnswer (s.forget.instantiate template args span) (s.instantiate template args span) := by
  have hnone : s.forget.instances.find? template args = none := InstanceCache.find?_empty _ _
  unfold instantiate
  rw [hfind, hnone, show s.forget.registry = s.registry from rfl]
  dsimp only
  split
  · exact ⟨rfl, rfl⟩
  · cases s.registry.type? template with
    | none => exact ⟨rfl, rfl⟩
    | some entry =>
      cases entry with
      | primitive p => exact ⟨rfl, rfl⟩
      | object c => exact ⟨rfl, rfl⟩
      | template t =>
        dsimp only
        cases t.substitution args span with
        | error error => exact ⟨rfl, rfl⟩
        | ok substitution => exact createInstance_forget s t args substitution span

/-- A request is answered as if nothing were remembered. -/
theorem Faithful.instantiate_forget (h : s.Faithful) (template : Fingerprint)
    (args : List Fingerprint) (span : Span) :
    SameAnswer (s.forget.instantiate template args span) (s.instantiate template args span) := by
  cases hfind : s.instances.find? template args with
  | none => exact instantiate_forget_of_find?_eq_none hfind span
  | some id =>
    -- the shortcut takes the type that the registry holds anyway
    obtain rfl := h.id_eq hfind
    have hforget : s.forget.instantiate template args span =
        (.ok (.ofInstance template args), s.forget.remember template args _) :=
      instantiate_of_type? (InstanceCache.find?_empty _ _) (h.type?_isSome hfind)
    rw [instantiate_of_find? hfind, hforget]
    exact ⟨rfl, rfl⟩

/-- Whatever happened before, a request is answered as if nothing were remembered, and it leaves the
same registry behind. What was answered once is answered in the same way after whatever happens
later, at once and without a change, and so it is by a new compilation with the same registry. -/
theorem instantiate_performAll (width : Width) (operations : List SymbolsOperation)
    (template : Fingerprint) (args : List Fingerprint) (span : Span) :
    let s := ({ registry := .empty width } : Symbols).performAll operations
    SameAnswer (s.forget.instantiate template args span) (s.instantiate template args span) ∧
      ∀ id, (s.instantiate template args span).1 = .ok id →
        ∀ (later : List SymbolsOperation) (span' : Span),
          let s' := (s.instantiate template args span).2.performAll later
          s'.instantiate template args span' = (.ok id, s') ∧
            SameAnswer (s'.forget.instantiate template args span') (.ok id, s') := by
  intro s
  have hs : s.Reliable := (Reliable.forget (Registry.Indexed.empty width).keyed).performAll operations
  refine ⟨hs.faithful.instantiate_forget template args span, fun id hid later span' ↦ ?_⟩
  intro s'
  have hafter : (s.instantiate template args span).2.Reliable :=
    hs.perform (.request template args span)
  have hs' : s'.Reliable := hafter.performAll later
  have hremembered : (s.instantiate template args span).2.instances.find? template args = some id := by
    obtain ⟨out, hout⟩ : ∃ out, s.instantiate template args span = (.ok id, out) :=
      ⟨_, Prod.ext hid rfl⟩
    have hanswer := answer_instantiate s template args span
    rw [hout] at hanswer ⊢
    exact hanswer.remembers hs.keyed
  have hanswer : s'.instantiate template args span' = (.ok id, s') :=
    instantiate_of_find? (hafter.find?_performAll hremembered later)
  have hforget := hs'.faithful.instantiate_forget template args span'
  rw [hanswer] at hforget
  exact ⟨hanswer, hforget⟩

/-- A template is registered, an instance is requested and laid out, and a request with too many
arguments fails. -/
def boxHistory : List SymbolsOperation :=
  let int := Primitive.int32.fingerprint
  [.host .registerPrimitives, .host (.registerType (.template boxTemplate)),
    .request boxTemplate.id [int] .nowhere,
    .host (.layOutClass (.ofInstance boxTemplate.id [int])),
    .request boxTemplate.id [int, int] .nowhere]

/-- Another instance is created then, and it is still there after the primitive types were entered
again and its class was laid out. -/
theorem instantiate_performAll_box :
    let s := ({ registry := .empty .w32 } : Symbols).performAll boxHistory
    let args := [Primitive.double.fingerprint]
    let id := Fingerprint.ofInstance boxTemplate.id args
    let s' := (s.instantiate boxTemplate.id args .nowhere).2.performAll
      [.host .registerPrimitives, .host (.layOutClass id)]
    (s.instantiate boxTemplate.id args .nowhere).1 = .ok id ∧
      s'.instantiate boxTemplate.id args .nowhere = (.ok id, s') := by
  intro s args id s'
  have hok : (s.instantiate boxTemplate.id args .nowhere).1 = .ok id := by decide +kernel
  exact ⟨hok, ((instantiate_performAll .w32 boxHistory boxTemplate.id args .nowhere).2 id hok
    [.host .registerPrimitives, .host (.layOutClass id)] .nowhere).1⟩

end Symbols

end StackLowering

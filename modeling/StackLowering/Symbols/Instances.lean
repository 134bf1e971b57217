import StackLowering.Symbols.Registry

/-!
# Instances of templates

Requesting a template at some type arguments gives a class. The first request creates the class, its
fields and constructor being those of the template with the parameters replaced, and registers it;
later requests find it in the cache or, through another cache, in the registry. What was registered
before a failure stays registered.

The class is named after the template and its arguments, as the registry shows them
(`Registry.instanceName`), and has the fingerprint of the template folded with those of the arguments.
The fold over no arguments is the fingerprint of the template itself, so that a request without
arguments asks for something that is registered.

The number of arguments is counted after the cache and the registry were asked. A request with a wrong
number is therefore refused only if nothing is found under the identity that it computes. The class is
registered before its constructor. If the constructor is refused then the request fails and the class
stays, and the next request finds it.
-/

namespace StackLowering

/-- The instances that were requested so far, by template and type arguments. -/
structure InstanceCache where
  /-- The instance for each list of a template and its arguments. -/
  table : Std.ExtTreeMap (List Fingerprint) Fingerprint := ∅

namespace InstanceCache

/-- The cache before the first request. -/
def empty : InstanceCache := {}

/-- Remembers the instance of a template at some arguments. -/
def remember (cache : InstanceCache) (template : Fingerprint) (args : List Fingerprint)
    (id : Fingerprint) : InstanceCache :=
  ⟨cache.table.insert (template :: args) id⟩

/-- The remembered instance of a template at some arguments. -/
def find? (cache : InstanceCache) (template : Fingerprint) (args : List Fingerprint) :
    Option Fingerprint :=
  cache.table[template :: args]?

/-- The number of remembered instances. -/
def count (cache : InstanceCache) : Nat := cache.table.size

end InstanceCache

/-- The name of a template applied to type arguments. -/
def Registry.instanceName (r : Registry) (base : String) (args : List Fingerprint) : String :=
  base ++ "<" ++ String.intercalate ", " (args.map r.typeName) ++ ">"

namespace TemplateEntry

/-- What the parameters of a template stand for at some type arguments; there has to be one argument
for each parameter. -/
def substitution (t : TemplateEntry) (args : List Fingerprint) (span : Span) :
    Except CompileError Substitution :=
  if args.length = t.arity then .ok (.bind t.params args)
  else .error (.templateArgumentCount t.name t.arity args.length span)

/-- The constructor of an instance, if the template declares one. -/
def instanceConstructor? (t : TemplateEntry) (name : String) (id : Fingerprint)
    (s : Substitution) : Option Callable :=
  t.constructor?.map fun params ↦ .constructor name id (params.map s.param)

/-- The instance of a template as a class with the given name. -/
def instanceClass (t : TemplateEntry) (name : String) (args : List Fingerprint)
    (s : Substitution) : ClassEntry :=
  let fields := t.fields.map fun (field, type) ↦ ({ name := field, type := s.type type } : Field)
  let constructor? := t.instanceConstructor? name (.ofInstance t.id args) s
  (ClassEntry.named name fields (constructor?.map (·.id))).asInstance t.id args

end TemplateEntry

/-- The registry together with the instances that were requested from it. -/
structure Symbols where
  /-- The registered types and functions. -/
  registry : Registry
  /-- The requested instances. -/
  instances : InstanceCache := .empty

namespace Symbols

/-- Remembers an instance. -/
def remember (s : Symbols) (template : Fingerprint) (args : List Fingerprint)
    (id : Fingerprint) : Symbols :=
  { s with instances := s.instances.remember template args id }

/-- Registers a new instance: first its class, then its constructor. -/
def createInstance (s : Symbols) (t : TemplateEntry) (args : List Fingerprint)
    (substitution : Substitution) (span : Span) : Except CompileError Fingerprint × Symbols :=
  let id := Fingerprint.ofInstance t.id args
  let name := s.registry.instanceName t.name args
  match s.registry.registerType (.object (t.instanceClass name args substitution)) with
  | .error error => (.error (.registration error span), s)
  | .ok registry =>
    match t.instanceConstructor? name id substitution with
    | none => (.ok id, { s with registry }.remember t.id args id)
    | some constructor =>
      match registry.registerFunction constructor with
      | .error error => (.error (.registration error span), { s with registry })
      | .ok registry => (.ok id, { s with registry }.remember t.id args id)

/-- The class for a template at some type arguments. A remembered instance is taken as it is, and a
class that is registered under the identity of the instance is taken for it; else the template has to
exist and to have as many parameters as there are arguments. -/
def instantiate (s : Symbols) (template : Fingerprint) (args : List Fingerprint) (span : Span) :
    Except CompileError Fingerprint × Symbols :=
  let id := Fingerprint.ofInstance template args
  match s.instances.find? template args with
  | some known => (.ok known, s)
  | none =>
    if s.registry.containsType id then
      (.ok id, s.remember template args id)
    else
      match s.registry.type? template with
      | none => (.error (.unknownType template.text span), s)
      | some (.template t) =>
        match t.substitution args span with
        | .error error => (.error error, s)
        | .ok substitution => s.createInstance t args substitution span
      | some entry => (.error (.notATemplate entry.name span), s)

end Symbols

end StackLowering

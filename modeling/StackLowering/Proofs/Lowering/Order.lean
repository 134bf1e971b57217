import StackLowering.Proofs.Lowering.Bodies
import StackLowering.Proofs.Lowering.Capacity
import StackLowering.Proofs.Lowering.Signatures
import StackLowering.Proofs.Machine.Reading

/-!
# The order of functions

The functions of a script share a pool of constants, a cache of instances, and a registry that grows
and in which classes are laid out while bodies are lowered. None of this is visible in what a function
becomes: every order of the functions leads to the same registry, to the same report of each function
and to the same errors of each function (`Script.compile_perm`).

That takes more than plain names and different identities. The registry at the start may not refer to
an instance of a template that the script is about to create: a class with a field of such a type can
be laid out after the instance was created, but not before (`Script.compile_perm_dangling`).

## The three steps of the proof

* The declarations lead to the same registry in every order, although each of them may create instances
  (`Script.declareFunctions_perm`).
* Every function is lowered to what it would be lowered to before all others, so that a permutation of
  the functions is a permutation of what they become (`Script.lowered_perm`). What the bodies add to
  the registry is the least that contains what each of them adds.
* A report refers to constants and not to their places, so that it does not depend on the pool, as long
  as the places fit into 16 bits (`LoweredFunction.report_assemble`).
-/

namespace StackLowering

/-! ### What a host sees of a function -/

/-- What a host sees of a compiled function. -/
structure FunctionReport where
  /-- Its name. -/
  name : String
  /-- Its code as text. -/
  listing : Except DecodeError (List String)
  /-- The line of each instruction. -/
  lines : List UInt32
  /-- The number of its parameters. -/
  paramCount : Nat
  /-- The types of its slots. -/
  locals : Array Fingerprint
deriving DecidableEq

/-- The report of a compiled function, whose code refers to a pool. -/
def CompiledFunction.report (pool : ConstantPool) (f : CompiledFunction) : FunctionReport :=
  { name := f.name
    listing := disassemble pool f.chunk.code
    lines := f.chunk.instructionLines
    paramCount := f.paramCount
    locals := f.locals }

/-- The reports of all functions of a compilation. -/
def Compilation.reports (c : Compilation) : List FunctionReport := c.functions.map (·.report c.pool)

namespace LoweredFunction

/-- The report of a lowered function, whose instructions refer to no pool. -/
def report (g : LoweredFunction) : FunctionReport :=
  { name := g.name
    listing := .ok (g.output.instructions.map Instruction.text)
    lines := g.output.code.map (·.line)
    paramCount := g.paramCount
    locals := g.locals }

/-- In a pool that fits into 16 bits, the report of a function does not depend on the pool. -/
theorem report_assemble (g : LoweredFunction) {pool pool' : ConstantPool}
    (h : (g.assemble pool).2.Extends pool') (hpool' : pool'.Listed) (hsize : pool'.size ≤ 65536) :
    (g.assemble pool).1.report pool' = g.report := by
  have hassembled := g.assembledTo_assemble h
  have hlisting := disassemble_of_decode hpool' hsize (hassembled.mem_entries hpool')
    (hassembled.decode_code hpool')
  have hlines : (g.assemble pool).1.chunk.instructionLines = g.output.code.map (·.line) :=
    Chunk.instructionLines_eq (Assembler.bytes_pushAll (a := .start pool) h)
  rw [CompiledFunction.report, hlisting, hlines]
  rfl

end LoweredFunction

theorem map_report_assembleFunctions (lowered : List LoweredFunction) {pool pool' : ConstantPool}
    (h : (assembleFunctions lowered pool).2.Extends pool') (hpool' : pool'.Listed)
    (hsize : pool'.size ≤ 65536) :
    (assembleFunctions lowered pool).1.map (·.report pool') = lowered.map (·.report) := by
  induction lowered generalizing pool with
  | nil => rfl
  | cons g lowered ih =>
    have hfirst := (extends_assembleFunctions lowered (g.assemble pool).2).trans h
    exact congrArg₂ List.cons (g.report_assemble hfirst hpool' hsize) (ih h)

/-! ### Pools -/

/-- The pool holds what the functions refer to. -/
theorem mem_entries_assembleFunctions (lowered : List LoweredFunction) {pool : ConstantPool}
    (h : pool.Listed) {c : Constant} :
    c ∈ (assembleFunctions lowered pool).2.entries.toList ↔ c ∈ pool.entries.toList ∨
      ∃ g ∈ lowered, ∃ i ∈ g.output.code, i.instruction.constant? = some c := by
  induction lowered generalizing pool with
  | nil => exact ⟨.inl, fun hc ↦ hc.elim id fun ⟨_, hg, _⟩ ↦ nomatch hg⟩
  | cons g lowered ih =>
    have hfirst : c ∈ (g.assemble pool).2.entries.toList ↔ c ∈ pool.entries.toList ∨
        ∃ i ∈ g.output.code, i.instruction.constant? = some c :=
      Assembler.mem_entries_pushAll (a := .start pool) h
    have hlisted : (g.assemble pool).2.Listed :=
      Assembler.listed_pushAll (a := .start pool) g.output.code h
    show c ∈ (assembleFunctions lowered (g.assemble pool).2).2.entries.toList ↔ _
    rw [ih hlisted, hfirst, or_assoc]
    simp

/-- Functions in any order refer to as many constants. -/
theorem size_assembleFunctions_perm {lowered lowered' : List LoweredFunction}
    (h : lowered.Perm lowered') :
    (assembleFunctions lowered' .empty).2.size = (assembleFunctions lowered .empty).2.size := by
  have hnodup (lowered : List LoweredFunction) :
      (assembleFunctions lowered .empty).2.entries.toList.Nodup :=
    (listed_assembleFunctions lowered ConstantPool.listed_empty).nodup
  have hperm : (assembleFunctions lowered' .empty).2.entries.toList.Perm
      (assembleFunctions lowered .empty).2.entries.toList :=
    (List.perm_ext_iff_of_nodup (hnodup _) (hnodup _)).2 fun c ↦ by
      simp only [mem_entries_assembleFunctions _ ConstantPool.listed_empty, h.mem_iff]
  have hlength := hperm.length_eq
  rwa [Array.length_toList, Array.length_toList] at hlength

/-! ### What a script and its registry have to be like -/

/-- The function that a name stands for where it is used. -/
def NameUse.callee? : NameUse → Option String
  | .call name => some name
  | .read _ | .declare _ => none

/-- The names that are applied to type arguments in a function. -/
def FunctionDecl.applications (d : FunctionDecl) : List Application :=
  d.signatureApplications ++ d.body.flatMap Stmt.applications

namespace Script

/-- The requests for instances that a script writes, going by a registry. -/
def requests (registry : Registry) (script : Script) : List Request :=
  (script.flatMap FunctionDecl.applications).filterMap registry.request?

/-- What the compilation of a script starts with. -/
def setting (registry : Registry) (script : Script) : Setting where
  base := registry
  requests := script.requests registry
  functions := (Symbols.signatures { registry } script).map (·.2)

/-- The names of a registry and of a script are plain, but for the symbols of constructors. -/
structure PlainlyNamed (registry : Registry) (script : Script) : Prop where
  types : ∀ {id : Fingerprint} {e : TypeEntry}, registry.types[id]? = some e → PlainName e.name
  functions : ∀ {id : Fingerprint} {f : Callable}, registry.functions[id]? = some f →
    PlainName f.name ∨ ∃ owner, PlainName owner ∧ f.name = Callable.constructorName owner
  declared : ∀ d ∈ script, PlainName d.name.name
  applied : ∀ d ∈ script, ∀ a ∈ d.applications, PlainName a.name
  called : ∀ d ∈ script, ∀ u ∈ d.uses, ∀ name ∈ u.callee?, '#' ∉ name.toList

end Script

namespace Setting

/-- No identities collide: those of different instances that are written, those of new instances and of
primitive types, and those of their constructors and of other functions. -/
structure Distinct (W : Setting) : Prop where
  instances : ∀ q ∈ W.requests, ∀ q' ∈ W.requests, q.id = q'.id → q = q'
  primitives : ∀ q, W.IsNew q → ∀ p : Primitive, q.id ≠ p.fingerprint
  constructors : ∀ {q q' : Request} {k : Fingerprint}, W.IsNew q → W.IsNew q' →
    q.constructorId? = some k → q'.constructorId? = some k → q = q'
  functions : ∀ {q : Request} {k : Fingerprint}, W.IsNew q → q.constructorId? = some k →
    ∀ f ∈ W.functions, f.id ≠ k

/-- The registry at the start refers to no instance that is still to be created, and not to its
constructor: no class that is not laid out does, no template of such an instance, and no function. -/
structure Closed (W : Setting) : Prop where
  fields : ∀ {id : Fingerprint} {c : ClassEntry}, W.base.types[id]? = some (.object c) →
    c.extent? = none → ∀ field ∈ c.fields, W.Settled field.type
  classConstructors : ∀ {id k : Fingerprint} {c : ClassEntry},
    W.base.types[id]? = some (.object c) → c.constructor? = some k →
      ∀ q, W.IsNew q → q.constructorId? ≠ some k
  templateFields : ∀ q, W.IsNew q → ∀ field ∈ q.template.fields, W.Settled field.2
  templateParams : ∀ q, W.IsNew q → ∀ params, q.template.constructor? = some params →
    ∀ p ∈ params, W.Settled p.type
  functions : ∀ {q : Request} {k : Fingerprint}, W.IsNew q → q.constructorId? = some k →
    W.base.functions[k]? = none
  signatures : ∀ {id : Fingerprint} {f : Callable}, W.base.functions[id]? = some f →
    (∀ p ∈ f.params, W.Settled p.type) ∧ W.Settled f.returns

end Setting

namespace Script

variable {options : CompilerOptions} {registry : Registry} {script script' : Script}

/-- There are one report and some errors of each function, and one registry, such that every order of
the functions is compiled to them. -/
def Commutes (options : CompilerOptions) (registry : Registry) (script : Script) : Prop :=
  ∃ (report : FunctionDecl → FunctionReport) (errors : FunctionDecl → List CompileError)
    (final : Registry), ∀ script' : Script, script.Perm script' →
      (script'.compile options registry).reports = script'.map report ∧
      (script'.compile options registry).errors = script'.flatMap errors ∧
      (script'.compile options registry).registry = final

/-! ### What follows from it -/

theorem mem_signatures {base : Symbols} {q : FunctionDecl × Callable}
    (h : q ∈ base.signatures script) : q.1 ∈ script ∧ q.1.callable? base = some q.2 := by
  obtain ⟨d, hd, hq⟩ := List.mem_filterMap.1 h
  obtain ⟨f, hf, rfl⟩ := Option.map_eq_some_iff.1 hq
  exact ⟨hd, hf⟩

/-- The template of a request that is written is registered. -/
theorem templates_setting (hregistry : registry.Indexed) {q : Request}
    (hq : q ∈ script.requests registry) :
    registry.types[q.template.id]? = some (.template q.template) := by
  obtain ⟨a, -, ha⟩ := List.mem_filterMap.1 hq
  unfold Registry.request? at ha
  split at ha
  next t ht =>
    obtain ⟨ids, -, rfl⟩ := Option.map_eq_some_iff.1 ha
    exact (hregistry.typeNamed?_eq_some_iff.1 ht).1
  next => exact nomatch ha

theorem PlainlyNamed.sound (h : script.PlainlyNamed registry) (hregistry : registry.Indexed)
    (hdistinct : (script.setting registry).Distinct) (hclosed : (script.setting registry).Closed) :
    (script.setting registry).Sound where
  indexed := hregistry
  templates _ hq := templates_setting hregistry hq
  ids := hdistinct.instances
  constructorIds := hdistinct.constructors
  constructors hq hk := ⟨hclosed.functions hq hk, hdistinct.functions hq hk⟩
  primitives p q hq := hdistinct.primitives q hq p
  typeNames := h.types
  functionNames := h.functions
  declaredNames f hf := by
    obtain ⟨q, hq, rfl⟩ := List.mem_map.1 hf
    obtain ⟨hd, hcallable⟩ := mem_signatures hq
    obtain ⟨types, -, heq⟩ := FunctionDecl.callable?_eq_some_iff.1 hcallable
    rw [← heq]
    exact h.declared q.1 hd
  fields := hclosed.fields
  classConstructors := hclosed.classConstructors
  templateFields := hclosed.templateFields
  templateParams := hclosed.templateParams
  signatures := hclosed.signatures

theorem PlainlyNamed.writes (h : script.PlainlyNamed registry) {d : FunctionDecl} (hd : d ∈ script)
    {a : Application} (ha : a ∈ d.applications) : (script.setting registry).Writes a :=
  ⟨h.applied d hd a ha, fun _ hq ↦
    List.mem_filterMap.2 ⟨a, List.mem_flatMap.2 ⟨d, hd, ha⟩, hq⟩⟩

theorem PlainlyNamed.known (h : script.PlainlyNamed registry) {d : FunctionDecl} (hd : d ∈ script)
    {stmt : Stmt} (hstmt : stmt ∈ d.body) : stmt.Known (script.setting registry) where
  writes _ ha := h.writes hd (List.mem_append_right _ (List.mem_flatMap.2 ⟨stmt, hstmt, ha⟩))
  calls name hname := ne_constructorName <| h.called d hd _
    (List.mem_append_right _ (List.mem_flatMap.2 ⟨stmt, hstmt, hname⟩)) name rfl

/-! ### Both passes in any order -/

/-- Before the first signature, no function of the script is registered. -/
theorem underway_start (hbuilt : registry.Built) (hW : (script.setting registry).Sound) :
    ((script.setting registry).declaring []).Underway { registry } { registry }
      (script.setting registry).functions := by
  have hgrown : ((script.setting registry).declaring []).Grown registry :=
    .base (hW.declaring (List.nil_subset _))
  have hadmits : ((script.setting registry).declaring []).Admits { registry } :=
    ⟨hgrown, (Symbols.Reachable.start hbuilt).faithful⟩
  exact ⟨⟨hadmits, hadmits, .refl _⟩, fun _ hf ↦ (List.not_mem_nil hf).elim, List.nil_subset _⟩

/-- In any order, the same functions are declared, and the same is added to the registry. -/
theorem declareFunctions_perm (h : script.PlainlyNamed registry) (hbuilt : registry.Built)
    (hW : (script.setting registry).Sound)
    (hsignatures : (declareFunctions script { registry }).1.2 = []) (hperm : script.Perm script') :
    (declareFunctions script' { registry }).1 = (Symbols.signatures { registry } script', []) ∧
      (script.setting registry).Below { registry } (declareFunctions script' { registry }).2 ∧
      (script.setting registry).Declared (declareFunctions script' { registry }).2.registry ∧
      registry.Adds (fun r ↦ ∀ q ∈ Symbols.signatures { registry } script,
          Setting.Demands { registry } q r) (declareFunctions script' { registry }).2.registry := by
  have hstart := underway_start hbuilt hW
  have hwrites {ds : List FunctionDecl} (hds : script.Perm ds) : ∀ d ∈ ds,
      ∀ a ∈ d.signatureApplications, ((script.setting registry).declaring []).Writes a :=
    fun _ hd _ ha ↦ (h.writes (hds.mem_iff.2 hd) (List.mem_append_left _ ha)).declaring
  have hpairs {ds : List FunctionDecl} (hds : script.Perm ds) :
      (Symbols.signatures { registry } script).Perm (Symbols.signatures { registry } ds) :=
    hds.filterMap _
  have hmem {ds : List FunctionDecl} (hds : script.Perm ds) :
      ∀ q ∈ Symbols.signatures { registry } ds, q.2 ∈ (script.setting registry).functions :=
    fun _ hq ↦ List.mem_map_of_mem ((hpairs hds).mem_iff.2 hq)
  have hreg : Symbols.Registrable { registry } registry script :=
    registrable_of_declareFunctions (W := (script.setting registry).declaring []) hW
      (hwrites (.refl _)) (hmem (.refl _)) hstart hsignatures
  obtain ⟨hdeclared, hunderway, hadds⟩ := declareFunctions_eq
    (W := (script.setting registry).declaring []) hW (hwrites hperm) (hmem hperm) hstart
    (hreg.perm hperm)
  have hfinish := hunderway.finish fun f hf ↦ by
    obtain ⟨q, hq, rfl⟩ := List.mem_map.1 hf
    refine List.mem_append_left _ (List.mem_reverse.2 (List.mem_map_of_mem ?_))
    exact (hpairs hperm).mem_iff.1 hq
  exact ⟨hdeclared, hfinish.1, hfinish.2, hadds.congr fun r _ ↦ by simp only [(hpairs hperm).mem_iff]⟩

/-- In any order, every function is lowered to what it is lowered to before all others, and what the
bodies add is what each of them adds there. -/
theorem lowered_perm (h : script.PlainlyNamed registry) (hbuilt : registry.Built)
    (hW : (script.setting registry).Sound)
    (hsignatures : (declareFunctions script { registry }).1.2 = []) (options : CompilerOptions)
    (hperm : script.Perm script') :
    (script'.lowered options registry).1 = (Symbols.signatures { registry } script').map
        (fun q ↦ (lowerFirst options (declareFunctions script { registry }).2 q).1) ∧
      (declareFunctions script { registry }).2.registry.Adds
        (fun r ↦ ∀ q ∈ Symbols.signatures { registry } script,
          (lowerFirst options (declareFunctions script { registry }).2 q).2.symbols.registry.Extends r)
        (script'.compile options registry).registry := by
  obtain ⟨-, hbelow, hdeclared, hadds⟩ := declareFunctions_perm h hbuilt hW hsignatures (.refl script)
  obtain ⟨hfst, hbelow', -, hadds'⟩ := declareFunctions_perm h hbuilt hW hsignatures hperm
  -- both orders get to the same registry before the first body
  have hsame := hadds.unique hadds'
  have hpairs : (Symbols.signatures { registry } script).Perm
      (Symbols.signatures { registry } script') := hperm.filterMap _
  have hfs : ∀ q ∈ Symbols.signatures { registry } script',
      q.2 ∈ (script.setting registry).functions ∧
        ∀ stmt ∈ q.1.body, stmt.Known (script.setting registry) := fun q hq ↦
    have hq' := hpairs.mem_iff.2 hq
    ⟨List.mem_map_of_mem hq', fun _ hstmt ↦ h.known (mem_signatures hq').1 hstmt⟩
  obtain ⟨hvalues, hregistry⟩ := lowerFunctions_eq hW options hdeclared hfs
    (s := { symbols := (declareFunctions script' { registry }).2 })
    ⟨hbelow.upper, hbelow'.upper, hsame ▸ .refl _⟩
  have hlowered : script'.lowered options registry =
      lowerFunctions options (Symbols.signatures { registry } script')
        { symbols := (declareFunctions script' { registry }).2 } := by
    rw [lowered, hfst]
  have hfinal : (script'.compile options registry).registry =
      (script'.lowered options registry).2.symbols.registry := rfl
  rw [hfinal, hlowered, hsame]
  exact ⟨hvalues, hregistry.congr fun r _ ↦ by simp only [hpairs.mem_iff]⟩

/-- What is made of the functions of a script can be told from the declarations. -/
theorem map_signatures {α : Type} {base : Symbols}
    (hfst : (base.signatures script).map Prod.fst = script) (g : FunctionDecl × Callable → α) (a : α) :
    (base.signatures script).map g = script.map fun d ↦ (d.callable? base).elim a fun f ↦ g (d, f) :=
  calc (base.signatures script).map g
      = (base.signatures script).map fun q ↦ (q.1.callable? base).elim a fun f ↦ g (q.1, f) :=
        List.map_congr_left fun q hq ↦ by rw [(mem_signatures hq).2, Option.elim_some]
    _ = ((base.signatures script).map Prod.fst).map fun d ↦
          (d.callable? base).elim a fun f ↦ g (d, f) := by rw [List.map_map]; rfl
    _ = script.map fun d ↦ (d.callable? base).elim a fun f ↦ g (d, f) := by rw [hfst]

/-- The order of the functions of a script does not matter: every order leads to the same registry, to
the same report of each function and to the same errors of each function. -/
theorem compile_perm (options : CompilerOptions) (registry : Registry) (script : Script)
    (hbuilt : registry.Built) (hnames : script.PlainlyNamed registry)
    (hdistinct : (script.setting registry).Distinct) (hclosed : (script.setting registry).Closed)
    (hsignatures : (declareFunctions script { registry }).1.2 = [])
    (hpool : (script.compile options registry).pool.size ≤ 65536) :
    script.Commutes options registry := by
  have hW := hnames.sound hbuilt.indexed hdistinct hclosed
  let lower (d : FunctionDecl) : LoweredFunction :=
    (d.callable? { registry }).elim ⟨"", 0, #[], .empty⟩ fun f ↦
      (lowerFirst options (declareFunctions script { registry }).2 (d, f)).1
  have hcompile {script' : Script} (hperm : script.Perm script') :
      (script'.lowered options registry).1 = script'.map lower := by
    obtain ⟨hdeclared, -⟩ := declareFunctions_perm hnames hbuilt hW hsignatures hperm
    obtain ⟨hlowered, -⟩ := lowered_perm hnames hbuilt hW hsignatures options hperm
    have hfst : (Symbols.signatures { registry } script').map Prod.fst = script' := by
      have hall := map_fst_declareFunctions (congrArg Prod.snd hdeclared)
      rwa [hdeclared] at hall
    rw [hlowered, map_signatures hfst]
  refine ⟨fun d ↦ (lower d).report, fun d ↦ (lower d).output.errors,
    (script.compile options registry).registry, fun script' hperm ↦ ⟨?_, ?_, ?_⟩⟩
  · have hperm' : (script.lowered options registry).1.Perm (script'.lowered options registry).1 := by
      rw [hcompile (.refl script), hcompile hperm]
      exact hperm.map lower
    have hsize : (script'.compile options registry).pool.size ≤ 65536 :=
      (size_assembleFunctions_perm hperm').trans_le hpool
    have hreports := map_report_assembleFunctions (script'.lowered options registry).1
      (.refl (script'.compile options registry).pool) (script'.listed_compile options registry) hsize
    refine hreports.trans ?_
    rw [hcompile hperm, List.map_map]
    rfl
  · obtain ⟨hdeclared, -⟩ := declareFunctions_perm hnames hbuilt hW hsignatures hperm
    rw [errors_compile, hdeclared, hcompile hperm, List.nil_append, List.flatMap_map]
  · exact (lowered_perm hnames hbuilt hW hsignatures options hperm).2.unique
      (lowered_perm hnames hbuilt hW hsignatures options (.refl script)).2

/-! ### A script and two registries -/

/-- A template, and a class that holds one value of the given type. -/
def holderRegistry (type : Fingerprint) : Registry :=
  Symbols.boxRegistry.putType (.object (.named "Holder" [⟨"value", type, none⟩] none))

/-- A function that constructs the class, one that creates an instance of the template, and one that
takes another instance and calls a function. -/
def holderScript : Script :=
  [.plain "hold" [] none [.expr (.plainNew 0 "Holder" [] []) .nowhere],
   .plain "pack" [] none [.expr (.plainNew 1 "Box" [.plain "int" []] [.one]) .nowhere],
   .plain "take" [("box", .plain "Box" [.plain "double" []])] none
    [.expr (.plainCall "pack" []) .nowhere]]

/-- Names that are plain without any constructor can be found out from the entries of the maps. -/
theorem PlainlyNamed.of_toList (htypes : ∀ q ∈ registry.types.toList, PlainName q.2.name)
    (hfunctions : ∀ q ∈ registry.functions.toList, PlainName q.2.name)
    (hdeclared : ∀ d ∈ script, PlainName d.name.name)
    (happlied : ∀ d ∈ script, ∀ a ∈ d.applications, PlainName a.name)
    (hcalled : ∀ d ∈ script, ∀ u ∈ d.uses, ∀ name ∈ u.callee?, '#' ∉ name.toList) :
    script.PlainlyNamed registry :=
  ⟨fun he ↦ forall_getElem? htypes he, fun hf ↦ .inl (forall_getElem? hfunctions hf), hdeclared,
    happlied, hcalled⟩

/-- Whether identities collide can be found out from the requests that are written. -/
theorem distinct_of_requests {W : Setting}
    (hinstances : ∀ q ∈ W.requests, ∀ q' ∈ W.requests, q.id = q'.id → q = q')
    (hprimitives : ∀ q ∈ W.requests, ∀ p ∈ Primitive.all, q.id ≠ p.fingerprint)
    (hconstructors : ∀ q ∈ W.requests, ∀ q' ∈ W.requests, ∀ k ∈ q.constructorId?,
      q'.constructorId? = some k → q = q')
    (hfunctions : ∀ q ∈ W.requests, ∀ k ∈ q.constructorId?, ∀ f ∈ W.functions, f.id ≠ k) :
    W.Distinct :=
  ⟨hinstances, fun q hq p ↦ hprimitives q hq.mem p p.mem_all,
    fun {q q'} _ hq hq' hk hk' ↦ hconstructors q hq.mem q' hq'.mem _ hk hk',
    fun {q} _ hq hk ↦ hfunctions q hq.mem _ hk⟩

/-- Whether a registry refers to what is requested can be found out from its entries, if no request is
taken to be answered already. -/
theorem closed_of_toList {W : Setting}
    (hclasses : ∀ p ∈ W.base.types.toList, ∀ c ∈ p.2.class?, ∀ q ∈ W.requests,
      (∀ field ∈ c.fields, q.id ≠ field.type) ∧ ∀ k ∈ c.constructor?, q.constructorId? ≠ some k)
    (htemplates : ∀ q ∈ W.requests, ∀ q' ∈ W.requests,
      (∀ field ∈ q.template.fields, q'.id ≠ field.2) ∧
        ∀ params ∈ q.template.constructor?, ∀ p ∈ params, q'.id ≠ p.type)
    (hfunctions : ∀ p ∈ W.base.functions.toList, ∀ q ∈ W.requests,
      (∀ param ∈ p.2.params, q.id ≠ param.type) ∧ q.id ≠ p.2.returns ∧ q.constructorId? ≠ some p.1) :
    W.Closed where
  fields hc _ field hfield q hq := (forall_getElem? hclasses hc _ rfl q hq.mem).1 field hfield
  classConstructors hc hk q hq := (forall_getElem? hclasses hc _ rfl q hq.mem).2 _ hk
  templateFields q hq field hfield q' hq' := (htemplates q hq.mem q' hq'.mem).1 field hfield
  templateParams q hq params hparams p hp q' hq' :=
    (htemplates q hq.mem q' hq'.mem).2 params hparams p hp
  functions {q k} hq hk := by
    refine Option.eq_none_iff_forall_ne_some.2 fun f hf ↦ ?_
    exact (forall_getElem? hfunctions hf q hq.mem).2.2 hk
  signatures hf := ⟨fun p hp q hq ↦ (forall_getElem? hfunctions hf q hq.mem).1 p hp,
    fun q hq ↦ (forall_getElem? hfunctions hf q hq.mem).2.1⟩

theorem built_holderRegistry (type : Fingerprint) : (holderRegistry type).Built := by
  have hbox : (Registry.withPrimitives .w32).registerType (.template Symbols.boxTemplate) =
      .ok Symbols.boxRegistry :=
    Registry.registerType_eq_ok_iff.2 ⟨by decide +kernel, by decide +kernel, rfl⟩
  have hholder : Symbols.boxRegistry.registerType
      (.object (.named "Holder" [⟨"value", type, none⟩] none)) = .ok (holderRegistry type) :=
    Registry.registerType_eq_ok_iff.2
      ⟨show Symbols.boxRegistry.types[Fingerprint.ofTypeName "Holder"]? = none by decide +kernel,
        show Symbols.boxRegistry.typeNames["Holder"]? = none by decide +kernel, rfl⟩
  exact ((Registry.Built.withPrimitives .w32).step (.registerType hbox)).step (.registerType hholder)

/-- The order of the functions does not matter if the class holds an integer. -/
theorem compile_perm_holder :
    let registry := holderRegistry Primitive.int32.fingerprint
    registry.Built ∧ holderScript.PlainlyNamed registry ∧ (holderScript.setting registry).Distinct ∧
      (holderScript.setting registry).Closed ∧
      (declareFunctions holderScript { registry }).1.2 = [] ∧
      (holderScript.compile {} registry).pool.size ≤ 65536 ∧
      holderScript.Commutes {} registry := by
  intro registry
  have hbuilt : registry.Built := built_holderRegistry _
  have hnames : holderScript.PlainlyNamed registry :=
    .of_toList (by decide +kernel) (by decide +kernel) (by decide +kernel) (by decide +kernel)
      (by decide +kernel)
  have hdistinct : (holderScript.setting registry).Distinct :=
    distinct_of_requests (by decide +kernel) (by decide +kernel) (by decide +kernel) (by decide +kernel)
  have hclosed : (holderScript.setting registry).Closed :=
    closed_of_toList (by decide +kernel) (by decide +kernel) (by decide +kernel)
  have hsignatures : (declareFunctions holderScript { registry }).1.2 = [] := by decide +kernel
  have hpool : (holderScript.compile {} registry).pool.size ≤ 65536 := by decide +kernel
  exact ⟨hbuilt, hnames, hdistinct, hclosed, hsignatures, hpool,
    compile_perm {} registry holderScript hbuilt hnames hdistinct hclosed hsignatures hpool⟩

/-- The order of the functions matters if the class holds an instance that the second function
creates, though nothing else is wrong with the script and the registry: the class cannot be laid out
before that. -/
theorem compile_perm_dangling :
    let registry := holderRegistry
      (.ofInstance Symbols.boxTemplate.id [Primitive.int32.fingerprint])
    registry.Built ∧ holderScript.PlainlyNamed registry ∧ (holderScript.setting registry).Distinct ∧
      (declareFunctions holderScript { registry }).1.2 = [] ∧
      (holderScript.compile {} registry).pool.size ≤ 65536 ∧
      ¬ holderScript.Commutes {} registry := by
  intro registry
  have hnames : holderScript.PlainlyNamed registry :=
    .of_toList (by decide +kernel) (by decide +kernel) (by decide +kernel) (by decide +kernel)
      (by decide +kernel)
  have hdistinct : (holderScript.setting registry).Distinct :=
    distinct_of_requests (by decide +kernel) (by decide +kernel) (by decide +kernel) (by decide +kernel)
  refine ⟨built_holderRegistry _, hnames, hdistinct, by decide +kernel, by decide +kernel, ?_⟩
  rintro ⟨report, errors, final, h⟩
  have hperm : holderScript.Perm holderScript.reverse := (List.reverse_perm _).symm
  have hsame := (hperm.flatMap_right errors).length_eq
  rw [← (h _ (.refl _)).2.1, ← (h _ hperm).2.1] at hsame
  have hone : (Script.compile {} registry holderScript).errors.length = 1 := by decide +kernel
  have hnone : (Script.compile {} registry holderScript.reverse).errors.length = 0 := by decide +kernel
  omega

end Script

end StackLowering

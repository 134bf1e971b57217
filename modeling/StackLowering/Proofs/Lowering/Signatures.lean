import StackLowering.Proofs.Lowering.Passes
import StackLowering.Proofs.Lowering.Requests

/-!
# Signatures in any order

The types of a signature are resolved to the same types whatever was registered before it, and its
function can be registered unless another function has its identity or its name. So whether all
signatures of a script are registered can be told from the registry at the start
(`Symbols.Registrable`), and does not depend on their order (`Symbols.Registrable.perm`), nor does what
they add:

* If no signature fails, all of them are registrable (`registrable_of_declareFunctions`).
* If they are registrable, all are declared, and what is added is the union of what each of them
  demands (`declareFunctions_eq`).

While signatures are registered, the functions of the setting are those that are registered already
(`Setting.declaring`), and the induction goes from one setting to the next. Soundness is asked of the
last one only, with all functions of the script, since a setting with fewer functions is sound if a
larger one is. Types that are written in a signature may create instances and their constructors; that
these are in no other function's way is part of soundness as well.
-/

namespace StackLowering

/-! ### Settings with other functions -/

namespace Setting

variable {W : Setting} {r r' : Registry} {fs : List Callable} {f : Callable} {q : Request}
  {id type : Fingerprint} {e : TypeEntry}

/-- The same start with other functions. -/
def declaring (W : Setting) (fs : List Callable) : Setting := { W with functions := fs }

/-- Which instances are new does not depend on the functions. -/
theorem isNew_declaring : (W.declaring fs).IsNew q ↔ W.IsNew q :=
  ⟨fun h ↦ ⟨h.mem, h.args, h.new⟩, fun h ↦ ⟨h.mem, h.args, h.new⟩⟩

theorem settled_declaring : (W.declaring fs).Settled type ↔ W.Settled type :=
  forall_congr' fun _ ↦ imp_congr_left isNew_declaring

/-- Neither does it depend on them which types are stable. -/
theorem stable_declaring : (W.declaring fs).Stable r type ↔ W.Stable r type :=
  or_congr_right settled_declaring

/-- A sound setting stays sound with fewer functions. So it is enough to ask for soundness of the
setting with all functions of the script. -/
theorem Sound.declaring (hW : W.Sound) (hfs : fs ⊆ W.functions) : (W.declaring fs).Sound where
  indexed := hW.indexed
  templates := hW.templates
  ids := hW.ids
  constructorIds hq hq' := hW.constructorIds (isNew_declaring.1 hq) (isNew_declaring.1 hq')
  constructors hq hk :=
    (hW.constructors (isNew_declaring.1 hq) hk).imp_right fun h f hf ↦ h f (hfs hf)
  primitives p := settled_declaring.2 (hW.primitives p)
  typeNames := hW.typeNames
  functionNames := hW.functionNames
  declaredNames f hf := hW.declaredNames f (hfs hf)
  fields he hextent field hfield := settled_declaring.2 (hW.fields he hextent field hfield)
  classConstructors he hk q hq := hW.classConstructors he hk q (isNew_declaring.1 hq)
  templateFields q hq field hfield :=
    settled_declaring.2 (hW.templateFields q (isNew_declaring.1 hq) field hfield)
  templateParams q hq params hparams p hp :=
    settled_declaring.2 (hW.templateParams q (isNew_declaring.1 hq) params hparams p hp)
  signatures hf := (hW.signatures hf).imp
    (fun h p hp ↦ settled_declaring.2 (h p hp)) settled_declaring.2

theorem Origin.declaring (h : W.Origin r id e) : (W.declaring fs).Origin r id e := by
  cases h with
  | base h => exact .base h
  | request hq hargs => exact .request (isNew_declaring.2 hq) hargs

/-- A registry that has grown with some functions has grown with more of them. -/
theorem Grown.declaring (hr : W.Grown r) (hfs : W.functions ⊆ fs) : (W.declaring fs).Grown r where
  indexed := hr.indexed
  extend := hr.extend
  types he := (hr.types he).imp fun _ ↦ And.imp_left Origin.declaring
  names := hr.names
  functions hf := (hr.functions hf).imp_right <| Or.imp (fun h ↦ hfs h) <| Exists.imp
    fun _ ↦ And.imp_left isNew_declaring.2
  constructors hq := hr.constructors (isNew_declaring.1 hq)

variable {s : Symbols}

/-- The same holds of registries with remembered instances. -/
theorem Admits.declaring (hs : W.Admits s) (hfs : W.functions ⊆ fs) : (W.declaring fs).Admits s :=
  ⟨hs.grown.declaring hfs, hs.faithful⟩

end Setting

/-! ### Functions that are not registered -/

/-- Neither the identity nor the name of a function is taken. -/
def Registry.Lacks (r : Registry) (f : Callable) : Prop :=
  r.functions[f.id]? = none ∧ r.functionNames[f.name]? = none

instance (r : Registry) (f : Callable) : Decidable (r.Lacks f) := by
  unfold Registry.Lacks
  infer_instance

/-- Two functions that have neither the identity nor the name in common. -/
def Callable.Compatible (f g : Callable) : Prop := f.id ≠ g.id ∧ f.name ≠ g.name

/-- Two functions are compatible in either order. -/
theorem Callable.Compatible.symm {f g : Callable} (h : f.Compatible g) : g.Compatible f :=
  ⟨h.1.symm, h.2.symm⟩

/-- A function can still be registered after another one exactly if it could before and the two are
compatible. -/
theorem Registry.lacks_putFunction_iff {r : Registry} {f g : Callable} :
    (r.putFunction f).Lacks g ↔ f.Compatible g ∧ r.Lacks g := by
  simp only [Lacks, Callable.Compatible, putFunction, Std.ExtTreeMap.getElem?_insert]
  grind

namespace Setting.Grown

variable {W : Setting} {r r' : Registry} {f : Callable}

/-- No function comes to be registered but constructors of new instances. -/
theorem lacks_iff (hr : W.Grown r) (hr' : W.Grown r') (hext : r.Extends r')
    (hdeclared : ∀ g ∈ W.functions, r.functions[g.id]? = some g)
    (hplain : PlainName f.name)
    (hid : ∀ q k, W.IsNew q → q.constructorId? = some k → f.id ≠ k) : r'.Lacks f ↔ r.Lacks f := by
  have hold {g : Callable} (hg : r'.functions[g.id]? = some g)
      (hnot : ∀ q, W.IsNew q → q.constructor? r' ≠ some g) : r.functions[g.id]? = some g := by
    rcases hr'.functions hg with h | h | ⟨q, hq, -, h⟩
    · exact hr.extend.functions h
    · exact hdeclared g h
    · exact absurd h (hnot q hq)
  constructor
  · rintro ⟨hfree, hname⟩
    refine ⟨?_, ?_⟩ <;> refine Option.eq_none_iff_forall_ne_some.2 fun k hk ↦ ?_
    · exact nomatch (hext.functions hk).symm.trans hfree
    · exact nomatch (hext.functionNames hk).symm.trans hname
  · rintro ⟨hfree, hname⟩
    refine ⟨?_, ?_⟩ <;> refine Option.eq_none_iff_forall_ne_some.2 fun k hk ↦ ?_
    · have hkid := hr'.indexed.function_id hk
      rw [← hkid] at hk hfree
      refine nomatch (hold hk fun q hq h ↦ ?_).symm.trans hfree
      exact hid q _ hq (Request.constructorId?_eq h) hkid.symm
    · obtain ⟨g, hg, hgname⟩ := hr'.indexed.functionNames_iff.1 hk
      have hgid := hr'.indexed.function_id hg
      rw [← hgid] at hg
      have hreg := hold hg fun q _ h ↦
        hplain.ne_constructorName _ (hgname.symm.trans (Request.name_constructor h))
      rw [← hgname, hr.indexed.functionNames_iff.2 ⟨g, hreg, rfl⟩] at hname
      exact nomatch hname

/-- A registry in which a function is registered has grown from the start of a setting with that
function. -/
theorem putFunction (hr : W.Grown r) (hf : r.Lacks f) :
    (W.declaring (f :: W.functions)).Grown (r.putFunction f) := by
  have hregister : r.registerFunction f = .ok (r.putFunction f) :=
    Registry.registerFunction_eq_ok_iff.2 ⟨hf.1, hf.2, rfl⟩
  have hext : r.Extends (r.putFunction f) := .of_registerFunction hregister
  refine ⟨hr.indexed.registerFunction hregister, hr.extend.trans hext, fun he ↦ ?_, hr.names,
    fun hg ↦ ?_, fun hq h hg ↦ ?_⟩
  · obtain ⟨e₀, horigin, hmatures⟩ := hr.types he
    exact ⟨e₀, (horigin.extends hext).declaring, hmatures.extend hext⟩
  · rw [Registry.functions_putFunction] at hg
    split at hg
    · obtain rfl := Option.some.inj hg
      exact .inr (.inl List.mem_cons_self)
    · rcases hr.functions hg with h | h | ⟨q, hq, hreg, h⟩
      · exact .inl h
      · exact .inr (.inl (List.mem_cons_of_mem f h))
      · exact .inr (.inr ⟨q, Setting.isNew_declaring.2 hq, hreg, h⟩)
  · exact hext.functions (hr.constructors (Setting.isNew_declaring.1 hq) h hg)

end Setting.Grown

/-! ### Types of signatures -/

/-- The names that are applied to type arguments in the signature of a function. -/
def FunctionDecl.signatureApplications (d : FunctionDecl) : List Application :=
  applicationsOfTypes (d.params.map (·.type)) ++ d.returns.toList.flatMap TypeExpr.applications

/-- The function of a declaration whose types are resolved in the given state. -/
def FunctionDecl.callable? (d : FunctionDecl) (s : Symbols) : Option Callable :=
  match (d.types.run.run s).1 with
  | .ok types => some (d.callable types.1 types.2)
  | .error _ => none

namespace FunctionDecl

variable {W : Setting} {s t : Symbols} {d : FunctionDecl} {f : Callable}

/-- A declaration has a function in a state if its types can be resolved there. -/
theorem callable?_eq_some_iff : d.callable? s = some f ↔
    ∃ types, (d.types.run.run s).1 = .ok types ∧ d.callable types.1 types.2 = f := by
  unfold callable?
  split <;> simp_all

/-- A declaration without a function is one with a type that cannot be resolved. -/
theorem callable?_eq_none_iff : d.callable? s = none ↔
    ∃ error, (d.types.run.run s).1 = .error error := by
  unfold callable?
  split <;> simp_all

/-- The types of a signature are resolved in the same way in both states. -/
theorem agree_types (hW : W.Sound) (hd : ∀ a ∈ d.signatureApplications, W.Writes a)
    (h : W.Below s t) :
    d.types.Agree W s t d.types fun types r ↦
      (∀ id ∈ types.1, W.Stable r id) ∧ W.Stable r types.2 := by
  have hparams := agree_resolveTypes hW (d.params.map (·.type))
    (fun a ha ↦ hd a (List.mem_append_left _ ha)) h
  refine .bind hparams fun ids s₁ t₁ hstep hids ↦ ?_
  cases hreturns : d.returns with
  | none =>
    exact .pure hstep.below ⟨fun id hid ↦ .inl (hids.1 id hid), hW.stable_primitive _ .void⟩
  | some written =>
    have hwritten := written.agree_resolve hW
      (fun a ha ↦ hd a (List.mem_append_right _ (by simp [hreturns, ha]))) hstep.below
    refine .bind hwritten fun id s₂ t₂ hstep' hid ↦ .pure hstep'.below ⟨fun id' hid' ↦ ?_, .inl hid.1⟩
    exact .inl (hstep'.extend.type?_isSome (hids.1 id' hid'))

/-- A signature whose types cannot be resolved in a state is not registered in a larger one. -/
theorem signature_eq_error (hW : W.Sound) (hd : ∀ a ∈ d.signatureApplications, W.Writes a)
    (h : W.Below s t) (hnone : d.callable? s = none) :
    ∃ error, (d.signature.run.run t).1 = .error error := by
  obtain ⟨error, htypes⟩ := callable?_eq_none_iff.1 hnone
  have hvalue := (agree_types hW hd h).value
  rw [htypes] at hvalue
  rw [d.signature_eq, Resolution.run_bind]
  generalize d.types.run.run t = out at hvalue
  rcases out with ⟨v, t₁⟩
  obtain rfl : v = .error error := hvalue
  exact ⟨error, rfl⟩

/-- A signature whose types can be resolved in a state has the same types in a larger one, and its
function is registered after they were resolved. -/
theorem signature_eq_register (hW : W.Sound) (hd : ∀ a ∈ d.signatureApplications, W.Writes a)
    (h : W.Below s t) (hf : d.callable? s = some f) :
    ∃ t₁, d.signature.run.run t = (d.register f).run.run t₁ ∧ W.Admits t₁ ∧
      t.registry.Adds (d.types.run.run s).2.registry.Extends t₁.registry ∧
      (∀ p ∈ f.params, W.Stable t₁.registry p.type) ∧ W.Stable t₁.registry f.returns := by
  obtain ⟨hvalue, hstep, hpost⟩ := agree_types hW hd h
  obtain ⟨K, hs, ht⟩ := hstep.adds
  obtain ⟨types, htypes, rfl⟩ := callable?_eq_some_iff.1 hf
  obtain ⟨hparams, hreturns⟩ := hpost types htypes
  refine ⟨(d.types.run.run t).2, ?_, hstep.below.upper, .of_extends h.extend hs ht, fun p hp ↦ ?_,
    hreturns.mono hstep.below.extend⟩
  · rw [htypes] at hvalue
    rw [d.signature_eq, Resolution.run_bind]
    generalize d.types.run.run t = out at hvalue
    rcases out with ⟨v, t₁⟩
    obtain rfl : v = .ok types := hvalue
    rfl
  · obtain ⟨⟨q, type⟩, hmem, rfl⟩ := List.mem_map.1 hp
    exact (hparams type (List.of_mem_zip hmem).2).mono hstep.below.extend

end FunctionDecl

/-! ### The functions of a script -/

namespace Symbols

/-- The declarations whose types are resolved in the given state, with their functions. -/
def signatures (base : Symbols) (ds : List FunctionDecl) : List (FunctionDecl × Callable) :=
  ds.filterMap fun d ↦ (d.callable? base).map (d, ·)

theorem signatures_cons (base : Symbols) {d : FunctionDecl} {f : Callable} (ds : List FunctionDecl)
    (hf : d.callable? base = some f) :
    base.signatures (d :: ds) = (d, f) :: base.signatures ds := by
  simp [signatures, hf]

/-- The types of all declarations are resolved in a state, and their functions can be registered one
after the other in a registry. -/
structure Registrable (base : Symbols) (r : Registry) (ds : List FunctionDecl) : Prop where
  resolved : ∀ d ∈ ds, (d.callable? base).isSome
  compatible : (base.signatures ds).Pairwise fun q q' ↦ q.2.Compatible q'.2
  lacks : ∀ q ∈ base.signatures ds, r.Lacks q.2

/-- Whether functions can be registered does not depend on their order. -/
theorem Registrable.perm {base : Symbols} {r : Registry} {ds ds' : List FunctionDecl}
    (h : base.Registrable r ds) (hperm : ds.Perm ds') : base.Registrable r ds' := by
  have hsignatures : (base.signatures ds).Perm (base.signatures ds') := hperm.filterMap _
  exact ⟨fun d hd ↦ h.resolved d (hperm.mem_iff.2 hd),
    (hsignatures.pairwise_iff fun hq ↦ hq.symm).1 h.compatible,
    fun q hq ↦ h.lacks q (hsignatures.mem_iff.2 hq)⟩

/-- Functions can be registered if the first one can, and the others can after it. -/
theorem registrable_cons_iff {base : Symbols} {r r' : Registry} {d : FunctionDecl} {f : Callable}
    {ds : List FunctionDecl} (hf : d.callable? base = some f)
    (hr' : ∀ q ∈ base.signatures ds, (r'.Lacks q.2 ↔ f.Compatible q.2 ∧ r.Lacks q.2)) :
    base.Registrable r (d :: ds) ↔ r.Lacks f ∧ base.Registrable r' ds := by
  have hcons := base.signatures_cons ds hf
  constructor
  · intro h
    have hcompatible := h.compatible
    have hlacks := h.lacks
    rw [hcons] at hcompatible hlacks
    obtain ⟨hfirst, hrest⟩ := List.pairwise_cons.1 hcompatible
    refine ⟨hlacks _ List.mem_cons_self, fun d' hd' ↦ h.resolved d' (List.mem_cons_of_mem d hd'),
      hrest, fun q hq ↦ (hr' q hq).2 ⟨hfirst q hq, hlacks q (List.mem_cons_of_mem _ hq)⟩⟩
  · rintro ⟨hfree, h⟩
    refine ⟨List.forall_mem_cons.2 ⟨by simp [hf], h.resolved⟩, ?_, ?_⟩
    · rw [hcons]
      exact List.pairwise_cons.2 ⟨fun q hq ↦ ((hr' q hq).1 (h.lacks q hq)).1, h.compatible⟩
    · rw [hcons]
      exact List.forall_mem_cons.2 ⟨hfree, fun q hq ↦ ((hr' q hq).1 (h.lacks q hq)).2⟩

end Symbols

namespace Setting

variable {W : Setting} {base s : Symbols} {all : List Callable} {d : FunctionDecl} {f : Callable}

theorem Writes.declaring {a : Application} {fs : List Callable} (ha : W.Writes a) :
    (W.declaring fs).Writes a :=
  ⟨ha.plain, ha.mem⟩

/-- A state in which the functions of the setting are registered, and others of the script may
follow. -/
structure Underway (W : Setting) (base s : Symbols) (all : List Callable) : Prop where
  below : W.Below base s
  declared : W.Declared s.registry
  subset : W.functions ⊆ all

/-- What a signature demands: its types, and that its function is known. -/
def Demands (base : Symbols) (q : FunctionDecl × Callable) (r : Registry) : Prop :=
  (q.1.types.run.run base).2.registry.Extends r ∧ Registry.KnowsFunction q.2 r

/-- The setting is sound on the way, since it is in the end. -/
theorem Underway.sound (h : W.Underway base s all) (hall : (W.declaring all).Sound) : W.Sound :=
  hall.declaring h.subset

/-- In the end all functions of the script are those of the setting. -/
theorem Underway.finish (h : W.Underway base s all) (hall : all ⊆ W.functions) :
    (W.declaring all).Below base s ∧ (W.declaring all).Declared s.registry := by
  refine ⟨⟨h.below.lower.declaring h.subset, h.below.upper.declaring h.subset, h.below.extend⟩,
    fun f hf ↦ ?_⟩
  obtain ⟨hid, hparams, hreturns⟩ := h.declared f (hall hf)
  exact ⟨hid, fun p hp ↦ stable_declaring.2 (hparams p hp), stable_declaring.2 hreturns⟩

/-- The function of a signature is registered unless its identity or its name is taken. -/
theorem Underway.signature (h : W.Underway base s all) (hall : (W.declaring all).Sound)
    (hd : ∀ a ∈ d.signatureApplications, W.Writes a) (hf : d.callable? base = some f)
    (hmem : f ∈ all) :
    ¬ s.registry.Lacks f ∧ (∃ error, (d.signature.run.run s).1 = .error error) ∨
      s.registry.Lacks f ∧ ∃ s', d.signature.run.run s = (.ok f, s') ∧
        (W.declaring (f :: W.functions)).Underway base s' all ∧
        s.registry.Adds (Demands base (d, f)) s'.registry ∧
        ∀ g ∈ all, (s'.registry.Lacks g ↔ f.Compatible g ∧ s.registry.Lacks g) := by
  have hW := h.sound hall
  obtain ⟨s₁, hrun, hadmits, hadds, hparams, hreturns⟩ := d.signature_eq_register hW hd h.below hf
  have hlacks (g : Callable) (hg : g ∈ all) : s₁.registry.Lacks g ↔ s.registry.Lacks g := by
    refine h.below.upper.grown.lacks_iff hadmits.grown hadds.extend (fun g' hg' ↦ (h.declared g' hg').1)
      (hall.declaredNames g hg) fun q k hq hk ↦ ?_
    exact (hall.constructors (isNew_declaring.2 hq) hk).2 g hg
  rw [hrun, d.run_register]
  by_cases hfree : s.registry.Lacks f
  · have hfree₁ := (hlacks f hmem).2 hfree
    have hregister : s₁.registry.registerFunction f = .ok (s₁.registry.putFunction f) :=
      Registry.registerFunction_eq_ok_iff.2 ⟨hfree₁.1, hfree₁.2, rfl⟩
    have hput := Registry.adds_putFunction hfree₁.1 hfree₁.2
    have hext := hadds.extend.trans hput.extend
    rw [hregister]
    refine .inr ⟨hfree, _, rfl, ⟨⟨?_, ?_, h.below.extend.trans hext⟩, ?_, ?_⟩, hadds.trans hput,
      fun g hg ↦ ?_⟩
    · exact h.below.lower.declaring (List.subset_cons_self f _)
    · exact ⟨hadmits.grown.putFunction hfree₁,
        hadmits.faithful.setRegistry fun _ ↦ hput.extend.type?_isSome⟩
    · rintro g (_ | ⟨_, hg⟩)
      · exact ⟨hput.meets.1, fun p hp ↦ stable_declaring.2 ((hparams p hp).mono hput.extend),
          stable_declaring.2 (hreturns.mono hput.extend)⟩
      · obtain ⟨hid, hparams, hreturns⟩ := (h.declared.mono hext) g hg
        exact ⟨hid, fun p hp ↦ stable_declaring.2 (hparams p hp), stable_declaring.2 hreturns⟩
    · exact List.cons_subset.2 ⟨hmem, h.subset⟩
    · rw [Registry.lacks_putFunction_iff, hlacks g hg]
  · refine .inl ⟨hfree, ?_⟩
    cases hregister : s₁.registry.registerFunction f with
    | error error => exact ⟨_, rfl⟩
    | ok r =>
      obtain ⟨hid, hname, -⟩ := Registry.registerFunction_eq_ok_iff.1 hregister
      exact absurd ((hlacks f hmem).1 ⟨hid, hname⟩) hfree

end Setting

variable {W : Setting} {base s : Symbols} {all : List Callable} {ds : List FunctionDecl}

/-- If no signature fails, their functions can be registered, as can be told from the start. -/
theorem registrable_of_declareFunctions (hall : (W.declaring all).Sound)
    (hds : ∀ d ∈ ds, ∀ a ∈ d.signatureApplications, W.Writes a)
    (hmem : ∀ q ∈ base.signatures ds, q.2 ∈ all) (h : W.Underway base s all)
    (hnil : (declareFunctions ds s).1.2 = []) : base.Registrable s.registry ds := by
  induction ds generalizing W s with
  | nil => exact ⟨by simp, .nil, by simp [Symbols.signatures]⟩
  | cons d ds ih =>
    have hd := hds d List.mem_cons_self
    have hfails {error : CompileError} (hrun : (d.signature.run.run s).1 = .error error) : False := by
      rw [declareFunctions] at hnil
      generalize d.signature.run.run s = out at hrun hnil
      rcases out with ⟨v, s₁⟩
      obtain rfl : v = .error error := hrun
      cases hnil
    cases hf : d.callable? base with
    | none =>
      obtain ⟨error, hrun⟩ := d.signature_eq_error (h.sound hall) hd h.below hf
      exact (hfails hrun).elim
    | some f =>
      rw [base.signatures_cons ds hf] at hmem
      obtain ⟨hf', hmem⟩ := List.forall_mem_cons.1 hmem
      rcases h.signature hall hd hf hf' with ⟨-, error, hrun⟩ | ⟨hfree, s', hrun, h', -, hlacks⟩
      · exact (hfails hrun).elim
      · rw [declareFunctions, hrun] at hnil
        refine (Symbols.registrable_cons_iff hf fun q hq ↦ hlacks q.2 (hmem q hq)).2 ⟨hfree, ?_⟩
        exact ih (W := W.declaring (f :: W.functions)) hall
          (fun d' hd' a ha ↦ (hds d' (List.mem_cons_of_mem d hd') a ha).declaring) hmem h' hnil

/-- Functions that can be registered are declared, and what their signatures add is what each of them
demands. -/
theorem declareFunctions_eq (hall : (W.declaring all).Sound)
    (hds : ∀ d ∈ ds, ∀ a ∈ d.signatureApplications, W.Writes a)
    (hmem : ∀ q ∈ base.signatures ds, q.2 ∈ all) (h : W.Underway base s all)
    (hreg : base.Registrable s.registry ds) :
    (declareFunctions ds s).1 = (base.signatures ds, []) ∧
      (W.declaring (((base.signatures ds).map (·.2)).reverse ++ W.functions)).Underway base
        (declareFunctions ds s).2 all ∧
      s.registry.Adds (fun r ↦ ∀ q ∈ base.signatures ds, Setting.Demands base q r)
        (declareFunctions ds s).2.registry := by
  induction ds generalizing W s with
  | nil => exact ⟨rfl, h, .of_forall fun _ _ ↦ by simp [Symbols.signatures]⟩
  | cons d ds ih =>
    obtain ⟨f, hf⟩ := Option.isSome_iff_exists.1 (hreg.resolved d List.mem_cons_self)
    have hcons := base.signatures_cons ds hf
    have hlacks := hreg.lacks
    rw [hcons] at hmem hlacks ⊢
    obtain ⟨hf', hmem⟩ := List.forall_mem_cons.1 hmem
    rcases h.signature hall (hds d List.mem_cons_self) hf hf' with
      ⟨hnot, -⟩ | ⟨-, s', hrun, h', hadds, hiff⟩
    · exact absurd (hlacks _ List.mem_cons_self) hnot
    · obtain ⟨-, hreg'⟩ := (Symbols.registrable_cons_iff hf fun q hq ↦ hiff q.2 (hmem q hq)).1 hreg
      obtain ⟨hdeclared, hunderway, hrest⟩ := ih (W := W.declaring (f :: W.functions)) hall
        (fun d' hd' a ha ↦ (hds d' (List.mem_cons_of_mem d hd') a ha).declaring) hmem h' hreg'
      rw [declareFunctions, hrun]
      dsimp only
      simp only [hdeclared]
      refine ⟨trivial, ?_, (hadds.trans hrest).congr fun _ _ ↦ by simp⟩
      rw [List.map_cons, List.reverse_cons, List.append_assoc]
      exact hunderway

end StackLowering

import Mathlib.Data.Set.Function
import StackLowering.Proofs.Symbols.FreshInstances

/-!
# Placeholders of template parameters

The placeholder of a parameter mixes the hashes of two names, that of the template and that of the
parameter. The mixing does not tell which name is which: the parameter `B` of a template `A` has the
placeholder of the parameter `A` of a template `B`, and all parameters that are called like their
templates have the same placeholder. If the names have different hashes, these are the only pairs that
share a placeholder by their form (`Fingerprint.placeholder_eq_iff`); four different names share one if
their hashes happen to cancel. A template takes every placeholder that it shares for its own.

What this means for instances: a field of one template may have been given the placeholder of a
parameter of another one, by a host that puts templates together. At a request for an instance of the
first, the type of the field is replaced if and only if the placeholder is shared by a parameter of the
first, and then by the argument for that parameter.

That the names have different hashes is assumed of the four names in question only (`Set.InjOn`), as no
hash of 64 bits could tell all names apart.
-/

namespace StackLowering

namespace Fingerprint

/-- The placeholder of a parameter of a template, both given by their names. -/
def placeholder (template param : String) : Fingerprint := ofParameter (ofTypeName template) param

variable {template param template' param' : String}

/-- The markers of the two domains are the same in all placeholders. -/
theorem placeholder_eq_iff_xor : placeholder template param = placeholder template' param' ↔
    XxHash64.ofString template ^^^ XxHash64.ofString param =
      XxHash64.ofString template' ^^^ XxHash64.ofString param' := by
  simp only [placeholder, ofParameter, ofTypeName, mk.injEq, UInt64.xor_assoc,
    UInt64.xor_right_inj]

/-- The names of a template and of its parameter may be exchanged. -/
theorem placeholder_comm (template param : String) :
    placeholder template param = placeholder param template :=
  placeholder_eq_iff_xor.2 (UInt64.xor_comm _ _)

/-- All parameters that are called like their templates share one placeholder. -/
theorem placeholder_self (template template' : String) :
    placeholder template template = placeholder template' template' := by
  rw [placeholder_eq_iff_xor, UInt64.xor_self, UInt64.xor_self]

/-! ### Which pairs share a placeholder -/

/-- If the names have different hashes, pairs with the same placeholder are equal or each other in
reverse, or each of them has one name only, or they have four names. -/
theorem names_of_placeholder_eq
    (hinj : Set.InjOn XxHash64.ofString {template, param, template', param'})
    (h : placeholder template param = placeholder template' param') :
    template = template' ∧ param = param' ∨
      template = param' ∧ param = template' ∨
      template = param ∧ template' = param' ∨
      [template, param, template', param'].Nodup := by
  rw [placeholder_eq_iff_xor] at h
  -- an equation between two of the names leaves one between the other two
  by_cases h₁ : template = template'
  · subst h₁
    rw [UInt64.xor_right_inj] at h
    exact .inl ⟨rfl, hinj (by simp) (by simp) h⟩
  by_cases h₂ : template = param'
  · subst h₂
    rw [UInt64.xor_comm, UInt64.xor_left_inj] at h
    exact .inr (.inl ⟨rfl, hinj (by simp) (by simp) h⟩)
  by_cases h₃ : template = param
  · subst h₃
    rw [UInt64.xor_self, eq_comm, UInt64.xor_eq_zero_iff] at h
    exact .inr (.inr (.inl ⟨rfl, hinj (by simp) (by simp) h⟩))
  by_cases h₄ : param = template'
  · subst h₄
    rw [UInt64.xor_comm, UInt64.xor_right_inj] at h
    exact absurd (hinj (by simp) (by simp) h) h₂
  by_cases h₅ : param = param'
  · subst h₅
    rw [UInt64.xor_left_inj] at h
    exact absurd (hinj (by simp) (by simp) h) h₁
  by_cases h₆ : template' = param'
  · subst h₆
    rw [UInt64.xor_self, UInt64.xor_eq_zero_iff] at h
    exact absurd (hinj (by simp) (by simp) h) h₃
  exact .inr (.inr (.inr (by simp [*])))

/-! ### Foreign placeholders -/

section Substitution

variable {params : List String} {fields : List (String × Fingerprint)}
  {constructor? : Option (List Param)} {args : List Fingerprint} {type : Fingerprint}

/-- The placeholder of a parameter is replaced, wherever it comes from. -/
theorem type_bind_mem_of_placeholder (hlength : args.length = params.length)
    (h : ∃ p ∈ params, placeholder template p = type) :
    (Substitution.bind (TemplateEntry.named template params fields constructor?).params args).type
      type ∈ args := by
  obtain ⟨p, hp, rfl⟩ := h
  exact Substitution.type_bind_mem (by simpa [TemplateEntry.named] using hlength)
    (List.mem_map_of_mem (f := TemplateEntry.parameter (ofTypeName template)) hp)

/-- What is not the placeholder of a parameter is left as it is. -/
theorem type_bind_eq_of_placeholder (h : ∀ p ∈ params, placeholder template p ≠ type) :
    (Substitution.bind (TemplateEntry.named template params fields constructor?).params args).type
      type = type := by
  refine Substitution.type_bind_of_ne fun param hparam ↦ ?_
  obtain ⟨p, hp, rfl⟩ := List.mem_map.1 hparam
  exact h p hp

end Substitution

/-- If the names have different hashes, two pairs of a template and a parameter share a placeholder
exactly if they are equal, if one is the other one in reverse, if both parameters are called like their
templates, or if the hashes of four different names cancel. When the template is instantiated, it
replaces the placeholder of the other one as its own exactly if a parameter of it shares it. -/
theorem placeholder_eq_iff
    (hinj : Set.InjOn XxHash64.ofString {template, param, template', param'}) :
    (placeholder template param = placeholder template' param' ↔
      template = template' ∧ param = param' ∨
      template = param' ∧ param = template' ∨
      template = param ∧ template' = param' ∨
      [template, param, template', param'].Nodup ∧
        XxHash64.ofString template ^^^ XxHash64.ofString param =
          XxHash64.ofString template' ^^^ XxHash64.ofString param') ∧
    ∀ (params : List String) (fields : List (String × Fingerprint))
      (constructor? : Option (List Param)) (args : List Fingerprint), args.length = params.length →
      let t := TemplateEntry.named template params fields constructor?
      let type := placeholder template' param'
      ((∃ p ∈ params, placeholder template p = type) →
        (Substitution.bind t.params args).type type ∈ args) ∧
      ((∀ p ∈ params, placeholder template p ≠ type) →
        (Substitution.bind t.params args).type type = type) := by
  refine ⟨⟨fun h ↦ ?_, ?_⟩, fun params fields constructor? args hlength ↦
    ⟨type_bind_mem_of_placeholder hlength, type_bind_eq_of_placeholder⟩⟩
  · rcases names_of_placeholder_eq hinj h with hsame | hreverse | hself | hnodup
    · exact .inl hsame
    · exact .inr (.inl hreverse)
    · exact .inr (.inr (.inl hself))
    · exact .inr (.inr (.inr ⟨hnodup, placeholder_eq_iff_xor.1 h⟩))
  · rintro (⟨rfl, rfl⟩ | ⟨rfl, rfl⟩ | ⟨rfl, rfl⟩ | ⟨-, hxor⟩)
    · rfl
    · exact placeholder_comm template param
    · exact placeholder_self template template'
    · exact placeholder_eq_iff_xor.2 hxor

/-- The parameter `Value` of the template `Key` is the parameter `Key` of the template `Value`: each
template replaces the placeholder of the other one. -/
theorem placeholder_eq_iff_reverse :
    Set.InjOn XxHash64.ofString {"Key", "Value", "Value", "Key"} ∧
      placeholder "Key" "Value" = placeholder "Value" "Key" ∧
      (Substitution.bind (TemplateEntry.named "Key" ["Value"] [] none).params
        [ofTypeName "int"]).type (placeholder "Value" "Key") = ofTypeName "int" := by
  have hne : XxHash64.ofString "Key" ≠ XxHash64.ofString "Value" := by decide +kernel
  have hinj : Set.InjOn XxHash64.ofString {"Key", "Value", "Value", "Key"} := by
    have hnames : ({"Key", "Value", "Value", "Key"} : Set String) = {"Key", "Value"} := by
      ext name
      simp only [Set.mem_insert_iff, Set.mem_singleton_iff]
      tauto
    rw [hnames, Set.injOn_pair]
    exact fun h ↦ absurd h hne
  obtain ⟨hiff, hreplaced⟩ := placeholder_eq_iff hinj
  have heq : placeholder "Key" "Value" = placeholder "Value" "Key" := hiff.2 (.inr (.inl ⟨rfl, rfl⟩))
  have hmem := (hreplaced ["Value"] [] none [ofTypeName "int"] rfl).1 ⟨"Value", by simp, heq⟩
  exact ⟨hinj, heq, List.mem_singleton.1 hmem⟩

end Fingerprint

end StackLowering

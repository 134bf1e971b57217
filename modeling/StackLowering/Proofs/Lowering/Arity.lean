import Mathlib.Data.List.Induction
import Mathlib.Data.List.TakeWhile
import Mathlib.Order.Basic
import StackLowering.Lowering.Arguments

/-!
# Arity

Binding treats three lists in turn: the arguments that have a parameter, the parameters that got no
argument and the arguments that have no parameter. Seen from the parameters, there is one place for
each of them, and what fills it depends on nothing but the parameter and the argument at its position
(`BindingStep.fill`). This module tells the steps of binding place by place (`bindingSteps`) and shows
that binding takes them and no others (`Lower.bindsByPlace`).

The number of arguments that are needed is the position after the last parameter without a default,
wherever defaults stand before it. So there are too few arguments exactly if a place has neither an
argument nor a default, and then the number that is reported as needed exceeds the number of arguments.

A parameter without a default may stand before one with a default. If both lack an argument, the first
gets a trap and the second its default all the same; only the report stands between the places before
the first missing one and the rest. This is why the steps are cut there (`takeWhile_places`,
`dropWhile_places`) and are otherwise one row.
-/

namespace StackLowering

variable {params : List Param} {n : Nat}

/-! ### The number of arguments that are needed -/

/-- One more parameter at the end makes all arguments needed, unless it has a default. -/
theorem neededCount_concat (params : List Param) (param : Param) :
    neededCount (params ++ [param]) =
      if param.default?.isSome then neededCount params else params.length + 1 := by
  unfold neededCount
  rw [List.reverse_append, List.reverse_singleton, List.singleton_append, List.dropWhile_cons]
  split
  · rfl
  · rw [List.length_cons, List.length_reverse]

/-- At most one argument for each parameter is needed. -/
theorem neededCount_le_length (params : List Param) : neededCount params ≤ params.length := by
  rw [← List.length_reverse]
  exact (List.dropWhile_suffix _).length_le

/-- More arguments than there are are needed exactly if a parameter that got none has no default. -/
theorem lt_neededCount_iff_exists_mem_drop :
    n < neededCount params ↔ ∃ p ∈ params.drop n, p.default? = none := by
  induction params using List.reverseRecOn with
  | nil => simp [neededCount]
  | append_singleton params param ih =>
    rcases Nat.lt_or_ge params.length n with hlt | hle
    · have hlength : (params ++ [param]).length ≤ n := by rwa [List.length_append]
      have hneeded := neededCount_le_length (params ++ [param])
      rw [List.drop_eq_nil_of_le hlength]
      exact iff_of_false (by omega) nofun
    · rw [neededCount_concat, List.drop_append_of_le_length hle]
      cases hdefault : param.default? with
      | some value =>
        rw [Option.isSome_some, if_pos rfl, ih]
        simp [or_and_right, exists_or, hdefault]
      | none =>
        rw [Option.isSome_none, if_neg Bool.false_ne_true]
        exact iff_of_true (by omega) ⟨param, by simp, hdefault⟩

/-- The same by positions: at some position from there on stands a parameter without a default. -/
theorem lt_neededCount_iff :
    n < neededCount params ↔ ∃ i p, n ≤ i ∧ params[i]? = some p ∧ p.default? = none := by
  rw [lt_neededCount_iff_exists_mem_drop]
  constructor
  · rintro ⟨p, hp, hnone⟩
    obtain ⟨i, hi⟩ := List.mem_iff_getElem?.1 hp
    rw [List.getElem?_drop] at hi
    exact ⟨n + i, p, Nat.le_add_right n i, hi, hnone⟩
  · rintro ⟨i, p, hi, hp, hnone⟩
    refine ⟨p, List.mem_iff_getElem?.2 ⟨i - n, ?_⟩, hnone⟩
    rwa [List.getElem?_drop, Nat.add_sub_cancel' hi]

/-- If an argument is needed, the last one that is needed is that of the last parameter without a
default. -/
theorem exists_last_of_lt_neededCount (h : n < neededCount params) :
    ∃ last p, neededCount params = last + 1 ∧ params[last]? = some p ∧ p.default? = none ∧
      ∀ i q, last < i → params[i]? = some q → q.default? ≠ none := by
  obtain ⟨last, hlast⟩ : ∃ last, neededCount params = last + 1 :=
    Nat.exists_eq_succ_of_ne_zero (Nat.ne_zero_of_lt h)
  have hafter : ∀ i q, last < i → params[i]? = some q → q.default? ≠ none := by
    intro i q hi hq hnone
    have hneeded : i < neededCount params := lt_neededCount_iff.2 ⟨i, q, le_rfl, hq, hnone⟩
    omega
  have hneeded : last < neededCount params := by omega
  obtain ⟨i, p, hi, hp, hnone⟩ := lt_neededCount_iff.1 hneeded
  obtain rfl : i = last := by
    by_contra hne
    exact hafter i p (by omega) hp hnone
  exact ⟨i, p, hlast, hp, hnone, hafter⟩

/-! ### The steps of binding -/

/-- What may happen while arguments are bound to parameters. -/
inductive BindingStep where
  /-- An argument is lowered against the type of its parameter. -/
  | argument (arg : Operand) (param : Param)
  /-- The default of a parameter is pushed. -/
  | default (value : DefaultValue) (param : Param)
  /-- A trap stands for a value that is missing. -/
  | missing
  /-- An error is reported about the number of arguments. -/
  | report (error : CompileError)
  /-- An argument that has no parameter is evaluated. -/
  | surplus (arg : Operand)

namespace BindingStep

/-- What a step writes and changes. A value that has no parameter is popped. -/
def run (span : Span) : BindingStep → Lower Unit
  | argument arg param => discard (arg.checkOrTrap param.type)
  | default value param => Lower.pushDefault param.type span value
  | missing => Lower.emit .trap
  | report error => Lower.report error
  | surplus arg => do
    match ← arg.inferOrTrap with
    | some info => if info.type = voidType then return () else Lower.emit .pop
    | none => return ()

/-- How the place of a parameter is filled: by its argument, if there is one, and else by its
default. -/
def fill (param : Param) : Option Operand → BindingStep
  | some arg => argument arg param
  | none =>
    match param.default? with
    | some value => default value param
    | none => missing

/-- Whether nothing fills a place. -/
def isMissing : BindingStep → Bool
  | missing => true
  | _ => false

/-- The error that a step reports about the number of arguments. -/
def report? : BindingStep → Option CompileError
  | report error => some error
  | _ => none

/-- A place without an argument is supplied from its default. -/
theorem run_fill_none (span : Span) (param : Param) :
    (fill param none).run span = Lower.supply span param := by
  unfold fill Lower.supply
  cases param.default? <;> rfl

/-- A place without an argument is missing if its parameter has no default. -/
theorem isMissing_fill_none (param : Param) :
    (fill param none).isMissing = param.default?.isNone := by
  unfold fill
  cases param.default? <;> rfl

/-- To fill a place reports nothing about the number of arguments. -/
theorem report?_fill (param : Param) (arg? : Option Operand) : (fill param arg?).report? = none := by
  unfold fill
  cases arg? with
  | some arg => rfl
  | none => cases param.default? <;> rfl

end BindingStep

/-- The places of the parameters. -/
def places (params : List Param) (args : List Operand) : List BindingStep :=
  params.mapIdx fun i param ↦ .fill param args[i]?

/-- The steps of binding: every place is filled in order. The first one that nothing fills is preceded
by an error, and so are the arguments that are left. -/
def bindingSteps (options : CompilerOptions) (params : List Param) (args : List Operand)
    (span : Span) : List BindingStep :=
  let (k, n) := (params.length, args.length)
  (places params args).takeWhile (!·.isMissing) ++
  (if n < neededCount params then [.report (.tooFewArguments (neededCount params) n span)] else []) ++
  (places params args).dropWhile (!·.isMissing) ++
  (if k < n then [.report (.tooManyArguments k n span)] else []) ++
  (if options.evaluateExcess then (args.drop k).map .surplus else [])

/-- The first places are for the arguments in order, and the others are left to defaults. -/
theorem places_eq (params : List Param) (args : List Operand) :
    places params args =
      (params.zip args).map (fun q ↦ .argument q.2 q.1) ++
        (params.drop args.length).map fun param ↦ .fill param none := by
  induction params generalizing args with
  | nil => simp [places]
  | cons param params ih =>
    cases args with
    | nil =>
      have hrest := ih []
      simp only [places, List.zip_nil_right, List.map_nil, List.nil_append, List.length_nil,
        List.drop_zero, List.getElem?_nil] at hrest ⊢
      rw [List.mapIdx_cons, hrest, List.map_cons]
    | cons arg args =>
      have hrest := ih args
      rw [places] at hrest ⊢
      rw [List.mapIdx_cons, List.zip_cons_cons, List.map_cons, List.length_cons, List.drop_succ_cons,
        List.cons_append, ← hrest]
      rfl

/-! ### Binding takes these steps -/

namespace Lower

/-- Takes steps in a row. -/
def takeSteps (span : Span) (steps : List BindingStep) : Lower Unit := steps.forM (·.run span)

variable {span : Span}

/-- Steps in two pieces are taken one piece after the other. -/
theorem takeSteps_append (steps rest : List BindingStep) :
    takeSteps span (steps ++ rest) = (do takeSteps span steps; takeSteps span rest) :=
  List.forM_append

theorem takeSteps_cons (step : BindingStep) (rest : List BindingStep) :
    takeSteps span (step :: rest) = (do step.run span; takeSteps span rest) :=
  List.forM_cons

theorem takeSteps_map {α : Type} (f : α → BindingStep) (l : List α) :
    takeSteps span (l.map f) = l.forM fun a ↦ (f a).run span :=
  List.forM_map

/-- To check the arguments that have a parameter is to take one step for each of them. -/
theorem takeSteps_map_argument (pairs : List (Param × Operand)) :
    takeSteps span (pairs.map fun q ↦ .argument q.2 q.1) = checkArguments pairs :=
  takeSteps_map _ pairs

/-- To supply parameters is to take one step for each of them. -/
theorem takeSteps_map_fill_none (params : List Param) :
    takeSteps span (params.map (.fill · none)) = params.forM (supply span) := by
  rw [takeSteps_map]
  simp only [BindingStep.run_fill_none]

/-- The parameters that got no argument are supplied in order, with an error before the first one that
has no default. -/
theorem supplyMissing_eq (shortfall : CompileError) (missing : List Param) :
    supplyMissing shortfall span missing = (do
      takeSteps span ((missing.takeWhile (·.default?.isSome)).map (.fill · none))
      takeSteps span (if ∃ p ∈ missing, p.default? = none then [.report shortfall] else [])
      takeSteps span ((missing.dropWhile (·.default?.isSome)).map (.fill · none))) := by
  rw [takeSteps_map_fill_none, takeSteps_map_fill_none, supplyMissing]
  have hmissing : (∃ p ∈ missing, p.default? = none) ↔
      missing.dropWhile (·.default?.isSome) ≠ [] := by
    rw [Ne, List.dropWhile_eq_nil_iff]
    simp
  refine congrArg _ (funext fun _ ↦ ?_)
  cases hrest : missing.dropWhile (·.default?.isSome) with
  | nil =>
    rw [if_neg (hmissing.not.2 (not_not.2 hrest))]
    rfl
  | cons param rest =>
    rw [if_pos (hmissing.2 (hrest ▸ List.cons_ne_nil param rest))]
    rfl

/-- Arguments in excess are one report, and then a step for each if they are evaluated. -/
theorem rejectExcess_eq (options : CompilerOptions) (excess : CompileError) (extra : List Operand)
    (span : Span) :
    rejectExcess options excess extra = (do
      takeSteps span (if extra = [] then [] else [.report excess])
      takeSteps span (if options.evaluateExcess then extra.map .surplus else [])) := by
  cases extra with
  | nil =>
    rw [if_pos rfl, List.map_nil, ite_self]
    rfl
  | cons arg extra =>
    rw [if_neg (List.cons_ne_nil arg extra), apply_ite (takeSteps span), takeSteps_map]
    rfl

end Lower

namespace BindingStep

theorem isMissing_of_mem_map_argument {pairs : List (Param × Operand)} {step : BindingStep}
    (h : step ∈ pairs.map fun q ↦ argument q.2 q.1) : (!step.isMissing) = true := by
  obtain ⟨q, -, rfl⟩ := List.mem_map.1 h
  rfl

theorem not_isMissing_comp_fill_none :
    ((!·.isMissing) ∘ (fill · none) : Param → Bool) = (·.default?.isSome) := by
  funext param
  rw [Function.comp_apply, isMissing_fill_none, Option.not_isNone]

end BindingStep

/-- The places up to the first missing one: those with an argument, and those after them that have a
default. -/
theorem takeWhile_places (params : List Param) (args : List Operand) :
    (places params args).takeWhile (!·.isMissing) =
      (params.zip args).map (fun q ↦ .argument q.2 q.1) ++
        ((params.drop args.length).takeWhile (·.default?.isSome)).map (.fill · none) := by
  rw [places_eq, List.takeWhile_append_of_pos fun _ ↦ BindingStep.isMissing_of_mem_map_argument,
    List.takeWhile_map, BindingStep.not_isMissing_comp_fill_none]

/-- The places from the first missing one on. -/
theorem dropWhile_places (params : List Param) (args : List Operand) :
    (places params args).dropWhile (!·.isMissing) =
      ((params.drop args.length).dropWhile (·.default?.isSome)).map (.fill · none) := by
  rw [places_eq, List.dropWhile_append_of_pos fun _ ↦ BindingStep.isMissing_of_mem_map_argument,
    List.dropWhile_map, BindingStep.not_isMissing_comp_fill_none]

namespace Lower

/-- Binding takes the steps that are told place by place. The report about a shortfall stands before
the first missing place. -/
theorem bindArguments_eq_takeSteps (options : CompilerOptions) (params : List Param)
    (args : List Operand) (span : Span) :
    bindArguments options params args span =
      takeSteps span (bindingSteps options params args span) := by
  have hexcess : args.drop params.length = [] ↔ ¬params.length < args.length := by
    rw [List.drop_eq_nil_iff, Nat.not_lt]
  rw [bindArguments, supplyMissing_eq, rejectExcess_eq _ _ _ span]
  simp only [bindingSteps, takeSteps_append, takeWhile_places, dropWhile_places, bind_assoc,
    takeSteps_map_argument, ← lt_neededCount_iff_exists_mem_drop, hexcess, ite_not]

/-- If no step but reports writes errors, steps in a row write what they report. -/
theorem errors_takeSteps {steps : List BindingStep} (h : ∀ step ∈ steps, step.report? = none →
      ∀ t, ((step.run span).run t).output.errors = []) (s : LoweringState) :
    ((takeSteps span steps).run s).output.errors = steps.filterMap (·.report?) := by
  induction steps generalizing s with
  | nil => rfl
  | cons step steps ih =>
    have hrest := ih fun step' hstep' ↦ h step' (List.mem_cons_of_mem step hstep')
    rw [takeSteps_cons, output_bind, Output.errors_append, hrest]
    cases hreport : step.report? with
    | none =>
      rw [h step List.mem_cons_self hreport, List.filterMap_cons_none hreport, List.nil_append]
    | some error =>
      rw [List.filterMap_cons_some hreport]
      cases step with
      | report error' =>
        obtain rfl := Option.some.inj hreport
        rfl
      | _ => exact nomatch hreport

/-- A default is one constant. A trap stands for it if its type has no layout. -/
theorem run_pushDefault (type : Fingerprint) (span : Span) (value : DefaultValue)
    (s : LoweringState) :
    (pushDefault type span value).run s =
      match s.symbols.registry.layout? type with
      | some layout => ⟨(), s, { code := [⟨s.line, .const (value.constant type layout.category)⟩] }⟩
      | none =>
        let error := .unsizedType (s.symbols.registry.typeName type) span
        ⟨(), s, { code := [⟨s.line, .trap⟩], errors := [error] }⟩ := by
  have hrun : (pushDefault type span value).run s =
      (match s.symbols.registry.layout? type with
        | some layout => emit (.const (value.constant type layout.category))
        | none => trap (.unsizedType (s.symbols.registry.typeName type) span)).run s := rfl
  rw [hrun]
  cases s.symbols.registry.layout? type <;> rfl

end Lower

theorem report?_of_mem_places {params : List Param} {args : List Operand} {step : BindingStep}
    (h : step ∈ places params args) : step.report? = none := by
  obtain ⟨i, hi, rfl⟩ := List.mem_mapIdx.1 h
  exact BindingStep.report?_fill ..

theorem report?_of_mem_surplus (options : CompilerOptions) (args : List Operand) {step : BindingStep}
    (h : step ∈ if options.evaluateExcess then args.map .surplus else []) : step.report? = none := by
  split at h
  · obtain ⟨arg, -, rfl⟩ := List.mem_map.1 h
    rfl
  · exact nomatch h

section

variable (options : CompilerOptions) (params : List Param) (args : List Operand) (span : Span)

/-- The reports among the steps: there are too few arguments, or too many, or neither. -/
theorem filterMap_report?_bindingSteps :
    (bindingSteps options params args span).filterMap (·.report?) =
      if args.length < neededCount params then
        [.tooFewArguments (neededCount params) args.length span]
      else if params.length < args.length then [.tooManyArguments params.length args.length span]
      else [] := by
  have htake := List.filterMap_eq_nil_iff.2 fun step h ↦
    report?_of_mem_places ((List.takeWhile_prefix (l := places params args) (!·.isMissing)).subset h)
  have hdrop := List.filterMap_eq_nil_iff.2 fun step h ↦
    report?_of_mem_places ((List.dropWhile_suffix (l := places params args) (!·.isMissing)).subset h)
  have hsurplus := List.filterMap_eq_nil_iff.2 fun step h ↦
    report?_of_mem_surplus options (args.drop params.length) h
  simp only [bindingSteps, List.filterMap_append, htake, hdrop, hsurplus, List.nil_append,
    List.append_nil]
  have hneeded := neededCount_le_length params
  split
  · rw [if_neg (by omega)]
    rfl
  · split <;> rfl

/-- The steps that are not reports fill the places and evaluate the arguments in excess. -/
theorem filter_isNone_report?_bindingSteps :
    (bindingSteps options params args span).filter (·.report?.isNone) =
      places params args ++
        if options.evaluateExcess then (args.drop params.length).map .surplus else [] := by
  have hplaces : (places params args).filter (·.report?.isNone) = places params args :=
    List.filter_eq_self.2 fun step h ↦ Option.isNone_iff_eq_none.2 (report?_of_mem_places h)
  have hsurplus := List.filter_eq_self.2 fun step h ↦ Option.isNone_iff_eq_none.2
    (report?_of_mem_surplus options (args.drop params.length) h)
  have hreport (p : Prop) [Decidable p] (error : CompileError) :
      (if p then [BindingStep.report error] else []).filter (·.report?.isNone) = [] := by
    split <;> rfl
  rw [← List.takeWhile_append_dropWhile (p := (!·.isMissing)) (l := places params args),
    List.filter_append] at hplaces
  simp only [bindingSteps, List.filter_append, hreport, hsurplus, List.append_nil, hplaces]
  rw [List.takeWhile_append_dropWhile]

/-- What binding does, place by place. -/
structure BindsByPlace : Prop where
  /-- Binding takes its steps in order, and does nothing else. -/
  steps : Lower.bindArguments options params args span =
    Lower.takeSteps span (bindingSteps options params args span)
  /-- Its reports are one that there are too few arguments, one that there are too many, or none. -/
  reports : (bindingSteps options params args span).filterMap (·.report?) =
    if args.length < neededCount params then
      [.tooFewArguments (neededCount params) args.length span]
    else if params.length < args.length then [.tooManyArguments params.length args.length span]
    else []
  /-- There are too few arguments if a parameter that got none has no default. -/
  tooFew_iff : args.length < neededCount params ↔
    ∃ i p, args.length ≤ i ∧ params[i]? = some p ∧ p.default? = none
  /-- The number that is needed then ends with the last parameter without a default. -/
  needed : args.length < neededCount params →
    ∃ last p, neededCount params = last + 1 ∧ params[last]? = some p ∧ p.default? = none ∧
      ∀ i q, last < i → params[i]? = some q → q.default? ≠ none
  /-- The other steps fill the places in order and, if that is asked for, evaluate the arguments that
  have no parameter. -/
  fillings : (bindingSteps options params args span).filter (·.report?.isNone) =
    params.mapIdx (fun i param ↦ .fill param args[i]?) ++
      if options.evaluateExcess then (args.drop params.length).map .surplus else []
  /-- A default is one constant. A trap stands for it if its type has no layout. -/
  default : ∀ value param s, ((BindingStep.default value param).run span).run s =
    match s.symbols.registry.layout? param.type with
    | some layout =>
      ⟨(), s, { code := [⟨s.line, .const (value.constant param.type layout.category)⟩] }⟩
    | none =>
      let error := .unsizedType (s.symbols.registry.typeName param.type) span
      ⟨(), s, { code := [⟨s.line, .trap⟩], errors := [error] }⟩
  /-- Where no argument and no default writes an error, the reports are all that is written. -/
  errors : (∀ step ∈ bindingSteps options params args span, step.report? = none →
      ∀ t, ((step.run span).run t).output.errors = []) →
    ∀ s, ((Lower.bindArguments options params args span).run s).output.errors =
      (bindingSteps options params args span).filterMap (·.report?)

/-- Binding fills every place by its argument, its default or a trap, and tells exactly once that there
are too few arguments or too many. -/
theorem Lower.bindsByPlace : BindsByPlace options params args span where
  steps := bindArguments_eq_takeSteps options params args span
  reports := filterMap_report?_bindingSteps options params args span
  tooFew_iff := lt_neededCount_iff
  needed := exists_last_of_lt_neededCount
  fillings := filter_isNone_report?_bindingSteps options params args span
  default value param s := run_pushDefault param.type span value s
  errors h s := by
    rw [bindArguments_eq_takeSteps]
    exact errors_takeSteps h s

/-- A default before a parameter without one is pushed, but does not lower the number that is
needed. -/
example :
    let x : Param := ⟨"x", Primitive.int32.fingerprint, some (.int 1)⟩
    let y : Param := ⟨"y", Primitive.int32.fingerprint, none⟩
    bindingSteps {} [x, y, x] [] .nowhere =
      [.default (.int 1) x, .report (.tooFewArguments 2 0 .nowhere), .missing, .default (.int 1) x] :=
  rfl

end

end StackLowering

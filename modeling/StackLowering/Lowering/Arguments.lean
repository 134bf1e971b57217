import StackLowering.Lowering.Operand

/-!
# Arguments

Binding the arguments of a call to the parameters of its target. Arguments are lowered in order, each
against the type of its parameter; a default stands in for an argument that is missing. What has no
default is reported once for the whole call and trapped in its place. Arguments in excess are reported,
and lowered only if that is asked for.

A parameter without a default may come after one with a default. The number of arguments that are
needed is counted up to the last parameter without a default (`neededCount`), and the report comes when
the first missing parameter without a default is reached: defaults before it are pushed before the
report, and those after it are pushed as well.

An integer default is brought into the range of its parameter while it is lowered (`Primitive.wrap`). A
truth value needs no such step, and a floating-point default of an integer parameter does not get one:
it is truncated, and pushed with as many low bits as the cell has (`DefaultValue.constant`).
-/

namespace StackLowering

/-- Choices that the user of the compiler makes. -/
structure CompilerOptions where
  /-- The function that allocates memory. -/
  allocator : String := "malloc"
  /-- Whether arguments in excess are evaluated although they have no parameter. -/
  evaluateExcess : Bool := false
deriving DecidableEq, Inhabited, Repr

/-! ### Defaults -/

/-- An integer brought into the range of a type that does not fill its cell; wider types and other
types leave it as it is. -/
def Primitive.wrap : Primitive → Int64 → Int64
  | int8, value => value.toInt8.toInt64
  | uint8, value => value.toUInt64.toUInt8.toUInt64.toInt64
  | int16, value => value.toInt16.toInt64
  | uint16, value => value.toUInt64.toUInt16.toUInt64.toInt64
  | bool, value => if value = 0 then 0 else 1
  | _, value => value

/-- The constant of a default for a parameter of a given type and category. A floating-point default
for an integer parameter is truncated. -/
def DefaultValue.constant (type : Fingerprint) : DefaultValue → Category → Constant
  | float bits, .f32 => .f32 (float32OfFloat64 bits)
  | float bits, .f64 => .f64 bits
  | float bits, category => .ofInt (int64OfFloat64 bits) category
  | int value, category =>
    match Primitive.ofFingerprint? type with
    | some kind => .ofInt (kind.wrap value) category
    | none => .ofInt value category
  | bool value, category => .ofInt (if value then 1 else 0) category

namespace Lower

/-- Pushes the default for a parameter of a given type, which has to have a layout. -/
def pushDefault (type : Fingerprint) (span : Span) (value : DefaultValue) : Lower Unit := do
  let registry ← registry
  match registry.layout? type with
  | some layout => emit (.const (value.constant type layout.category))
  | none => trap (.unsizedType (registry.typeName type) span)

/-- Supplies the value of a parameter that got no argument: its default, or a trap. -/
def supply (span : Span) (param : Param) : Lower Unit :=
  match param.default? with
  | some value => pushDefault param.type span value
  | none => emit .trap

end Lower

/-! ### Binding -/

/-- How many arguments are needed at least: the parameters up to the last one without a default. -/
def neededCount (params : List Param) : Nat :=
  (params.reverse.dropWhile (·.default?.isSome)).length

namespace Lower

/-- Supplies the parameters that got no argument; if one of them has no default, the shortfall is
reported when it is reached. -/
def supplyMissing (shortfall : CompileError) (span : Span) (missing : List Param) : Lower Unit := do
  (missing.takeWhile (·.default?.isSome)).forM (supply span)
  match missing.dropWhile (·.default?.isSome) with
  | [] => return ()
  | rest =>
    report shortfall
    rest.forM (supply span)

/-- Lowers arguments against the types of their parameters. -/
def checkArguments (pairs : List (Param × Operand)) : Lower Unit :=
  pairs.forM fun (param, arg) ↦ do
    discard (arg.checkOrTrap param.type)

/-- Reports the arguments that have no parameter, and evaluates them if that is asked for. -/
def rejectExcess (options : CompilerOptions) (excess : CompileError) (extra : List Operand) :
    Lower Unit :=
  match extra with
  | [] => return ()
  | extra => do
    report excess
    if options.evaluateExcess then extra.forM (·.evaluateAndDrop) else return ()

/-- Binds arguments to parameters. -/
def bindArguments (options : CompilerOptions) (params : List Param) (args : List Operand)
    (span : Span) : Lower Unit := do
  checkArguments (params.zip args)
  supplyMissing (.tooFewArguments (neededCount params) args.length span) span
    (params.drop args.length)
  rejectExcess options (.tooManyArguments params.length args.length span)
    (args.drop params.length)

end Lower

end StackLowering

import OperatorDispatch.Clock.ContextFunction
import OperatorDispatch.Machine.Comparison
import OperatorDispatch.Proofs.Machine.Action

/-!
# The typed stack machine

The machine runs actions on types in place of values.  It knows the types of the operands of a call
and pushes them in order; every other action takes its inputs from the stack and leaves the type of
its result.  An action that finds too few inputs, or inputs of other types than it works on, stops
the machine.  A result may be NULL as soon as one input may be.
-/

namespace OperatorDispatch

namespace LogicalType

/-- Whether a value of one of the types may be NULL. -/
def anyNullable (types : List LogicalType) : Bool :=
  types.any (·.nullable)

end LogicalType

@[simp]
theorem CompareKind.ofCode?_code (kind : CompareKind) : ofCode? kind.code = some kind := by
  cases kind <;> rfl

@[simp]
theorem ValueClass.ofCode?_code (valueClass : ValueClass) :
    ofCode? valueClass.code = some valueClass := by
  cases valueClass <;> rfl

@[simp]
theorem EvalScope.ofCode?_code (scope : EvalScope) : ofCode? scope.code = some scope := by
  cases scope <;> rfl

@[simp]
theorem TimePoint.getElem?_all_code (point : TimePoint) :
    all[point.code.toNat]? = some point := by
  cases point <;> rfl

/-- Whether the constant can stand on the stack.  The identity of an operator cannot. -/
def Constant.isValue : Constant → Bool
  | .operator _ => false
  | _ => true

namespace Opcode

/-- The roots that an opcode works on and the root of its result, for the opcodes of numeric
primitives. -/
def primitive? : Opcode → Option (List TypeRoot × TypeRoot)
  | i8ToI16 => some ([.tinyInt], .smallInt)
  | i8ToI32 => some ([.tinyInt], .integer)
  | i8ToI64 => some ([.tinyInt], .bigInt)
  | i8ToF32 => some ([.tinyInt], .float)
  | i8ToF64 => some ([.tinyInt], .double)
  | i16ToI32 => some ([.smallInt], .integer)
  | i16ToI64 => some ([.smallInt], .bigInt)
  | i16ToF32 => some ([.smallInt], .float)
  | i16ToF64 => some ([.smallInt], .double)
  | i32ToI64 => some ([.integer], .bigInt)
  | i32ToF32 => some ([.integer], .float)
  | i32ToF64 => some ([.integer], .double)
  | i64ToF32 => some ([.bigInt], .float)
  | i64ToF64 => some ([.bigInt], .double)
  | f32ToF64 => some ([.float], .double)
  | addI32 | subI32 | mulI32 | divI32 | modI32 => some ([.integer, .integer], .integer)
  | addI64 | subI64 | mulI64 | divI64 | modI64 => some ([.bigInt, .bigInt], .bigInt)
  | addF32 | subF32 | mulF32 | divF32 => some ([.float, .float], .float)
  | addF64 | subF64 | mulF64 | divF64 => some ([.double, .double], .double)
  | negI32 => some ([.integer], .integer)
  | negI64 => some ([.bigInt], .bigInt)
  | negF32 => some ([.float], .float)
  | negF64 => some ([.double], .double)
  | _ => none

/-- The number of values that an opcode takes from the stack, calls of the runtime apart. -/
def inputs (opcode : Opcode) : Nat :=
  match opcode.primitive? with
  | some (roots, _) => roots.length
  | none =>
      match opcode with
      | addDec | subDec | mulDec | divDec | modDec | compare => 2
      | negDec => 1
      | _ => 0

/-- The type that arithmetic on decimals leaves; the operand bytes say precision and scale. -/
def decimalResult? (precision scale : UInt8) (inputs : List LogicalType) : Option LogicalType :=
  if inputs.map (·.root) = [.decimal, .decimal] then
    (LogicalType.decimal precision scale).toOption.map
      (·.withNullable (LogicalType.anyNullable inputs))
  else
    none

/-- The type that a comparison leaves; the operand bytes say the relation and the class of both
inputs. -/
def compareResult? (kind valueClass : UInt8) (inputs : List LogicalType) : Option LogicalType := do
  let _ ← CompareKind.ofCode? kind
  let valueClass ← ValueClass.ofCode? valueClass
  if inputs.map (ValueClass.ofRoot? ·.root) = [some valueClass, some valueClass] then
    some ((LogicalType.simple .boolean).withNullable (LogicalType.anyNullable inputs))
  else
    none

/-- The type that reading the clock leaves; the operand bytes say the time point and the scope. -/
def timePointResult? (point scope : UInt8) : Option LogicalType := do
  let point ← TimePoint.all[point.toNat]?
  let _ ← EvalScope.ofCode? scope
  return point.resultType

/-- The type that an opcode leaves which does not work on numeric primitives. -/
def otherResult? : Opcode → List UInt8 → List LogicalType → Option LogicalType
  | addDec, [precision, scale], inputs => decimalResult? precision scale inputs
  | subDec, [precision, scale], inputs => decimalResult? precision scale inputs
  | mulDec, [precision, scale], inputs => decimalResult? precision scale inputs
  | divDec, [precision, scale], inputs => decimalResult? precision scale inputs
  | modDec, [precision, scale], inputs => decimalResult? precision scale inputs
  | negDec, [], [input] => if input.root = .decimal then some input else none
  | compare, [kind, valueClass], inputs => compareResult? kind valueClass inputs
  | timePoint, [point, scope], [] => timePointResult? point scope
  | _, _, _ => none

/-- The type that an opcode leaves, for operand bytes and for the types of its inputs in the order
in which they were pushed. -/
def result? (opcode : Opcode) (operands : List UInt8) (inputs : List LogicalType) :
    Option LogicalType :=
  match opcode.primitive? with
  | some (roots, target) =>
      if operands = [] ∧ inputs.map (·.root) = roots then
        some ((LogicalType.simple target).withNullable (LogicalType.anyNullable inputs))
      else
        none
  | none => opcode.otherResult? operands inputs

theorem inputs_of_primitive? {opcode : Opcode} {roots : List TypeRoot} {target : TypeRoot}
    (known : opcode.primitive? = some (roots, target)) : opcode.inputs = roots.length := by
  unfold inputs
  rw [known]

theorem result?_of_primitive? {opcode : Opcode} {roots : List TypeRoot} {target : TypeRoot}
    (known : opcode.primitive? = some (roots, target)) {types : List LogicalType}
    (matched : types.map (·.root) = roots) :
    opcode.result? [] types =
      some ((LogicalType.simple target).withNullable (LogicalType.anyNullable types)) := by
  rw [result?, known]
  exact if_pos ⟨rfl, matched⟩

theorem result?_negDec {type : LogicalType} (decimal : type.root = .decimal) :
    negDec.result? [] [type] = some type :=
  if_pos decimal

theorem result?_compare {kind : CompareKind} {valueClass : ValueClass} {root : TypeRoot}
    (comparable : ValueClass.ofRoot? root = some valueClass) {types : List LogicalType}
    (matched : types.map (·.root) = [root, root]) :
    compare.result? [kind.code, valueClass.code] types =
      some ((LogicalType.simple .boolean).withNullable (LogicalType.anyNullable types)) := by
  have classes : types.map (ValueClass.ofRoot? ·.root) = [some valueClass, some valueClass] := by
    have mapped := congrArg (List.map ValueClass.ofRoot?) matched
    rw [List.map_map, List.map_cons, List.map_cons, List.map_nil, comparable] at mapped
    exact mapped
  change compareResult? kind.code valueClass.code types = _
  rw [compareResult?, CompareKind.ofCode?_code, ValueClass.ofCode?_code]
  exact if_pos classes

theorem result?_timePoint (point : TimePoint) (scope : EvalScope) :
    timePoint.result? [point.code, scope.code] [] = some point.resultType := by
  change timePointResult? point.code scope.code = _
  rw [timePointResult?, TimePoint.getElem?_all_code, EvalScope.ofCode?_code]
  rfl

theorem primitive?_of_widening? {source target : TypeRoot} {opcode : Opcode}
    (converts : widening? source target = some opcode) :
    opcode.primitive? = some ([source], target) := by
  rw [widening?.eq_def] at converts
  split at converts <;> cases converts <;> rfl

end Opcode

/-- The types that the runtime gives for calls, by the identity of the operator and the types of the
arguments in order. -/
abbrev Runtime := UInt64 → List LogicalType → Option LogicalType

/-- A machine between two actions. -/
structure TypedMachine where
  /-- The types of the operands still to be pushed. -/
  pending : List LogicalType
  /-- The types of the values on the stack, topmost first. -/
  stack : List LogicalType
  deriving DecidableEq, Repr

namespace TypedMachine

/-- Pushes the next operand. -/
def pushOperand (machine : TypedMachine) : Option TypedMachine :=
  match machine.pending with
  | [] => none
  | type :: pending => some ⟨pending, type :: machine.stack⟩

/-- Takes `count` values from the stack and leaves one. -/
def reduce (count : Nat) (result? : List LogicalType → Option LogicalType)
    (machine : TypedMachine) : Option TypedMachine :=
  if count ≤ machine.stack.length then
    (result? (machine.stack.take count).reverse).map fun type =>
      { machine with stack := type :: machine.stack.drop count }
  else
    none

/-- The machine after an action. -/
def step (runtime : Runtime) (machine : TypedMachine) : Action → Option TypedMachine
  | .load _ => machine.pushOperand
  | .push constant => if constant.isValue then machine.pushOperand else none
  | .direct .pushNull [] => machine.pushOperand
  | .direct opcode operands => machine.reduce opcode.inputs (opcode.result? operands)
  | .call identity arguments => machine.reduce arguments (runtime identity)

/-- The machine after a sequence of actions. -/
def run (runtime : Runtime) (machine : TypedMachine) (actions : List Action) :
    Option TypedMachine :=
  actions.foldlM (step runtime) machine

theorem run_cons (runtime : Runtime) (machine : TypedMachine) (action : Action)
    (actions : List Action) :
    run runtime machine (action :: actions) =
      (step runtime machine action).bind fun machine => run runtime machine actions :=
  List.foldlM_cons

theorem run_append (runtime : Runtime) (machine : TypedMachine) (first second : List Action) :
    run runtime machine (first ++ second) =
      (run runtime machine first).bind fun machine => run runtime machine second :=
  List.foldlM_append

/-- The values that were pushed last are the inputs. -/
theorem reduce_append (result? : List LogicalType → Option LogicalType)
    {types : List LogicalType} {count : Nat} (counted : types.length = count)
    (pending stack : List LogicalType) :
    reduce count result? ⟨pending, types.reverse ++ stack⟩ =
      (result? types).map fun type => ⟨pending, type :: stack⟩ := by
  have reversed : types.reverse.length = count := by rw [List.length_reverse, counted]
  have enough : count ≤ (types.reverse ++ stack).length := by
    rw [List.length_append, reversed]
    exact Nat.le_add_right _ _
  rw [reduce, if_pos enough, List.take_left' reversed, List.drop_left' reversed,
    List.reverse_reverse]

/-- An instruction that has a type for its inputs takes them and leaves a value of that type. -/
theorem step_direct (runtime : Runtime) {opcode : Opcode} {operands : List UInt8}
    {types : List LogicalType} {type : LogicalType} (other : opcode ≠ .pushNull)
    (counted : types.length = opcode.inputs) (typed : opcode.result? operands types = some type)
    (pending stack : List LogicalType) :
    step runtime ⟨pending, types.reverse ++ stack⟩ (.direct opcode operands) =
      some ⟨pending, type :: stack⟩ := by
  have reduced : reduce opcode.inputs (opcode.result? operands)
      ⟨pending, types.reverse ++ stack⟩ = some ⟨pending, type :: stack⟩ := by
    rw [reduce_append _ counted, typed]
    rfl
  rw [← reduced, step]
  rintro rfl
  contradiction

theorem step_primitive (runtime : Runtime) {opcode : Opcode} {roots : List TypeRoot}
    {target : TypeRoot} (known : opcode.primitive? = some (roots, target))
    {types : List LogicalType} (matched : types.map (·.root) = roots)
    (pending stack : List LogicalType) :
    step runtime ⟨pending, types.reverse ++ stack⟩ (.direct opcode []) =
      some ⟨pending,
        (LogicalType.simple target).withNullable (LogicalType.anyNullable types) :: stack⟩ := by
  have other : opcode ≠ .pushNull := by
    rintro rfl
    contradiction
  have counted : types.length = opcode.inputs := by
    rw [Opcode.inputs_of_primitive? known, ← matched, List.length_map]
  exact step_direct runtime other counted (Opcode.result?_of_primitive? known matched) pending stack

theorem step_conversion (runtime : Runtime) {type : LogicalType} {target : TypeRoot}
    {opcode : Opcode} (converts : Opcode.widening? type.root target = some opcode)
    (pending stack : List LogicalType) :
    step runtime ⟨pending, type :: stack⟩ (.direct opcode []) =
      some ⟨pending, (LogicalType.simple target).withNullable type.nullable :: stack⟩ := by
  have alone : [type].map (·.root) = [type.root] := rfl
  have stepped :=
    step_primitive runtime (Opcode.primitive?_of_widening? converts) alone pending stack
  rw [LogicalType.anyNullable, List.any_cons, List.any_nil, Bool.or_false] at stepped
  exact stepped

-- Without the conversion of its first operand, a sum of two widths stops the machine.
example :
    run (fun _ _ => none) ⟨[.simple .integer, .simple .bigInt], []⟩
      [.load 0, .load 1, .direct .addI64 []] = none := rfl

end TypedMachine
end OperatorDispatch

import OperatorDispatch.Call.Strategy
import OperatorDispatch.Overload.Resolution

/-!
# Compiling calls

A session compiles calls against one table of overloads.  It remembers the overload chosen for
each operator and list of roots, also that there is none, and pools the constants of all its
calls.  A call that fails leaves the pool as it was.
-/

namespace OperatorDispatch

/-- A compiled call. -/
structure CompiledCall where
  /-- The instructions. -/
  code : Bytecode
  /-- The type of the result. -/
  resultType : LogicalType
  /-- How the overload was matched. -/
  kind : MatchKind
  deriving DecidableEq, Repr

/-- The state of a compilation. -/
structure Session where
  /-- The overloads. -/
  table : OverloadTable Strategy
  /-- The outcomes of the choices made so far. -/
  memo : Std.HashMap CallKey (Option (Resolution Strategy)) := ∅
  /-- The constants of the calls compiled so far. -/
  pool : ConstantPool := {}
  /-- The events so far, oldest first. -/
  journal : Array Event := #[]

namespace Session

/-- The number of operators and lists of roots for which a choice was made. -/
def memoized (session : Session) : Nat :=
  session.memo.size

/-- Adds an event to the journal. -/
def note (session : Session) (event : Event) : Session :=
  { session with journal := session.journal.push event }

/-- The overload chosen for a call.  A choice is made and reported once. -/
def resolve (session : Session) (operator : Operator) (roots : List TypeRoot) :
    Option (Resolution Strategy) × Session :=
  let key : CallKey := ⟨operator.identity, roots⟩
  match session.memo[key]? with
  | some outcome => (outcome, session)
  | none =>
      let outcome := session.table.resolve operator roots
      let session := { session with memo := session.memo.insert key outcome }
      (outcome, session.note (OverloadTable.outcomeEvent operator roots outcome))

/-- Compiles a call for which an overload has been chosen. -/
def compileResolved (session : Session) (operator : Operator) (operands : List Operand)
    (resolution : Resolution Strategy) : Except CallError CompiledCall × Session :=
  let signature := resolution.overload.signature
  match resolution.overload.strategy.emit ⟨operator, signature, operands⟩
      { pool := session.pool } with
  | .ok resultType state =>
      let event := .compiledCall operator.name signature resultType state.code.size
      (.ok ⟨state.code, resultType, resolution.kind⟩,
        { session with pool := state.pool }.note event)
  | .error cause state =>
      (.error cause, { session with pool := state.pool.truncate session.pool.size })

/-- Compiles a call. -/
def compile (session : Session) (operator : Operator) (operands : List Operand) :
    Except CallError CompiledCall × Session :=
  match session.resolve operator (operands.map (·.root)) with
  | (some resolution, session) => session.compileResolved operator operands resolution
  | (none, session) =>
      let types := operands.map (·.type)
      (.error (.noMatchingSignature operator.name types),
        session.note (.unmatchedCall operator.name types))

end Session
end OperatorDispatch

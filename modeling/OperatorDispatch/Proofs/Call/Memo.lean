import Mathlib.Data.Finset.Card
import OperatorDispatch.Proofs.Call.Compilation
import OperatorDispatch.Proofs.Overload.Registration

/-!
# An exact memory

A session is asked for choices and compiles calls, in any order and into any pool.  Each key is
searched for once, for the first question that has it; later questions get the same answer from
memory, without a look at the table.  One request carries this description to the next session,
and a sequence of requests carries it along.
-/

namespace OperatorDispatch

namespace Registration

variable {σ : Type}

theorem mem_keys_append_singleton {calls : List (Overload σ)} {call : Overload σ} {key : CallKey} :
    key ∈ keys (calls ++ [call]) ↔ key ∈ keys calls ∨ key = call.key := by
  rw [keys, List.map_append, List.mem_append, List.map_singleton, List.mem_singleton]

theorem length_firsts (calls : List (Overload σ)) :
    (firsts calls).length = (keys calls).toFinset.card := by
  have sameKeys : (keys (firsts calls)).toFinset = (keys calls).toFinset := by
    ext key
    simp only [List.mem_toFinset, mem_keys_firsts]
  rw [← sameKeys, List.toFinset_card_of_nodup (nodup_keys_firsts calls), List.length_map]

end Registration

open Registration

/-- A question for an overload: its operator and the roots of the operands, with the strategy left
open. -/
abbrev Question := Overload Unit

/-- The question that a call raises. -/
def Question.ofCall (operator : Operator) (operands : List Operand) : Question :=
  ⟨⟨operator, operands.map (·.root)⟩, ()⟩

namespace OverloadTable

/-- The overload that the table gives for a question. -/
def answer (table : OverloadTable Strategy) (question : Question) : Option (Resolution Strategy) :=
  table.resolve question.operator question.signature

/-- The event that reports a search of the table. -/
def report (table : OverloadTable Strategy) (question : Question) : Event :=
  outcomeEvent question.operator question.signature (table.answer question)

theorem isMatchOutcome_report (table : OverloadTable Strategy) (question : Question) :
    (table.report question).isMatchOutcome = true := by
  rw [report, outcomeEvent.eq_def]
  split
  · rfl
  · rfl
  · split <;> rfl

end OverloadTable

/-- Something that is asked of a session. -/
inductive Request where
  /-- The overload for an operator and the roots of its operands. -/
  | choice (question : Question)
  /-- A compiled call. -/
  | call (operator : Operator) (operands : List Operand)
  /-- That the calls to come add their constants to another pool. -/
  | pool (pool : ConstantPool)

/-- The question that the request raises. -/
def Request.question? : Request → Option Question
  | choice question => some question
  | call operator operands => some (.ofCall operator operands)
  | pool _ => none

/-- The questions that requests raise, in order. -/
def Request.questions (requests : List Request) : List Question :=
  requests.filterMap question?

namespace Session

/-- The session after a request. -/
def after (session : Session) : Request → Session
  | .choice question => (session.resolve question.operator question.signature).2
  | .call operator operands => (session.compile operator operands).2
  | .pool pool => { session with pool }

/-- The session after requests, one after the other. -/
def afterAll (session : Session) (requests : List Request) : Session :=
  requests.foldl after session

/-- The reports of searches of the table, oldest first. -/
def searches (session : Session) : List Event :=
  session.journal.toList.filter (·.isMatchOutcome)

/-! ## What is reported -/

theorem searches_note (session : Session) (event : Event) :
    (session.note event).searches =
      session.searches ++ if event.isMatchOutcome then [event] else [] := by
  rw [searches, note, Array.toList_push, List.filter_append, List.filter_singleton]
  cases event.isMatchOutcome <;> rfl

theorem searches_compileResolved (session : Session) (operator : Operator)
    (operands : List Operand) (resolution : Resolution Strategy) :
    (session.compileResolved operator operands resolution).2.searches = session.searches := by
  rw [compileResolved]
  split
  · exact (searches_note _ _).trans (List.append_nil _)
  · rfl

/-! ## One question -/

theorem resolve_of_getElem? {session : Session} (question : Question)
    {outcome : Option (Resolution Strategy)}
    (remembered : session.memo[question.key]? = some outcome) :
    session.resolve question.operator question.signature = (outcome, session) := by
  have held : session.memo[(⟨question.operator.identity, question.signature⟩ : CallKey)]? =
      some outcome := remembered
  simp only [resolve, held]

theorem resolve_of_not_mem {session : Session} {question : Question}
    (new : question.key ∉ session.memo) :
    session.resolve question.operator question.signature =
      (session.table.answer question,
        { session with
          memo := session.memo.insert question.key (session.table.answer question) }.note
            (session.table.report question)) := by
  have absent : session.memo[(⟨question.operator.identity, question.signature⟩ : CallKey)]? =
      none := Std.HashMap.getElem?_eq_none new
  simp only [resolve, absent]
  rfl

theorem compile_of_getElem? {session : Session} {operator : Operator} {operands : List Operand}
    {outcome : Option (Resolution Strategy)}
    (remembered : session.memo[(Question.ofCall operator operands).key]? = some outcome)
    (other : OverloadTable Strategy) :
    ({ session with table := other }.compile operator operands).1 =
      (session.compile operator operands).1 := by
  have here : session.resolve operator (operands.map (·.root)) = (outcome, session) :=
    resolve_of_getElem? (.ofCall operator operands) remembered
  have there : Session.resolve { session with table := other } operator (operands.map (·.root)) =
      (outcome, { session with table := other }) :=
    resolve_of_getElem? (.ofCall operator operands) remembered
  rw [compile, compile, here, there]
  cases outcome with
  | none => rfl
  | some resolution =>
      simp only [compileResolved]
      cases resolution.overload.strategy.emit
        ⟨operator, resolution.overload.signature, operands⟩ { pool := session.pool } with
      | ok type state => rfl
      | error cause state => rfl

/-! ## The invariant -/

/-- The session has been asked these questions about the table, and has searched the table for the
first question of each key. -/
structure Remembers (table : OverloadTable Strategy) (asked : List Question)
    (session : Session) : Prop where
  /-- What is remembered is what the table answers. -/
  faithful : session.Faithful
  /-- The table stays. -/
  table_eq : session.table = table
  /-- Exactly the keys that were asked for are remembered. -/
  mem_memo : ∀ key, key ∈ session.memo ↔ key ∈ keys asked
  /-- Each of them once. -/
  memoized_eq : session.memoized = (firsts asked).length
  /-- Each first question was searched for. -/
  searches_eq : session.searches = (firsts asked).map table.report

theorem remembers_session (context : Context) : Remembers context.table [] context.session where
  faithful := faithful_session context
  table_eq := rfl
  mem_memo key := by simp [Context.session]
  memoized_eq := Std.HashMap.size_empty
  searches_eq := rfl

namespace Remembers

variable {table : OverloadTable Strategy} {asked : List Question} {session : Session}

/-- The pool plays no part, nor do events other than reports of searches. -/
theorem of_same {later : Session} (remembers : Remembers table asked session)
    (sameTable : later.table = session.table) (sameMemo : later.memo = session.memo)
    (sameSearches : later.searches = session.searches) : Remembers table asked later where
  faithful := by
    rw [Faithful, sameTable, sameMemo]
    exact remembers.faithful
  table_eq := sameTable.trans remembers.table_eq
  mem_memo := by
    rw [sameMemo]
    exact remembers.mem_memo
  memoized_eq := by
    rw [memoized, sameMemo]
    exact remembers.memoized_eq
  searches_eq := sameSearches.trans remembers.searches_eq

theorem getElem?_memo (remembers : Remembers table asked session) {question : Question}
    (old : question.key ∈ keys asked) :
    session.memo[question.key]? = some (table.answer question) := by
  have known : question.key ∈ session.memo := (remembers.mem_memo _).2 old
  have held := Std.HashMap.getElem?_eq_some_getElem known
  rw [held, remembers.faithful _ _ _ held, remembers.table_eq]
  rfl

theorem append_of_mem (remembers : Remembers table asked session) {question : Question}
    (old : question.key ∈ keys asked) :
    Remembers table (asked ++ [question]) session := by
  have sameFirsts : firsts (asked ++ [question]) = firsts asked := by
    rw [firsts_append, if_pos old]
  refine { remembers with mem_memo := fun key => ?_, memoized_eq := ?_, searches_eq := ?_ }
  · rw [remembers.mem_memo, mem_keys_append_singleton]
    exact ⟨.inl, fun here => here.elim id fun same => same ▸ old⟩
  · rw [sameFirsts, remembers.memoized_eq]
  · rw [sameFirsts, remembers.searches_eq]

theorem append_of_not_mem (remembers : Remembers table asked session) {question : Question}
    (new : question.key ∉ keys asked) :
    Remembers table (asked ++ [question])
      ({ session with
        memo := session.memo.insert question.key (session.table.answer question) }.note
          (session.table.report question)) := by
  have moreFirsts : firsts (asked ++ [question]) = firsts asked ++ [question] := by
    rw [firsts_append, if_neg new]
  have unknown : question.key ∉ session.memo := mt (remembers.mem_memo _).1 new
  constructor
  case faithful => exact remembers.faithful.insert question.operator question.signature
  case table_eq => exact remembers.table_eq
  case mem_memo =>
    intro key
    rw [mem_keys_append_singleton, ← remembers.mem_memo]
    exact Std.HashMap.mem_insert.trans (by rw [beq_iff_eq, or_comm, eq_comm])
  case memoized_eq =>
    rw [moreFirsts, List.length_append, ← remembers.memoized_eq]
    exact Std.HashMap.size_insert.trans (if_neg unknown)
  case searches_eq =>
    rw [searches_note, if_pos (session.table.isMatchOutcome_report question), moreFirsts,
      List.map_append, ← remembers.searches_eq, remembers.table_eq]
    rfl

/-- The step lemma for one question. -/
theorem resolve (remembers : Remembers table asked session) (question : Question) :
    Remembers table (asked ++ [question])
      (session.resolve question.operator question.signature).2 := by
  by_cases old : question.key ∈ keys asked
  · rw [resolve_of_getElem? question (remembers.getElem?_memo old)]
    exact remembers.append_of_mem old
  · rw [resolve_of_not_mem (mt (remembers.mem_memo _).1 old)]
    exact remembers.append_of_not_mem old

/-- The step lemma for one call: it raises its question, and nothing else is remembered. -/
theorem compile (remembers : Remembers table asked session) (operator : Operator)
    (operands : List Operand) :
    Remembers table (asked ++ [.ofCall operator operands])
      (session.compile operator operands).2 := by
  have resolved : Remembers table (asked ++ [.ofCall operator operands])
      (session.resolve operator (operands.map (·.root))).2 :=
    remembers.resolve (.ofCall operator operands)
  rw [Session.compile]
  split
  · next resolution after chosen =>
      rw [chosen] at resolved
      obtain ⟨pool, journal, same⟩ := compileResolved_snd after operator operands resolution
      refine resolved.of_same ?_ ?_ (searches_compileResolved after operator operands resolution)
      · rw [same]
      · rw [same]
  · next after missed =>
      rw [missed] at resolved
      exact resolved.of_same rfl rfl ((searches_note _ _).trans (List.append_nil _))

/-- The step lemma. -/
theorem after (remembers : Remembers table asked session) (request : Request) :
    Remembers table (asked ++ request.question?.toList) (session.after request) := by
  cases request with
  | choice question => exact remembers.resolve question
  | call operator operands => exact remembers.compile operator operands
  | pool pool =>
      rw [Request.question?, Option.toList_none, List.append_nil]
      exact remembers.of_same rfl rfl rfl

/-- The run lemma. -/
theorem afterAll (remembers : Remembers table asked session) (requests : List Request) :
    Remembers table (asked ++ Request.questions requests) (session.afterAll requests) := by
  induction requests generalizing asked session with
  | nil =>
      rw [Request.questions, List.filterMap_nil, List.append_nil]
      exact remembers
  | cons request requests induction =>
      have remembered := induction (remembers.after request)
      have questions : Request.questions (request :: requests) =
          request.question?.toList ++ Request.questions requests := by
        rw [Request.questions, List.filterMap_cons]
        cases request.question? <;> rfl
      rw [questions, ← List.append_assoc]
      exact remembered

end Remembers

/-! ## The exact memory -/

/-- Once these questions were asked, the session answers as the table does, remembers each key once,
and has searched the table once for each key, at its first question. -/
structure ExactMemory (table : OverloadTable Strategy) (asked : List Question)
    (session : Session) : Prop where
  /-- Every choice is the one that the table makes. -/
  resolve_eq : ∀ operator roots,
    (session.resolve operator roots).1 = table.resolve operator roots
  /-- Every call goes as it does when the choice is made anew. -/
  compile_eq : ∀ operator operands,
    (session.compile operator operands).1 =
      (table.compileAnew session.pool operator operands).1
  /-- As many choices are remembered as there are keys. -/
  memoized_eq : session.memoized = (keys asked).toFinset.card
  /-- The searches so far were for the first question of each key. -/
  searches_eq : session.searches = (firsts asked).map table.report
  /-- There was one search for each key. -/
  length_searches : session.searches.length = (keys asked).toFinset.card
  /-- The next request searches the table exactly if it raises a question with a new key. -/
  searches_after : ∀ request, (session.after request).searches = session.searches ++
    (request.question?.toList.filter (·.key ∉ keys asked)).map table.report
  /-- A question with an old key is answered whatever the table has become. -/
  resolve_of_old : ∀ question : Question, question.key ∈ keys asked → ∀ other,
    { session with table := other }.resolve question.operator question.signature =
      (table.answer question, { session with table := other })
  /-- So is a call that raises such a question. -/
  compile_of_old : ∀ operator operands,
    (Question.ofCall operator operands).key ∈ keys asked → ∀ other,
      ({ session with table := other }.compile operator operands).1 =
        (session.compile operator operands).1

theorem Remembers.exactMemory {table : OverloadTable Strategy} {asked : List Question}
    {session : Session} (remembers : Remembers table asked session) :
    ExactMemory table asked session where
  resolve_eq operator roots := by
    obtain ⟨after, resolved, -⟩ := remembers.faithful.resolve operator roots
    rw [resolved, remembers.table_eq]
  compile_eq operator operands := by
    rw [(remembers.faithful.compile_eq operator operands).1, remembers.table_eq]
  memoized_eq := by rw [remembers.memoized_eq, length_firsts]
  searches_eq := remembers.searches_eq
  length_searches := by rw [remembers.searches_eq, List.length_map, length_firsts]
  searches_after request := by
    rw [(remembers.after request).searches_eq, remembers.searches_eq]
    cases request.question? with
    | none => simp
    | some question =>
        rw [Option.toList_some, firsts_append]
        by_cases old : question.key ∈ keys asked
        · rw [if_pos old, List.filter_cons_of_neg (by simpa using old)]
          exact (List.append_nil _).symm
        · rw [if_neg old, List.filter_cons_of_pos (by simpa using old)]
          exact List.map_append
  resolve_of_old question old other := resolve_of_getElem? question (remembers.getElem?_memo old)
  compile_of_old operator operands old :=
    compile_of_getElem? (remembers.getElem?_memo old)

/-- After any requests, the memory of a fresh session is exact for the questions raised so far. -/
theorem exactMemory_afterAll (context : Context) (requests : List Request) :
    ExactMemory context.table (Request.questions requests)
      (context.session.afterAll requests) :=
  ((remembers_session context).afterAll requests).exactMemory

end Session
end OperatorDispatch

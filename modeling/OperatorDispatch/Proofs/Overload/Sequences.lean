import OperatorDispatch.Proofs.Overload.Choice
import OperatorDispatch.Proofs.Overload.Construction

/-!
# Tables of related sequences

Two sequences of registrations are compared by the tables that are built from them.  A sequence that
goes on with new keys only leaves every choice of the shorter one as it was, except that an exact
match may take the place of a widened one.  Two sequences that agree on the registrations of each
operator give tables that answer alike, however the operators are interleaved.
-/

namespace OperatorDispatch

variable {σ : Type}

open Registration

/-! ## What is built -/

namespace TableBuilder

theorem records_ofCalls (settings : Settings) (calls : List (Overload σ)) :
    (ofCalls settings calls).Records calls :=
  records_registerAll settings calls

theorem overloads_of_build {settings : Settings} {calls : List (Overload σ)}
    {table : OverloadTable σ} (built : (ofCalls settings calls).build = .ok table) :
    table.overloads = settled calls := by
  rw [eq_of_build built]
  exact (records_ofCalls settings calls).overloads_eq

theorem exists_build_iff (settings : Settings) (calls : List (Overload σ)) :
    (∃ table, (ofCalls settings calls).build = .ok table) ↔
      settings.duplicates = .overwrite ∨ (keys calls).Nodup := by
  have same : (ofCalls settings calls).settings = settings := settings_registerAll _ _
  rcases (records_ofCalls settings calls).build_cases with
    ⟨refused, repeated, heading, -, failed⟩ | ⟨accepted, built⟩
  · rw [same] at refused
    simp [failed, refused, repeated]
  · rw [same] at accepted
    simp [built, accepted]

end TableBuilder

/-! ## Sequences that go on -/

namespace Registration

theorem settled_append_of_disjoint {earlier later : List (Overload σ)}
    (apart : (keys earlier).Disjoint (keys later)) :
    settled (earlier ++ later) = settled earlier ++ settled later := by
  induction later using List.reverseRecOn with
  | nil => simp [settled, firsts]
  | append_singleton later call induction =>
      simp only [keys, List.map_append, List.disjoint_append_right] at apart
      have new : call.key ∉ keys earlier := by
        simpa [List.disjoint_singleton] using apart.2
      rw [← List.append_assoc, settled_append, settled_append, induction apart.1]
      by_cases known : call.key ∈ keys later
      · have known' : call.key ∈ keys (earlier ++ later) := by simp [keys, known]
        have held : call.key ∉ keys (settled earlier) := by rwa [mem_keys_settled]
        rw [if_pos known, if_pos known', TableBuilder.replace, List.map_append]
        exact congrArg (· ++ _) (replace_of_not_mem call.strategy held)
      · have unknown' : call.key ∉ keys (earlier ++ later) := by
          simp [keys, known, new]
        rw [if_neg known, if_neg unknown', List.append_assoc]

end Registration

namespace OverloadTable

variable {overloads added : List (Overload σ)} {operator : Operator} {roots : List TypeRoot}
  {resolution : Resolution σ}

theorem scan_append_of_not_mem (absent : ⟨operator.identity, roots⟩ ∉ keys added)
    (chosen : scan overloads operator roots = some resolution) :
    scan (overloads ++ added) operator roots = some resolution := by
  rw [scan] at chosen ⊢
  rw [List.find?_append, find?_key_eq_none absent, Option.or_none]
  cases exact : overloads.find? fun overload => overload.key = ⟨operator.identity, roots⟩ with
  | some overload =>
      rw [exact] at chosen
      exact chosen
  | none =>
      rw [exact] at chosen
      obtain ⟨first, found, rfl⟩ := Option.map_eq_some_iff.1 chosen
      rw [List.find?_append, found]
      rfl

theorem scan_append_of_mem (new : ⟨operator.identity, roots⟩ ∉ keys overloads)
    (registered : ⟨operator.identity, roots⟩ ∈ keys added) :
    ∃ overload ∈ added, overload.key = ⟨operator.identity, roots⟩ ∧
      scan (overloads ++ added) operator roots = some ⟨overload, .exact⟩ := by
  obtain ⟨overload, found⟩ := (mem_keys_iff_find? _ _).1 registered
  refine ⟨overload, List.mem_of_find?_eq_some found, by simpa using List.find?_some found, ?_⟩
  rw [scan, List.find?_append, find?_key_eq_none new, Option.none_or, found]

theorem mem_of_scan_append (missed : scan overloads operator roots = none)
    (chosen : scan (overloads ++ added) operator roots = some resolution) :
    resolution.overload ∈ added := by
  obtain ⟨member, accepted⟩ := accepts_of_scan chosen
  rcases List.mem_append.1 member with before | after
  · obtain ⟨earlier, found⟩ := (exists_scan_iff _ _ _).2 ⟨_, before, accepted⟩
    rw [missed] at found
    contradiction
  · exact after

end OverloadTable

/-- A sequence of registrations goes on with keys that are new, and there is a table either way.
Every choice of the first table is the choice of the second one, unless the key of the call is among
the new ones; then a widened match gives way to the exact match of what is registered for the key.
What the first table misses can only take what is registered later. -/
theorem TableBuilder.resolve_of_continued (settings : Settings) {earlier later : List (Overload σ)}
    (apart : (keys earlier).Disjoint (keys later)) {table wider : OverloadTable σ}
    (built : (ofCalls settings earlier).build = .ok table)
    (builtWider : (ofCalls settings (earlier ++ later)).build = .ok wider)
    (operator : Operator) (roots : List TypeRoot) :
    (∀ resolution, table.resolve operator roots = some resolution →
      (⟨operator.identity, roots⟩ ∉ keys later →
        wider.resolve operator roots = some resolution) ∧
      (⟨operator.identity, roots⟩ ∈ keys later →
        resolution.kind = .approximate ∧
          ∃ overload ∈ settled later, overload.key = ⟨operator.identity, roots⟩ ∧
            wider.resolve operator roots = some ⟨overload, .exact⟩)) ∧
    (table.resolve operator roots = none → ∀ resolution,
      wider.resolve operator roots = some resolution → resolution.overload ∈ settled later) := by
  have extended : wider.overloads = table.overloads ++ settled later := by
    rw [overloads_of_build builtWider, overloads_of_build built, settled_append_of_disjoint apart]
  have held : ∀ key, key ∈ keys table.overloads ↔ key ∈ keys earlier := by
    intro key
    rw [overloads_of_build built, mem_keys_settled]
  simp only [OverloadTable.resolve_eq_scan wider, extended]
  refine ⟨fun resolution chosen => ⟨fun absent => ?_, fun registered => ?_⟩, ?_⟩
  · rw [OverloadTable.resolve_eq_scan] at chosen
    exact OverloadTable.scan_append_of_not_mem (by rwa [mem_keys_settled]) chosen
  · have new : ⟨operator.identity, roots⟩ ∉ keys table.overloads := by
      rw [held]
      exact fun known => apart known registered
    refine ⟨?_, OverloadTable.scan_append_of_mem new (by rwa [mem_keys_settled])⟩
    rcases OverloadTable.resolve_cases chosen with ⟨-, exact⟩ | ⟨approximate, -⟩
    · exact absurd ((mem_keys_iff_find? _ _).2 ⟨_, exact⟩) new
    · exact approximate
  · intro missed resolution chosen
    rw [OverloadTable.resolve_eq_scan] at missed
    exact OverloadTable.mem_of_scan_append missed chosen

/-- An overload that is added narrower than the one that was taken is not taken, unless its
signature is exactly the roots of the operands. -/
theorem TableBuilder.resolve_of_continued_power :
    let power : Operator := ⟨7, "POWER", .function⟩
    let held (signature : Signature) (strategy : Strategy) : Overload Strategy :=
      { operator := power, signature, strategy }
    let wide := held [.double] (.math .power)
    let earlier := [wide]
    let later := [held [.float] (.math .exp), held [.date] (.math .ln), held [.float] (.math .log)]
    let table : OverloadTable Strategy := { overloads := earlier, mode := .streaming }
    let wider : OverloadTable Strategy :=
      { overloads := [wide, held [.float] (.math .log), held [.date] (.math .ln)]
        mode := .streaming }
    (keys earlier).Disjoint (keys later) ∧
      (ofCalls { duplicates := .overwrite } earlier).build = .ok table ∧
      (ofCalls { duplicates := .overwrite } (earlier ++ later)).build = .ok wider ∧
      wider.resolve power [.integer] = some ⟨wide, .approximate⟩ ∧
      (∃ overload ∈ settled later, overload.key = ⟨7, [.float]⟩ ∧
        wider.resolve power [.float] = some ⟨overload, .exact⟩) ∧
      ∀ resolution, wider.resolve power [.date] = some resolution →
        resolution.overload ∈ settled later := by
  intro power held wide earlier later table wider
  have apart : (keys earlier).Disjoint (keys later) := by
    change ∀ key ∈ keys earlier, key ∉ keys later
    decide
  have built : (ofCalls { duplicates := .overwrite } earlier).build = .ok table := rfl
  have builtWider : (ofCalls { duplicates := .overwrite } (earlier ++ later)).build = .ok wider :=
    rfl
  have continued := resolve_of_continued _ apart built builtWider power
  refine ⟨apart, built, builtWider, ?_, ?_, ?_⟩
  · exact ((continued [.integer]).1 ⟨wide, .approximate⟩ (table.resolve_eq_scan _ _)).1 (by decide)
  · exact (((continued [.float]).1 ⟨wide, .approximate⟩ (table.resolve_eq_scan _ _)).2
      (by decide)).2
  · exact (continued [.date]).2 (table.resolve_eq_scan _ _)

/-! ## Interleaved sequences -/

namespace Registration

/-- The overloads of one operator, in order. -/
def ofOperator (operator : Operator) (overloads : List (Overload σ)) : List (Overload σ) :=
  overloads.filter fun overload => overload.operator.same operator

theorem keys_ofOperator (operator : Operator) (overloads : List (Overload σ)) :
    keys (ofOperator operator overloads) =
      (keys overloads).filter fun key => key.operator = operator.identity := by
  simp only [keys, ofOperator, List.filter_map, Operator.same_eq_decide]
  rfl

theorem ofOperator_replace (operator : Operator) (overloads : List (Overload σ)) (key : CallKey)
    (strategy : σ) :
    ofOperator operator (TableBuilder.replace overloads key strategy) =
      TableBuilder.replace (ofOperator operator overloads) key strategy := by
  rw [ofOperator, TableBuilder.replace, List.filter_map, TableBuilder.replace, ofOperator]
  congr 2
  funext overload
  rw [Function.comp_apply]
  split <;> rfl

theorem ofOperator_append (operator : Operator) (overloads : List (Overload σ))
    (call : Overload σ) :
    ofOperator operator (overloads ++ [call]) =
      if call.operator.same operator then ofOperator operator overloads ++ [call]
      else ofOperator operator overloads := by
  by_cases same : call.operator.same operator = true <;> simp [ofOperator, same]

/-- The registrations of an operator are settled among themselves. -/
theorem ofOperator_settled (operator : Operator) (calls : List (Overload σ)) :
    ofOperator operator (settled calls) = settled (ofOperator operator calls) := by
  induction calls using List.reverseRecOn with
  | nil => rfl
  | append_singleton calls call induction =>
      rw [ofOperator_append, settled_append]
      by_cases same : call.operator.same operator = true
      · have known : call.key ∈ keys (ofOperator operator calls) ↔ call.key ∈ keys calls := by
          simp [keys_ofOperator, Heading.key, Operator.same_iff.1 same]
        rw [if_pos same, settled_append, ← induction]
        by_cases registered : call.key ∈ keys calls
        · rw [if_pos registered, if_pos (known.2 registered), ofOperator_replace]
        · rw [if_neg registered, if_neg (registered ∘ known.1), ofOperator_append, if_pos same]
      · have foreign : call.key ∉ keys (ofOperator operator (settled calls)) := by
          simp [keys_ofOperator, Heading.key, Operator.same_iff.not.1 same]
        rw [if_neg same, ← induction]
        by_cases registered : call.key ∈ keys calls
        · rw [if_pos registered, ofOperator_replace, replace_of_not_mem _ foreign]
        · rw [if_neg registered, ofOperator_append, if_neg same]

theorem nodup_keys_iff (calls : List (Overload σ)) :
    (keys calls).Nodup ↔ ∀ operator, (keys (ofOperator operator calls)).Nodup := by
  constructor
  · intro distinct operator
    rw [keys_ofOperator]
    exact distinct.filter _
  · intro distinct
    rw [List.nodup_iff_count_le_one]
    intro key
    have within := List.nodup_iff_count_le_one.1 (distinct ⟨key.operator, "", .function⟩) key
    rwa [keys_ofOperator, List.count_filter (by simp)] at within

end Registration

namespace OverloadTable

/-- Two tables answer every question about an operator alike. -/
structure AnswersLike (left right : OverloadTable σ) : Prop where
  /-- Every call takes the same overload in the same way. -/
  resolve_eq : ∀ operator roots, left.resolve operator roots = right.resolve operator roots
  /-- Every key has the same overload. -/
  get?_eq : ∀ operator roots, left.get? operator roots = right.get? operator roots
  /-- Every operator has the same signatures, in the same order. -/
  signaturesOf_eq : ∀ operator, left.signaturesOf operator = right.signaturesOf operator
  /-- The same operators are known. -/
  hasOperator_eq : ∀ operator, left.hasOperator operator = right.hasOperator operator

theorem find?_ofOperator (operator : Operator) (overloads : List (Overload σ))
    (roots : List TypeRoot) :
    (ofOperator operator overloads).find?
        (fun overload => overload.key = ⟨operator.identity, roots⟩) =
      overloads.find? fun overload => overload.key = ⟨operator.identity, roots⟩ := by
  rw [ofOperator, List.find?_filter]
  congr 1
  funext overload
  by_cases called : overload.key = ⟨operator.identity, roots⟩
  · have same := Operator.same_iff.2 (CallKey.mk.inj called).1
    simp [called, same]
  · simp [called]

/-- A choice depends on the overloads of its operator only. -/
theorem scan_ofOperator (operator : Operator) (overloads : List (Overload σ))
    (roots : List TypeRoot) :
    scan (ofOperator operator overloads) operator roots = scan overloads operator roots := by
  rw [scan, scan, find?_ofOperator, ofOperator, List.find?_filter]
  simp

/-- Tables that hold the same overloads of each operator, in the same order, answer alike. -/
theorem answersLike_of_ofOperator {left right : OverloadTable σ}
    (alike : ∀ operator,
      ofOperator operator left.overloads = ofOperator operator right.overloads) :
    left.AnswersLike right where
  resolve_eq operator roots := by
    rw [resolve_eq_scan, resolve_eq_scan, ← scan_ofOperator, alike, scan_ofOperator]
  get?_eq operator roots := by
    rw [get?, get?, ← find?_ofOperator, alike, find?_ofOperator]
  signaturesOf_eq operator := by
    rw [left.represents.signaturesOf_eq, right.represents.signaturesOf_eq]
    exact congrArg _ (alike operator)
  hasOperator_eq operator := by
    rw [Bool.eq_iff_iff, left.represents.hasOperator_iff, right.represents.hasOperator_iff]
    change ofOperator operator left.overloads ≠ [] ↔ ofOperator operator right.overloads ≠ []
    rw [alike]

end OverloadTable

/-- Two sequences register the same for every operator, in the same order.  Then there is a table of
the one exactly if there is a table of the other, and the two answer alike. -/
theorem TableBuilder.build_of_interleaved (settings : Settings) {left right : List (Overload σ)}
    (interleaved : ∀ operator, ofOperator operator left = ofOperator operator right) :
    ((∃ table, (ofCalls settings left).build = .ok table) ↔
        ∃ table, (ofCalls settings right).build = .ok table) ∧
      ∀ leftTable rightTable, (ofCalls settings left).build = .ok leftTable →
        (ofCalls settings right).build = .ok rightTable → leftTable.AnswersLike rightTable := by
  constructor
  · rw [exists_build_iff, exists_build_iff, nodup_keys_iff left, nodup_keys_iff right]
    simp only [interleaved]
  · intro leftTable rightTable leftBuilt rightBuilt
    refine OverloadTable.answersLike_of_ofOperator fun operator => ?_
    rw [overloads_of_build leftBuilt, overloads_of_build rightBuilt, ofOperator_settled,
      interleaved, ofOperator_settled]

/-- The first registrations of two operators change places, and a key is overwritten after them.
The tables hold the overloads in different orders. -/
theorem TableBuilder.build_of_interleaved_power :
    let power : Operator := ⟨7, "POWER", .function⟩
    let first : Overload Strategy :=
      { operator := power, signature := [.double], strategy := .math .exp }
    let last : Overload Strategy := { first with strategy := .math .power }
    let other : Overload Strategy :=
      { operator := ⟨8, "LN", .function⟩, signature := [.double], strategy := .math .ln }
    let left := [first, other, last]
    let right := [other, first, last]
    let leftTable : OverloadTable Strategy := { overloads := [last, other], mode := .streaming }
    let rightTable : OverloadTable Strategy := { overloads := [other, last], mode := .streaming }
    (∀ operator, ofOperator operator left = ofOperator operator right) ∧
      (ofCalls { duplicates := .overwrite } left).build = .ok leftTable ∧
      (ofCalls { duplicates := .overwrite } right).build = .ok rightTable ∧
      keys leftTable.overloads ≠ keys rightTable.overloads ∧
      leftTable.AnswersLike rightTable := by
  intro power first last other left right leftTable rightTable
  have interleaved : ∀ operator, ofOperator operator left = ofOperator operator right := by
    intro operator
    by_cases same : operator.identity = 7
    · simp [ofOperator, Operator.same_eq_decide, left, right, first, last, other, power, same]
    · have foreign : 7 ≠ operator.identity := Ne.symm same
      simp [ofOperator, Operator.same_eq_decide, List.filter_cons, left, right, first, last, other,
        power, foreign]
  have leftBuilt : (ofCalls { duplicates := .overwrite } left).build = .ok leftTable := rfl
  have rightBuilt : (ofCalls { duplicates := .overwrite } right).build = .ok rightTable := rfl
  exact ⟨interleaved, leftBuilt, rightBuilt, by decide,
    (build_of_interleaved _ interleaved).2 leftTable rightTable leftBuilt rightBuilt⟩

end OperatorDispatch

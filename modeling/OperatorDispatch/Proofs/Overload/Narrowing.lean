import OperatorDispatch.Proofs.Overload.Choice

/-!
# Narrower operands and narrower overloads

A call that is matched stays matched when its operands are narrowed, and the signature of the
overload that it takes is matched by that overload.  Which overload a widened call takes is decided
by the order of registration alone.  If no overload accepts the signature of a later one, nothing
narrower than the overload that is taken would do; if all overloads that accept a call in common are
ordered, the one that is taken is narrower than every other.
-/

namespace OperatorDispatch

variable {σ : Type}

namespace OverloadTable

variable {table : OverloadTable σ} {operator : Operator} {roots : List TypeRoot}
  {resolution : Resolution σ}

/-! ## Narrower operands -/

theorem exists_resolve_of_accepts {wide narrow : List TypeRoot}
    (accepted : Signature.accepts wide narrow = true)
    (matched : ∃ resolution, table.resolve operator wide = some resolution) :
    ∃ resolution, table.resolve operator narrow = some resolution := by
  simp only [resolve_eq_scan, exists_scan_iff] at matched ⊢
  obtain ⟨overload, member, same, accepts⟩ := matched
  exact ⟨overload, member, same, Signature.accepts_trans accepts accepted⟩

theorem resolve_signature (distinct : (Registration.keys table.overloads).Nodup)
    (chosen : table.resolve operator roots = some resolution) :
    table.resolve operator resolution.overload.signature =
      some ⟨resolution.overload, .exact⟩ := by
  have scanned := (table.resolve_eq_scan _ _).symm.trans chosen
  obtain ⟨member, same, -⟩ := accepts_of_scan scanned
  have key : resolution.overload.key = ⟨operator.identity, resolution.overload.signature⟩ :=
    congrArg (CallKey.mk · _) (Operator.same_iff.1 same)
  rw [resolve, get?_eq_some_of_mem distinct member key]

/-- Acceptance is a partial order on lists of roots of every length.  In a table that some use of a
builder has led to, a call with narrower operands than a matched one is matched too, and the
signature of a matched overload is matched by this overload, exactly. -/
theorem resolve_narrower_of_run [OfContextFunction σ] :
    IsPartialOrder Signature (fun wide narrow => wide.accepts narrow = true) ∧
      ∀ (settings : Settings) (steps : List (BuilderStep σ)) (table : OverloadTable σ),
        (TableBuilder.run settings steps).build = .ok table → ∀ operator : Operator,
          (∀ wide narrow : List TypeRoot, Signature.accepts wide narrow = true →
            (∃ resolution, table.resolve operator wide = some resolution) →
              ∃ resolution, table.resolve operator narrow = some resolution) ∧
            ∀ roots resolution, table.resolve operator roots = some resolution →
              table.resolve operator resolution.overload.signature =
                some ⟨resolution.overload, .exact⟩ := by
  refine ⟨Signature.isPartialOrder_accepts, fun settings steps table built operator => ⟨?_, ?_⟩⟩
  · intro wide narrow accepted matched
    exact exists_resolve_of_accepts accepted matched
  · intro roots resolution chosen
    have distinct : (Registration.keys table.overloads).Nodup := by
      rw [TableBuilder.eq_of_build built]
      exact TableBuilder.nodup_keys_run settings steps
    exact resolve_signature distinct chosen

/-- A call with narrower operands may take another overload than the wider call. -/
theorem resolve_narrower_of_run_power :
    let power : Operator := ⟨7, "POWER", .function⟩
    let wide : Overload Strategy :=
      { operator := power, signature := [.double, .bigInt], strategy := .math .power }
    let narrow : Overload Strategy :=
      { operator := power, signature := [.bigInt, .integer], strategy := .math .exp }
    let steps : List (BuilderStep Strategy) := [.overload narrow, .overload wide]
    let table : OverloadTable Strategy := { overloads := [narrow, wide], mode := .streaming }
    (TableBuilder.run {} steps).build = .ok table ∧
      Signature.accepts [.float, .integer] [.integer, .tinyInt] = true ∧
        table.resolve power [.float, .integer] = some ⟨wide, .approximate⟩ ∧
          (∃ resolution, table.resolve power [.integer, .tinyInt] = some resolution) ∧
            table.resolve power wide.signature = some ⟨wide, .exact⟩ := by
  intro power wide narrow steps table
  have built : (TableBuilder.run {} steps).build = .ok table := rfl
  have accepted : Signature.accepts [.float, .integer] [.integer, .tinyInt] = true := by decide
  have chosen : table.resolve power [.float, .integer] = some ⟨wide, .approximate⟩ := by
    rw [resolve_eq_scan]
    rfl
  obtain ⟨narrower, again⟩ := resolve_narrower_of_run.2 {} steps table built power
  exact ⟨built, accepted, chosen, narrower _ _ accepted ⟨_, chosen⟩, again _ _ chosen⟩

end OverloadTable

/-! ## Orders of registration -/

/-- The signature of each overload is related to those of the later overloads of its operator. -/
def ListedBy (related : Signature → Signature → Prop) (overloads : List (Overload σ)) : Prop :=
  overloads.Pairwise fun earlier later =>
    earlier.operator.same later.operator = true → related earlier.signature later.signature

instance (related : Signature → Signature → Prop) [DecidableRel related]
    (overloads : List (Overload σ)) : Decidable (ListedBy related overloads) :=
  inferInstanceAs (Decidable (overloads.Pairwise _))

/-- No signature accepts a later one of its operator. -/
def NarrowToWide (overloads : List (Overload σ)) : Prop :=
  ListedBy (fun earlier later => earlier.accepts later = false) overloads

/-- Of two signatures of an operator that accept some operands in common, the later one accepts the
earlier one. -/
def Graded (overloads : List (Overload σ)) : Prop :=
  ListedBy (fun earlier later => earlier.Overlap later → later.accepts earlier = true) overloads

instance (overloads : List (Overload σ)) : Decidable (NarrowToWide overloads) :=
  inferInstanceAs (Decidable (ListedBy _ overloads))

instance (overloads : List (Overload σ)) : Decidable (Graded overloads) :=
  inferInstanceAs (Decidable (ListedBy _ overloads))

/-- An overload that accepted the signature of a later one would be accepted by it in turn, and the
two would have one key. -/
theorem Graded.narrowToWide {overloads : List (Overload σ)} (graded : Graded overloads)
    (distinct : (Registration.keys overloads).Nodup) : NarrowToWide overloads := by
  have apart : overloads.Pairwise fun earlier later => earlier.key ≠ later.key :=
    List.pairwise_map.1 distinct
  refine (List.Pairwise.and graded apart).imp fun {earlier later} ⟨ordered, different⟩ same => ?_
  refine Bool.eq_false_iff.2 fun accepted => ?_
  have reversed := ordered same ⟨later.signature, accepted, Signature.accepts_self _⟩
  have signature := Signature.accepts_antisymm accepted reversed
  exact different (congrArg₂ CallKey.mk (Operator.same_iff.1 same) signature)

namespace OverloadTable

variable {table : OverloadTable σ} {operator : Operator} {roots : List TypeRoot}
  {resolution : Resolution σ}

theorem mem_signaturesOf {signature : Signature} :
    signature ∈ table.signaturesOf operator ↔
      ∃ overload ∈ table.overloads, overload.operator.same operator = true ∧
        overload.signature = signature := by
  simp [signaturesOf, overloadsOf_eq_filter, and_assoc]

theorem rel_of_firstAccepting? {related : Overload σ → Overload σ → Prop} {first other : Overload σ}
    (ordered : table.overloads.Pairwise related)
    (found : table.firstAccepting? operator roots = some first) (member : other ∈ table.overloads)
    (same : other.operator.same operator = true) (accepted : other.signature.accepts roots = true) :
    other = first ∨ related first other := by
  rw [firstAccepting?_eq_find?, List.find?_eq_some_iff_append] at found
  obtain ⟨-, before, after, split, skipped⟩ := found
  rw [split] at member ordered
  rcases List.mem_append.1 member with earlier | here
  · simpa [same, accepted] using skipped other earlier
  · rcases List.mem_cons.1 here with equal | later
    · exact .inl equal
    · exact .inr ((List.pairwise_cons.1 (List.pairwise_append.1 ordered).2.1).1 other later)

/-- Unless the match is exact, the signature that is taken is related to any other that accepts the
operands. -/
theorem related_of_resolve {related : Signature → Signature → Prop}
    (ordered : ListedBy related table.overloads)
    (chosen : table.resolve operator roots = some resolution) {other : Signature}
    (registered : other ∈ table.signaturesOf operator) (accepted : other.accepts roots = true) :
    resolution.overload.signature = roots ∨ other = resolution.overload.signature ∨
      related resolution.overload.signature other := by
  rcases resolve_cases chosen with ⟨-, exact⟩ | ⟨-, -, first⟩
  · exact .inl (CallKey.mk.inj (key_of_get? exact)).2
  · obtain ⟨overload, member, same, rfl⟩ := mem_signaturesOf.1 registered
    obtain ⟨-, called, -⟩ := accepts_of_scan ((table.resolve_eq_scan _ _).symm.trans chosen)
    have together : resolution.overload.operator.same overload.operator = true :=
      Operator.same_iff.2 ((Operator.same_iff.1 called).trans (Operator.same_iff.1 same).symm)
    rcases rel_of_firstAccepting? ordered first member same accepted with rfl | relates
    · exact .inr (.inl rfl)
    · exact .inr (.inr (relates together))

theorem accepts_eq_false_of_narrowToWide (ordered : NarrowToWide table.overloads)
    (chosen : table.resolve operator roots = some resolution) {other : Signature}
    (registered : other ∈ table.signaturesOf operator) (accepted : other.accepts roots = true)
    (different : other ≠ resolution.overload.signature) :
    resolution.overload.signature.accepts other = false := by
  rcases related_of_resolve ordered chosen registered accepted with exact | same | refused
  · -- The roots of an exact match accept nothing else that accepts them.
    rw [Bool.eq_false_iff]
    intro narrower
    exact different (Signature.accepts_antisymm (exact ▸ accepted) narrower)
  · exact absurd same different
  · exact refused

/-- In a graded table, the overload that is taken is the narrowest one that accepts the operands. -/
theorem accepts_signature_of_graded (graded : Graded table.overloads)
    (chosen : table.resolve operator roots = some resolution) {other : Signature}
    (registered : other ∈ table.signaturesOf operator) (accepted : other.accepts roots = true) :
    other.accepts resolution.overload.signature = true := by
  rcases related_of_resolve graded chosen registered accepted with exact | rfl | wider
  · rw [exact]
    exact accepted
  · exact Signature.accepts_self _
  · obtain ⟨-, -, accepts⟩ := accepts_of_scan ((table.resolve_eq_scan _ _).symm.trans chosen)
    exact wider ⟨roots, accepts, accepted⟩

end OverloadTable
end OperatorDispatch

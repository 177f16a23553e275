import Mathlib.Data.List.Pairwise
import OperatorDispatch.Proofs.Call.Standard
import OperatorDispatch.Proofs.Overload.Narrowing

/-!
# Calls take the narrowest overload

Where overloads are listed narrow to wide, a call takes a minimal one of those that accept it.  The
standard catalog is graded: the overloads that accept a call in common form a chain, so there a call
takes the least one.
-/

namespace OperatorDispatch

theorem Signature.accepts_of_overlap_nil {signature : Signature}
    (overlap : signature.Overlap []) : Signature.accepts [] signature = true := by
  cases (overlap_iff_forall₂ signature []).1 overlap
  rfl

/-- Context functions have no operands, so they fit behind any graded overloads. -/
theorem Catalog.graded_registrations {σ : Type} [OfContextFunction σ] {catalog : Catalog σ}
    (graded : Graded catalog.overloads) (mode : ExecutionMode) :
    Graded (catalog.registrations mode) := by
  have follows : ∀ later ∈ (contextOverloads mode catalog.contextFunctions : List (Overload σ)),
      ∀ earlier : Overload σ, earlier.signature.Overlap later.signature →
        later.signature.accepts earlier.signature = true := by
    intro later member earlier overlap
    obtain ⟨operator, -, found⟩ := List.mem_filterMap.1 member
    obtain ⟨function, -, rfl⟩ := Option.map_eq_some_iff.1 found
    exact Signature.accepts_of_overlap_nil overlap
  refine List.pairwise_append.2 ⟨graded, ?_, ?_⟩
  · exact List.pairwise_of_forall_mem_list fun earlier _ later member _ =>
      follows later member earlier
  · exact fun earlier _ later member _ => follows later member earlier

/-- Each numeric root is registered after the narrower ones, and other roots do not overlap. -/
theorem graded_standardCatalog : Graded standardCatalog.overloads := by
  decide +kernel

/-- Where no signature accepts a later one of its operator, a call takes a minimal overload: the
signature that is taken accepts no other one that accepts the operands.  The table of the standard
catalog is such a table, and there every signature that accepts the operands accepts the one that is
taken. -/
theorem OverloadTable.resolve_narrowest :
    (∀ {σ : Type} (table : OverloadTable σ), NarrowToWide table.overloads →
      ∀ operator roots resolution, table.resolve operator roots = some resolution →
        ∀ other ∈ table.signaturesOf operator, other.accepts roots = true →
          other ≠ resolution.overload.signature →
            resolution.overload.signature.accepts other = false) ∧
      ∀ settings, ∃ context journal, Context.standard settings = (.ok context, journal) ∧
        NarrowToWide context.table.overloads ∧
          ∀ operator roots resolution, context.table.resolve operator roots = some resolution →
            ∀ other ∈ context.table.signaturesOf operator, other.accepts roots = true →
              other.accepts resolution.overload.signature = true := by
  constructor
  · intro σ table ordered operator roots resolution chosen other registered accepted different
    exact accepts_eq_false_of_narrowToWide ordered chosen registered accepted different
  · intro settings
    obtain ⟨context, journal, built, overloads⟩ := Context.exists_standard settings
    have graded : Graded context.table.overloads :=
      overloads ▸ Catalog.graded_registrations graded_standardCatalog settings.mode
    have distinct : (Registration.keys context.table.overloads).Nodup :=
      overloads ▸ Context.nodup_keys_standardCatalog settings.mode
    refine ⟨context, journal, built, graded.narrowToWide distinct, ?_⟩
    intro operator roots resolution chosen other registered accepted
    exact accepts_signature_of_graded graded chosen registered accepted

/-- Of two overloads that both accept a call and not each other, the first one is taken and is
minimal; small integers are added as `INTEGER`, the least that the standard catalog offers. -/
theorem OverloadTable.resolve_narrowest_power :
    let power : Operator := ⟨7, "POWER", .function⟩
    let held (signature : Signature) : Overload Strategy :=
      { operator := power, signature, strategy := .math .power }
    let table : OverloadTable Strategy :=
      { overloads := [held [.double, .bigInt], held [.bigInt, .double], held [.double, .double]]
        mode := .streaming }
    (NarrowToWide table.overloads ∧
      table.resolve power [.integer, .integer] =
        some ⟨held [.double, .bigInt], .approximate⟩ ∧
      [.bigInt, .double] ∈ table.signaturesOf power ∧
      Signature.accepts [.bigInt, .double] [.integer, .integer] = true ∧
      Signature.accepts [.double, .bigInt] [.bigInt, .double] = false) ∧
    ∃ context journal resolution, Context.standard {} = (.ok context, journal) ∧
      context.table.resolve .plus [.tinyInt, .smallInt] = some resolution ∧
      resolution.overload.signature = [.integer, .integer] ∧
      [.double, .double] ∈ context.table.signaturesOf .plus ∧
      Signature.accepts [.double, .double] resolution.overload.signature = true := by
  intro power held table
  constructor
  · have ordered : NarrowToWide table.overloads := by decide
    have chosen : table.resolve power [.integer, .integer] =
        some ⟨held [.double, .bigInt], .approximate⟩ := by
      rw [resolve_eq_scan]
      rfl
    have registered : [.bigInt, .double] ∈ table.signaturesOf power :=
      mem_signaturesOf.2 ⟨held [.bigInt, .double], .tail _ (.head _), by decide, rfl⟩
    have accepted : Signature.accepts [.bigInt, .double] [.integer, .integer] = true := by decide
    exact ⟨ordered, chosen, registered, accepted,
      resolve_narrowest.1 table ordered power _ _ chosen _ registered accepted (by decide)⟩
  · obtain ⟨context, journal, built, -, least⟩ := resolve_narrowest.2 {}
    have overloads := Context.overloads_of_standard built
    have scanned : (context.table.resolve .plus [.tinyInt, .smallInt]).map
        (·.overload.signature) = some [.integer, .integer] := by
      rw [resolve_eq_scan, overloads]
      decide +kernel
    obtain ⟨resolution, chosen, signature⟩ := Option.map_eq_some_iff.1 scanned
    have registered : [.double, .double] ∈ context.table.signaturesOf .plus := by
      rw [signaturesOf, overloadsOf_eq_filter, overloads]
      decide +kernel
    exact ⟨context, journal, resolution, built, chosen, signature, registered,
      least _ _ _ chosen _ registered (by decide)⟩

end OperatorDispatch

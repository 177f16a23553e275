import Mathlib.Data.List.Induction
import Mathlib.Data.List.Nodup
import OperatorDispatch.Overload.Table

/-!
# Sequences of registrations

What a sequence of registrations leaves behind is said here without a builder.  Each key is held
once, at the place and under the heading of its first registration, with the strategy of its last
one.  A step lemma carries this description from one registration to the next, and the run lemma
carries it along the whole sequence.
-/

namespace OperatorDispatch
namespace Registration

variable {σ : Type}

/-- The keys of overloads, in order. -/
abbrev keys (overloads : List (Overload σ)) : List CallKey :=
  overloads.map fun overload => overload.key

/-- The first registration of each key, in order. -/
def firsts : List (Overload σ) → List (Overload σ)
  | [] => []
  | call :: calls => call :: (firsts calls).filter fun later => later.key ≠ call.key

/-- The strategy of the last registration of the overload's key. -/
def lastStrategy (calls : List (Overload σ)) (overload : Overload σ) : σ :=
  match calls.reverse.find? fun call => call.key = overload.key with
  | some call => call.strategy
  | none => overload.strategy

/-- The overload with the strategy of the last registration of its key. -/
def withLastStrategy (calls : List (Overload σ)) (overload : Overload σ) : Overload σ :=
  { overload with strategy := lastStrategy calls overload }

/-- The ordered list that a sequence of registrations stands for. -/
def settled (calls : List (Overload σ)) : List (Overload σ) :=
  (firsts calls).map (withLastStrategy calls)

/-! ## First registrations -/

theorem find?_firsts (calls : List (Overload σ)) (key : CallKey) :
    (firsts calls).find? (fun overload => overload.key = key) =
      calls.find? fun call => call.key = key := by
  induction calls with
  | nil => rfl
  | cons call calls induction =>
      rw [firsts]
      by_cases same : call.key = key
      · rw [List.find?_cons_of_pos (by simpa using same),
          List.find?_cons_of_pos (by simpa using same)]
      · rw [List.find?_cons_of_neg (by simpa using same),
          List.find?_cons_of_neg (by simpa using same), List.find?_filter, ← induction]
        congr 1
        funext overload
        by_cases here : overload.key = key
        · simp [here, Ne.symm same]
        · simp [here]

theorem mem_keys_iff_find? (overloads : List (Overload σ)) (key : CallKey) :
    key ∈ keys overloads ↔ ∃ held, overloads.find? (fun overload => overload.key = key) =
      some held := by
  rw [← Option.isSome_iff_exists, List.find?_isSome]
  simp

theorem find?_key_eq_none {overloads : List (Overload σ)} {key : CallKey}
    (absent : key ∉ keys overloads) :
    overloads.find? (fun overload => overload.key = key) = none := by
  rw [Option.eq_none_iff_forall_ne_some]
  intro held found
  exact absent ((mem_keys_iff_find? _ _).2 ⟨held, found⟩)

theorem mem_keys_firsts (calls : List (Overload σ)) (key : CallKey) :
    key ∈ keys (firsts calls) ↔ key ∈ keys calls := by
  rw [mem_keys_iff_find?, mem_keys_iff_find?, find?_firsts]

theorem nodup_keys_firsts (calls : List (Overload σ)) : (keys (firsts calls)).Nodup := by
  induction calls with
  | nil => exact List.nodup_nil
  | cons call calls induction =>
      rw [firsts, keys, List.map_cons, List.nodup_cons]
      constructor
      · simp
      · exact induction.sublist (List.filter_sublist.map _)

theorem firsts_append (calls : List (Overload σ)) (call : Overload σ) :
    firsts (calls ++ [call]) =
      if call.key ∈ keys calls then firsts calls else firsts calls ++ [call] := by
  induction calls with
  | nil => simp [firsts]
  | cons first calls induction =>
      rw [List.cons_append, firsts, induction]
      by_cases known : call.key ∈ keys calls
      · have known' : call.key ∈ keys (first :: calls) := List.mem_cons_of_mem _ known
        rw [if_pos known, if_pos known', firsts]
      · rw [if_neg known, List.filter_append]
        by_cases same : call.key = first.key
        · have known' : call.key ∈ keys (first :: calls) := by simp [keys, same]
          rw [if_pos known', firsts]
          simp [same]
        · have unknown' : call.key ∉ keys (first :: calls) := by
            intro member
            rcases List.mem_cons.1 member with here | later
            · exact same here
            · exact known later
          rw [if_neg unknown', firsts]
          simp [same]

/-! ## The settled list -/

theorem keys_settled (calls : List (Overload σ)) : keys (settled calls) = keys (firsts calls) := by
  simp [settled, Function.comp_def, withLastStrategy]

theorem nodup_keys_settled (calls : List (Overload σ)) : (keys (settled calls)).Nodup := by
  rw [keys_settled]
  exact nodup_keys_firsts calls

theorem mem_keys_settled (calls : List (Overload σ)) (key : CallKey) :
    key ∈ keys (settled calls) ↔ key ∈ keys calls := by
  rw [keys_settled, mem_keys_firsts]

/-- A search of the settled list finds the first registration with the last strategy. -/
theorem find?_settled (calls : List (Overload σ)) (key : CallKey) :
    (settled calls).find? (fun overload => overload.key = key) =
      (calls.find? fun call => call.key = key).map (withLastStrategy calls) := by
  rw [settled, List.find?_map, ← find?_firsts]
  rfl

theorem lastStrategy_append (calls : List (Overload σ)) (call overload : Overload σ) :
    lastStrategy (calls ++ [call]) overload =
      if call.key = overload.key then call.strategy else lastStrategy calls overload := by
  rw [lastStrategy, List.reverse_append]
  by_cases same : call.key = overload.key
  · simp [same]
  · simp [same, lastStrategy]

theorem replace_of_not_mem {overloads : List (Overload σ)} {key : CallKey} (strategy : σ)
    (absent : key ∉ keys overloads) : TableBuilder.replace overloads key strategy = overloads := by
  rw [TableBuilder.replace]
  calc
    overloads.map (fun overload =>
        if overload.key = key then { overload with strategy } else overload) =
        overloads.map id := by
      apply List.map_congr_left
      intro overload member
      have other : overload.key ≠ key := fun same => absent (same ▸ List.mem_map_of_mem member)
      rw [if_neg other, id]
    _ = overloads := List.map_id overloads

/-- A registration replaces the strategy of a key that is held, and is put last otherwise. -/
theorem settled_append (calls : List (Overload σ)) (call : Overload σ) :
    settled (calls ++ [call]) =
      if call.key ∈ keys calls then
        TableBuilder.replace (settled calls) call.key call.strategy
      else
        settled calls ++ [call] := by
  have replaced : (firsts calls).map (withLastStrategy (calls ++ [call])) =
      TableBuilder.replace (settled calls) call.key call.strategy := by
    rw [TableBuilder.replace, settled, List.map_map]
    apply List.map_congr_left
    intro overload _
    by_cases same : call.key = overload.key
    · simp [withLastStrategy, lastStrategy_append, same]
    · simp [withLastStrategy, lastStrategy_append, same, Ne.symm same]
  rw [settled, firsts_append]
  by_cases known : call.key ∈ keys calls
  · rw [if_pos known, if_pos known, replaced]
  · have absent : call.key ∉ keys (settled calls) := by rwa [mem_keys_settled]
    rw [if_neg known, if_neg known, List.map_append, replaced, replace_of_not_mem _ absent]
    simp [withLastStrategy, lastStrategy_append]

theorem settled_of_nodup {calls : List (Overload σ)} (distinct : (keys calls).Nodup) :
    settled calls = calls := by
  induction calls using List.reverseRecOn with
  | nil => rfl
  | append_singleton calls call induction =>
      rw [keys, List.map_append, List.nodup_append] at distinct
      have new : call.key ∉ keys calls := fun member => distinct.2.2 _ member _ (.head _) rfl
      rw [settled_append, if_neg new, induction distinct.1]

end Registration

namespace TableBuilder

open Registration

variable {σ : Type}

/-! ## One registration -/

theorem register_of_find? {builder : TableBuilder σ} {heading : Heading} {held : Overload σ}
    (strategy : σ)
    (found : builder.overloads.find? (fun overload => overload.key = heading.key) = some held) :
    builder.register heading strategy =
      { builder with
        overloads := replace builder.overloads heading.key strategy
        repeats := builder.repeats ++ [held.toHeading]
        journal := builder.journal.push (.overwritten held.text) } := by
  rw [register, found]

theorem register_of_not_mem {builder : TableBuilder σ} {heading : Heading} (strategy : σ)
    (absent : heading.key ∉ keys builder.overloads) :
    builder.register heading strategy =
      { builder with overloads := builder.overloads ++ [{ heading with strategy }] } := by
  rw [register, find?_key_eq_none absent]

theorem keys_replace (overloads : List (Overload σ)) (key : CallKey) (strategy : σ) :
    keys (replace overloads key strategy) = keys overloads := by
  rw [replace, keys, List.map_map]
  apply List.map_congr_left
  intro overload _
  rw [Function.comp_apply]
  split <;> rfl

theorem nodup_keys_register {builder : TableBuilder σ} (heading : Heading) (strategy : σ)
    (distinct : (keys builder.overloads).Nodup) :
    (keys (builder.register heading strategy).overloads).Nodup := by
  by_cases known : heading.key ∈ keys builder.overloads
  · obtain ⟨held, found⟩ := (mem_keys_iff_find? _ _).1 known
    rw [register_of_find? strategy found, keys_replace]
    exact distinct
  · rw [register_of_not_mem strategy known, keys, List.map_append]
    refine distinct.append (List.nodup_singleton _) ?_
    simpa [Overload.toHeading, List.disjoint_singleton] using known

/-! ## Sequences of registrations -/

/-- Registers overloads one after the other. -/
def registerAll (builder : TableBuilder σ) (calls : List (Overload σ)) : TableBuilder σ :=
  calls.foldl (fun builder call => builder.register call.toHeading call.strategy) builder

theorem registerAll_append (builder : TableBuilder σ) (calls : List (Overload σ))
    (call : Overload σ) :
    builder.registerAll (calls ++ [call]) =
      (builder.registerAll calls).register call.toHeading call.strategy := by
  simp [registerAll]

/-- A call repeats the key of an earlier one, no earlier call does, and the heading is the one
under which the key was registered first. -/
def FirstRepeat (calls : List (Overload σ)) (heading : Heading) : Prop :=
  ∃ before call after held,
    calls = before ++ call :: after ∧ (keys before).Nodup ∧
      before.find? (fun earlier => earlier.key = call.key) = some held ∧
        heading = held.toHeading

theorem FirstRepeat.append {calls : List (Overload σ)} {heading : Heading}
    (repeated : FirstRepeat calls heading) (call : Overload σ) :
    FirstRepeat (calls ++ [call]) heading := by
  obtain ⟨before, first, after, held, rfl, distinct, found, named⟩ := repeated
  exact ⟨before, first, after ++ [call], held, by simp, distinct, found, named⟩

/-- The builder holds what a sequence of registrations stands for. -/
structure Records (builder : TableBuilder σ) (calls : List (Overload σ)) : Prop where
  /-- The overloads are the settled list. -/
  overloads_eq : builder.overloads = settled calls
  /-- Every call either added an overload or was noted as a repetition. -/
  counted : builder.overloads.length + builder.repeats.length = calls.length
  /-- Without a repetition all keys are distinct. -/
  nodup_of_nil : builder.repeats = [] → (keys calls).Nodup
  /-- The oldest repetition is the first in the sequence. -/
  firstRepeat : ∀ heading, builder.repeats.head? = some heading → FirstRepeat calls heading

/-- A registration keeps the builder in step with the sequence. -/
theorem Records.register {builder : TableBuilder σ} {calls : List (Overload σ)}
    (records : builder.Records calls) (call : Overload σ) :
    (builder.register call.toHeading call.strategy).Records (calls ++ [call]) := by
  have settledKeys : call.key ∈ keys builder.overloads ↔ call.key ∈ keys calls := by
    rw [records.overloads_eq, mem_keys_settled]
  by_cases known : call.key ∈ keys calls
  · obtain ⟨first, firstFound⟩ := (mem_keys_iff_find? _ _).1 known
    have found : builder.overloads.find? (fun overload => overload.key = call.key) =
        some (withLastStrategy calls first) := by
      rw [records.overloads_eq, find?_settled, firstFound, Option.map_some]
    rw [register_of_find? call.strategy found]
    refine ⟨?_, ?_, ?_, ?_⟩
    · simp [records.overloads_eq, settled_append, known]
    · simp [replace, ← records.counted, Nat.add_assoc]
    · simp
    · intro heading oldest
      cases repeats : builder.repeats with
      | nil =>
          refine ⟨calls, call, [], first, rfl, records.nodup_of_nil repeats, firstFound, ?_⟩
          simpa [repeats, withLastStrategy, eq_comm] using oldest
      | cons earlier later =>
          have kept : builder.repeats.head? = some heading := by
            simpa [repeats] using oldest
          exact (records.firstRepeat heading kept).append call
  · have absent : call.key ∉ keys builder.overloads := by rwa [settledKeys]
    rw [register_of_not_mem call.strategy absent]
    refine ⟨?_, ?_, ?_, ?_⟩
    · simp [records.overloads_eq, settled_append, known]
    · simp [← records.counted, Nat.add_right_comm]
    · intro unrepeated
      rw [keys, List.map_append]
      refine (records.nodup_of_nil unrepeated).append (List.nodup_singleton _) ?_
      simpa [List.disjoint_singleton] using known
    · intro heading oldest
      exact (records.firstRepeat heading oldest).append call

/-- A whole sequence of registrations leaves what it stands for. -/
theorem records_registerAll (settings : Settings) (calls : List (Overload σ)) :
    ({ settings : TableBuilder σ }.registerAll calls).Records calls := by
  induction calls using List.reverseRecOn with
  | nil => exact ⟨rfl, rfl, fun _ => List.nodup_nil, by simp [registerAll]⟩
  | append_singleton calls call induction =>
      rw [registerAll_append]
      exact induction.register call

theorem settings_register (builder : TableBuilder σ) (heading : Heading) (strategy : σ) :
    (builder.register heading strategy).settings = builder.settings := by
  rw [register]
  split <;> rfl

theorem settings_registerAll (builder : TableBuilder σ) (calls : List (Overload σ)) :
    (builder.registerAll calls).settings = builder.settings := by
  induction calls using List.reverseRecOn with
  | nil => rfl
  | append_singleton calls call induction =>
      rw [registerAll_append, settings_register, induction]

end TableBuilder
end OperatorDispatch

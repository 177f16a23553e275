import Mathlib.Data.List.Chain
import OperatorDispatch.Proofs.Machine.Action

/-!
# Reading bytecode

Writing and reading are inverse.  Whatever follows instructions that were written, they are read
back at the offsets at which they were written, each with its operand bytes.  Any bytes at all are
read as a walk from opcode to opcode, which goes on as long as it finds one; the instructions that
are read completely are a first part of the bytes.
-/

namespace OperatorDispatch

theorem Opcode.nodup_all : all.Nodup := by decide

theorem Opcode.eq_code_of_ofCode? {byte : UInt8} {opcode : Opcode}
    (decoded : ofCode? byte = some opcode) : byte = opcode.code := by
  have held : all[opcode.code.toNat]? = some opcode := ofCode?_code opcode
  obtain ⟨within, -⟩ := List.getElem?_eq_some_iff.1 decoded
  have same : all[byte.toNat]? = all[opcode.code.toNat]? := Eq.trans decoded held.symm
  exact UInt8.toNat_inj.1 ((List.getElem?_inj within nodup_all).1 same)

namespace Instruction

/-- The number of bytes of the instruction. -/
def size (instruction : Instruction) : Nat :=
  1 + instruction.opcode.operandSize

/-- The number of bytes of instructions. -/
def totalSize : List Instruction → Nat
  | [] => 0
  | instruction :: instructions => instruction.size + totalSize instructions

theorem length_encodeAll (instructions : List Instruction) :
    (encodeAll instructions).length = totalSize instructions := by
  induction instructions with
  | nil => rfl
  | cons instruction instructions induction =>
      rw [encodeAll_cons, List.length_append, length_encode, induction, totalSize, size]

/-- Each instruction stands after all bytes of those before it. -/
theorem located_eq_mapIdx (offset : Nat) (instructions : List Instruction) :
    located offset instructions = instructions.mapIdx fun index instruction =>
      (offset + totalSize (instructions.take index), instruction.opcode) := by
  induction instructions generalizing offset with
  | nil => rfl
  | cons instruction instructions induction =>
      rw [located, induction, List.mapIdx_cons]
      congr 2
      funext index later
      rw [List.take_succ_cons, totalSize, size]
      congr 1
      omega

end Instruction

namespace Bytecode

open Instruction

/-! ## Writing and reading back -/

/-- Writes instructions at the end, one after the other. -/
def appendAll (code : Bytecode) (instructions : List Instruction) : Bytecode :=
  instructions.foldl
    (fun code instruction => code.appendInstruction instruction.opcode instruction.operands) code

theorem bytes_appendAll (code : Bytecode) (instructions : List Instruction) :
    (code.appendAll instructions).bytes = code.bytes ++ encodeAll instructions := by
  induction instructions generalizing code with
  | nil => exact (List.append_nil _).symm
  | cons instruction instructions induction =>
      rw [appendAll, List.foldl_cons]
      refine (induction _).trans ?_
      rw [appendInstruction, append, encodeAll_cons, encode, List.append_assoc]

/-- Where reading starts only shifts the offsets. -/
theorem instructionsFrom_add (base offset : Nat) (bytes : List UInt8) :
    instructionsFrom (base + offset) bytes =
      (instructionsFrom offset bytes).map fun (later, opcode) => (base + later, opcode) := by
  induction offset, bytes using instructionsFrom.induct with
  | case1 offset => simp [instructionsFrom]
  | case2 offset byte rest unknown => simp [instructionsFrom, unknown]
  | case3 offset byte rest opcode known induction =>
      rw [instructionsFrom, instructionsFrom]
      simp only [known, List.map_cons]
      rw [← induction, ← Nat.add_assoc, ← Nat.add_assoc]

theorem byte?_of_bytes {code : Bytecode} {front back : List UInt8} {byte : UInt8}
    (written : code.bytes = front ++ byte :: back) : code.byte? front.length = some byte := by
  rw [byte?, written, List.getElem?_append_right (Nat.le_refl _), Nat.sub_self,
    List.getElem?_cons_zero]

theorem word?_of_bytes {code : Bytecode} {front back : List UInt8} {word : UInt16}
    (written : code.bytes = front ++ (bigEndian word ++ back)) :
    code.word? front.length = some word := by
  rw [bigEndian, List.cons_append] at written
  have first := byte?_of_bytes written
  rw [List.cons_append, List.append_cons] at written
  have second := byte?_of_bytes written
  rw [List.length_append, List.length_singleton] at second
  rw [word?, first, second]
  exact congrArg some (ofBigEndian_bigEndian word)

theorem opcode?_of_bytes {code : Bytecode} {front back : List UInt8} {opcode : Opcode}
    (written : code.bytes = front ++ opcode.code :: back) :
    code.opcode? front.length = some opcode := by
  rw [opcode?, byte?_of_bytes written]
  exact Opcode.ofCode?_code opcode

/-- The bytecode gives back the instructions that it begins with. -/
structure ReadsBack (code : Bytecode) (instructions : List Instruction) (rest : List UInt8) :
    Prop where
  /-- The instructions are listed at the offsets that add up before them; then comes what is read
  from the rest, shifted by their size. -/
  listed : code.instructions =
    (instructions.mapIdx fun index instruction =>
      (totalSize (instructions.take index), instruction.opcode)) ++
    (Bytecode.mk rest).instructions.map fun (offset, opcode) =>
      (totalSize instructions + offset, opcode)
  /-- The opcode of an instruction stands at its offset. -/
  opcode?_eq : ∀ before instruction after, instructions = before ++ instruction :: after →
    code.opcode? (totalSize before) = some instruction.opcode
  /-- A byte that was written as an operand is read after the opcode. -/
  byte?_eq : ∀ before instruction after, instructions = before ++ instruction :: after →
    ∀ front byte back, instruction.operands = front ++ byte :: back →
      code.byte? (totalSize before + 1 + front.length) = some byte
  /-- A word that was written as an operand is read after the opcode. -/
  word?_eq : ∀ before instruction after, instructions = before ++ instruction :: after →
    ∀ front word back, instruction.operands = front ++ (bigEndian word ++ back) →
      code.word? (totalSize before + 1 + front.length) = some word

/-- Instructions that were written are read back, whatever follows them. -/
theorem readsBack_append (instructions : List Instruction) (rest : List UInt8) :
    ((({} : Bytecode).appendAll instructions).append rest).ReadsBack instructions rest := by
  have written : ((({} : Bytecode).appendAll instructions).append rest).bytes =
      encodeAll instructions ++ rest := by
    rw [append, bytes_appendAll, List.nil_append]
  generalize (({} : Bytecode).appendAll instructions).append rest = code at written
  have split : ∀ before instruction after, instructions = before ++ instruction :: after →
      code.bytes = encodeAll before ++
        instruction.opcode.code :: (instruction.operands ++ (encodeAll after ++ rest)) := by
    rintro before instruction after rfl
    rw [written, encodeAll_append, encodeAll_cons, encode]
    simp only [List.append_assoc, List.cons_append]
  have placed : ∀ (before : List Instruction) (opcode : Opcode) (front : List UInt8),
      (encodeAll before ++ opcode.code :: front).length = totalSize before + 1 + front.length := by
    intro before opcode front
    rw [List.length_append, List.length_cons, length_encodeAll]
    omega
  refine ⟨?_, ?_, ?_, ?_⟩
  · have shifted := instructionsFrom_add (totalSize instructions) 0 rest
    rw [Nat.add_zero] at shifted
    rw [Bytecode.instructions, written, instructionsFrom_encodeAll, located_eq_mapIdx,
      length_encodeAll]
    simp only [Nat.zero_add, shifted]
    rfl
  · intro before instruction after found
    have here := opcode?_of_bytes (split before instruction after found)
    rw [length_encodeAll] at here
    exact here
  · intro before instruction after found front byte back operands
    have here : code.bytes = (encodeAll before ++ instruction.opcode.code :: front) ++
        byte :: (back ++ (encodeAll after ++ rest)) := by
      rw [split before instruction after found, operands]
      simp only [List.append_assoc, List.cons_append]
    rw [← placed before instruction.opcode front]
    exact byte?_of_bytes here
  · intro before instruction after found front word back operands
    have here : code.bytes = (encodeAll before ++ instruction.opcode.code :: front) ++
        (bigEndian word ++ (back ++ (encodeAll after ++ rest))) := by
      rw [split before instruction after found, operands]
      simp only [List.append_assoc, List.cons_append]
    rw [← placed before instruction.opcode front]
    exact word?_of_bytes here

/-! ## Reading any bytes -/

/-- Walking through the code from an offset meets these opcodes and ends at the last offset, where
there is no opcode. -/
inductive Walk (code : Bytecode) : Nat → List (Nat × Opcode) → Nat → Prop where
  | stop {offset : Nat} (missing : code.opcode? offset = none) : Walk code offset [] offset
  | step {offset last : Nat} {opcode : Opcode} {rest : List (Nat × Opcode)}
      (met : code.opcode? offset = some opcode)
      (further : Walk code (offset + 1 + opcode.operandSize) rest last) :
      Walk code offset ((offset, opcode) :: rest) last

theorem byte?_eq_head? (code : Bytecode) (offset : Nat) :
    code.byte? offset = (code.bytes.drop offset).head? := by
  rw [byte?, List.head?_drop]

theorem exists_walk_instructionsFrom (code : Bytecode) (offset : Nat) {bytes : List UInt8}
    (here : code.bytes.drop offset = bytes) :
    ∃ last, Walk code offset (instructionsFrom offset bytes) last := by
  induction offset, bytes using instructionsFrom.induct with
  | case1 offset =>
      rw [instructionsFrom]
      exact ⟨offset, .stop (by rw [opcode?, byte?_eq_head?, here]; rfl)⟩
  | case2 offset byte rest unknown =>
      rw [instructionsFrom]
      simp only [unknown]
      exact ⟨offset, .stop (by rw [opcode?, byte?_eq_head?, here]; exact unknown)⟩
  | case3 offset byte rest opcode known induction =>
      have after : code.bytes.drop (offset + 1 + opcode.operandSize) =
          rest.drop opcode.operandSize := by
        rw [Nat.add_assoc, ← List.drop_drop, here, Nat.add_comm, List.drop_succ_cons]
      obtain ⟨last, further⟩ := induction after
      rw [instructionsFrom]
      simp only [known]
      exact ⟨last, .step (by rw [opcode?, byte?_eq_head?, here]; exact known) further⟩

theorem lt_size_of_opcode? {code : Bytecode} {offset : Nat} {opcode : Opcode}
    (met : code.opcode? offset = some opcode) : offset < code.size := by
  obtain ⟨byte, held, -⟩ := Option.bind_eq_some_iff.1 met
  exact (List.getElem?_eq_some_iff.1 held).1

theorem drop_of_opcode? {code : Bytecode} {offset : Nat} {opcode : Opcode}
    (met : code.opcode? offset = some opcode) :
    code.bytes.drop offset = opcode.code :: code.bytes.drop (offset + 1) := by
  obtain ⟨byte, held, decoded⟩ := Option.bind_eq_some_iff.1 met
  obtain ⟨within, rfl⟩ := List.getElem?_eq_some_iff.1 held
  rw [List.drop_eq_getElem_cons within, Opcode.eq_code_of_ofCode? decoded]

theorem opcode?_eq_none_iff {code : Bytecode} {offset : Nat} :
    code.opcode? offset = none ↔ code.size ≤ offset ∨
      ∃ byte, code.byte? offset = some byte ∧ Opcode.ofCode? byte = none := by
  rw [opcode?, size]
  cases held : code.byte? offset with
  | none => simpa using List.getElem?_eq_none_iff.1 held
  | some byte =>
      have within := (List.getElem?_eq_some_iff.1 held).1
      simp [Nat.not_le_of_lt within]

theorem length_operandsAt {code : Bytecode} {offset : Nat} {opcode : Opcode}
    (inside : offset + 1 + opcode.operandSize ≤ code.size) :
    (code.operandsAt offset opcode).length = opcode.operandSize := by
  rw [operandsAt, List.length_take, List.length_drop]
  rw [size] at inside
  omega

/-- The instruction at an offset, if its operand bytes lie inside the bytecode. -/
def completeAt? (code : Bytecode) (offset : Nat) (opcode : Opcode) : Option Instruction :=
  if inside : offset + 1 + opcode.operandSize ≤ code.size then
    some ⟨opcode, code.operandsAt offset opcode, length_operandsAt inside⟩
  else
    none

/-- The instructions that are read and whose operand bytes lie inside the bytecode. -/
def complete (code : Bytecode) : List Instruction :=
  code.instructions.filterMap fun (offset, opcode) => code.completeAt? offset opcode

namespace Walk

variable {code : Bytecode} {offset last : Nat} {entries : List (Nat × Opcode)}

theorem opcode?_last (walk : code.Walk offset entries last) : code.opcode? last = none := by
  induction walk with
  | stop missing => exact missing
  | step _ _ induction => exact induction

theorem opcode?_of_mem (walk : code.Walk offset entries last) {entry : Nat × Opcode}
    (member : entry ∈ entries) : code.opcode? entry.1 = some entry.2 := by
  induction walk with
  | stop => contradiction
  | step met _ induction =>
      rcases List.mem_cons.1 member with rfl | later
      · exact met
      · exact induction later

theorem eq_of_head? (walk : code.Walk offset entries last) {entry : Nat × Opcode}
    (first : entries.head? = some entry) : entry.1 = offset := by
  cases walk with
  | stop => contradiction
  | step =>
      cases first
      rfl

theorem isChain (walk : code.Walk offset entries last) :
    entries.IsChain fun earlier later => later.1 = earlier.1 + 1 + earlier.2.operandSize := by
  induction walk with
  | stop => exact .nil
  | step _ further induction =>
      exact List.isChain_cons.2 ⟨fun entry first => further.eq_of_head? first, induction⟩

theorem last_eq (walk : code.Walk offset entries last) :
    last = match entries.getLast? with
      | some (final, opcode) => final + 1 + opcode.operandSize
      | none => offset := by
  induction walk with
  | stop => rfl
  | @step offset last opcode rest met further induction =>
      rw [List.getLast?_cons, induction]
      cases rest.getLast? <;> rfl

theorem inside_of_mem_dropLast (walk : code.Walk offset entries last) {entry : Nat × Opcode}
    (member : entry ∈ entries.dropLast) :
    entry.1 + 1 + entry.2.operandSize ≤ code.size := by
  induction walk with
  | stop => contradiction
  | step met further induction =>
      cases further with
      | stop => contradiction
      | step next farther =>
          rw [List.dropLast_cons_cons] at member
          rcases List.mem_cons.1 member with rfl | later
          · exact Nat.le_of_lt (lt_size_of_opcode? next)
          · exact induction later

/-- The complete instructions of a walk are what the bytes begin with. -/
theorem encodeAll_prefix (walk : code.Walk offset entries last) :
    encodeAll (entries.filterMap fun (offset, opcode) => code.completeAt? offset opcode) <+:
      code.bytes.drop offset := by
  induction walk with
  | stop => exact List.nil_prefix
  | @step offset last opcode rest met further induction =>
      rw [List.filterMap_cons]
      by_cases inside : offset + 1 + opcode.operandSize ≤ code.size
      · have bytes : code.bytes.drop offset = opcode.code :: (code.operandsAt offset opcode ++
            code.bytes.drop (offset + 1 + opcode.operandSize)) := by
          rw [drop_of_opcode? met, operandsAt, ← List.drop_drop (i := opcode.operandSize),
            List.take_append_drop]
        simp only [completeAt?, dif_pos inside]
        rw [encodeAll_cons, encode, bytes, List.cons_append]
        exact List.cons_prefix_cons.2 ⟨rfl, (List.prefix_append_right_inj _).2 induction⟩
      · -- The operand bytes are cut off, so the walk ends here.
        cases further with
        | stop =>
            simp only [completeAt?, dif_neg inside]
            exact List.nil_prefix
        | step next => exact absurd (Nat.le_of_lt (lt_size_of_opcode? next)) inside

end Walk

/-- What reading does with any bytes. -/
structure ReadsThrough (code : Bytecode) : Prop where
  /-- The first instruction is at the start. -/
  starts : ∀ entry, code.instructions.head? = some entry → entry.1 = 0
  /-- Each further one follows the opcode and the operand bytes of the one before. -/
  follows : code.instructions.IsChain fun earlier later =>
    later.1 = earlier.1 + 1 + earlier.2.operandSize
  /-- So the offsets increase. -/
  increases : (code.instructions.map (·.1)).Pairwise (· < ·)
  /-- An instruction that is read has its opcode inside the bytecode. -/
  reads : ∀ entry ∈ code.instructions,
    entry.1 < code.size ∧ code.opcode? entry.1 = some entry.2
  /-- Where the next instruction would be, the bytecode has ended or has no opcode. -/
  stops : code.size ≤ code.decodedSize ∨
    ∃ byte, code.byte? code.decodedSize = some byte ∧ Opcode.ofCode? byte = none
  /-- Only the last instruction can lack operand bytes. -/
  inside : ∀ entry ∈ code.instructions.dropLast,
    entry.1 + 1 + entry.2.operandSize ≤ code.size
  /-- The complete instructions are written again as a first part of the bytes. -/
  rewritten : (({} : Bytecode).appendAll code.complete).bytes <+: code.bytes

theorem readsThrough (code : Bytecode) : code.ReadsThrough := by
  obtain ⟨last, walk⟩ := exists_walk_instructionsFrom code 0 rfl
  change code.Walk 0 code.instructions last at walk
  have ended : code.decodedSize = last := walk.last_eq.symm
  have ascending : code.instructions.IsChain fun earlier later => earlier.1 < later.1 :=
    walk.isChain.imp fun earlier later next => by omega
  refine ⟨fun _ => walk.eq_of_head?, walk.isChain, ?_, ?_, ?_, ?_, ?_⟩
  · exact List.isChain_iff_pairwise.1 ((List.isChain_map Prod.fst).2 ascending)
  · exact fun entry member =>
      ⟨lt_size_of_opcode? (walk.opcode?_of_mem member), walk.opcode?_of_mem member⟩
  · rw [ended]
    exact opcode?_eq_none_iff.1 walk.opcode?_last
  · exact fun entry => walk.inside_of_mem_dropLast
  · rw [bytes_appendAll, List.nil_append]
    exact walk.encodeAll_prefix

/-- Instructions that are written are read back whatever follows them, and reading any bytes walks
through them from opcode to opcode and gives back a first part of them. -/
theorem readsBack_and_readsThrough :
    (∀ (instructions : List Instruction) (rest : List UInt8),
      ((({} : Bytecode).appendAll instructions).append rest).ReadsBack instructions rest) ∧
    ∀ code : Bytecode, code.ReadsThrough :=
  ⟨readsBack_append, readsThrough⟩

end Bytecode
end OperatorDispatch

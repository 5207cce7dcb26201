import LedgerNode.Proofs.Script.Readings
import LedgerNode.Script.Assembly

/-!
# What directives assemble to

A directive that comes with its whole operand stands for an instruction. A list of such directives
assembles to the bytes of their instructions, one behind the other, unless an operand is too long
for its length byte. A listing then reads back just these instructions: a byte of an operand may be
the byte of an opcode, but no reading ever starts there.

- `Directive.instruction?`: the instruction that a directive stands for.
- `assemble_eq`: the code of a list of directives, or its fault.
- `Instruction.parse_encode_append`: an instruction is read from its bytes, whatever follows them.
- `Script.offset`: where an instruction of a list begins.
- `Directive.line`: the line of a directive in a listing; `disassemble_flatMap_encode`: a listing of
  the code consists of these lines.
-/

namespace LedgerNode

/-! ## The instructions of directives -/

/-- The instruction that a directive stands for. A bare opcode stands for one if no operand belongs
to it. -/
def Directive.instruction? : Directive → Option Instruction
  | emit .nop => some .nop
  | emit .dup => some .dup
  | emit .drop => some .drop
  | emit .equal => some .equal
  | emit .throwIfNot => some .throwIfNot
  | emit .ret => some .ret
  | emit _ => none
  | pushData data => some (.pushData data)
  | pushInt value => some (.pushInt value)
  | appCall contract => some (.appCall contract)
  | syscall name => some (.syscall (Bytes.ofText name))

namespace Instruction

/-- How many bytes follow the length byte of an instruction, if it has one. -/
def inlineLength : Instruction → Nat
  | pushData data => data.length
  | syscall name => name.length
  | _ => 0

/-- Whether the operand of an instruction does not fit its length byte. -/
def isOverlong (i : Instruction) : Bool :=
  maxInlineLength < i.inlineLength

theorem isOverlong_eq_false_iff {i : Instruction} :
    i.isOverlong = false ↔ i.inlineLength ≤ maxInlineLength := by
  rw [isOverlong, decide_eq_false_iff_not, Nat.not_lt]

end Instruction

/-- The fault with which an overlong operand is refused. -/
def Fault.overlong (i : Instruction) : Fault :=
  .operandTooLong i.opcode.mnemonic i.inlineLength

theorem Directive.inlineBytes_eq (op : Opcode) (data : Bytes) :
    inlineBytes op data = if maxInlineLength < data.length
      then .error (.operandTooLong op.mnemonic data.length)
      else .ok (op.code :: UInt8.ofNat data.length :: data) := by
  unfold inlineBytes
  by_cases h : data.length ≤ maxInlineLength
  · rw [if_pos h, if_neg (Nat.not_lt_of_le h)]
  · rw [if_neg h, if_pos (Nat.lt_of_not_le h)]

/-- A directive appends the bytes of its instruction, or is refused for its operand's length. -/
theorem Directive.bytes_eq {d : Directive} {i : Instruction} (h : d.instruction? = some i) :
    d.bytes = if i.isOverlong then .error (.overlong i) else .ok i.encode := by
  cases d with
  | emit op => cases op <;> cases h <;> rfl
  | pushInt value =>
    cases h
    rfl
  | appCall contract =>
    cases h
    rfl
  | pushData data =>
    cases h
    simp only [bytes, inlineBytes_eq, Instruction.isOverlong, decide_eq_true_eq]
    rfl
  | syscall name =>
    cases h
    simp only [bytes, inlineBytes_eq, Instruction.isOverlong, decide_eq_true_eq]
    rfl

theorem mapM_instruction?_cons {d : Directive} {ds : List Directive} {is : List Instruction} :
    (d :: ds).mapM Directive.instruction? = some is ↔
      ∃ i rest, d.instruction? = some i ∧ ds.mapM Directive.instruction? = some rest ∧
        is = i :: rest := by
  rw [List.mapM_cons]
  show (d.instruction?.bind fun i => (ds.mapM Directive.instruction?).bind fun rest =>
    some (i :: rest)) = some is ↔ _
  simp only [Option.bind_eq_some_iff, Option.some.injEq]
  constructor
  · rintro ⟨i, hi, rest, hrest, rfl⟩
    exact ⟨i, rest, hi, hrest, rfl⟩
  · rintro ⟨i, rest, hi, hrest, rfl⟩
    exact ⟨i, hi, rest, hrest, rfl⟩

theorem foldlM_append_eq {ds : List Directive} {is : List Instruction}
    (h : ds.mapM Directive.instruction? = some is) (code : Bytes) :
    ds.foldlM Directive.append code = match is.find? Instruction.isOverlong with
      | some i => .error (.overlong i)
      | none => .ok (code ++ is.flatMap Instruction.encode) := by
  induction ds generalizing is code with
  | nil =>
    cases h
    show Except.ok code = .ok (code ++ [])
    rw [List.append_nil]
  | cons d ds ih =>
    obtain ⟨i, rest, hi, hrest, rfl⟩ := mapM_instruction?_cons.mp h
    rw [List.foldlM_cons, Directive.append, Directive.bytes_eq hi, List.find?_cons]
    cases i.isOverlong with
    | true => rfl
    | false =>
      show ds.foldlM Directive.append (code ++ i.encode) = _
      rw [ih hrest, List.flatMap_cons, List.append_assoc]

/-- Directives assemble to the bytes of their instructions, or else are refused with the first
operand that is too long. -/
theorem assemble_eq {ds : List Directive} {is : List Instruction}
    (h : ds.mapM Directive.instruction? = some is) :
    assemble ds = match is.find? Instruction.isOverlong with
      | some i => .error (.overlong i)
      | none => .ok (is.flatMap Instruction.encode) :=
  foldlM_append_eq h []

section

variable {ds : List Directive} {is : List Instruction}
  (h : ds.mapM Directive.instruction? = some is)
include h

theorem isOverlong_of_assemble_eq_error {x : Fault} (hx : assemble ds = .error x) :
    ∃ i ∈ is, maxInlineLength < i.inlineLength ∧ x = .overlong i := by
  rw [assemble_eq h] at hx
  cases hfind : is.find? Instruction.isOverlong with
  | none =>
    rw [hfind] at hx
    cases hx
  | some i =>
    rw [hfind] at hx
    cases hx
    have hlong : i.isOverlong = true := List.find?_some hfind
    exact ⟨i, List.mem_of_find?_eq_some hfind, of_decide_eq_true hlong, rfl⟩

theorem assemble_eq_error_iff :
    (∃ x, assemble ds = .error x) ↔ ∃ i ∈ is, maxInlineLength < i.inlineLength := by
  constructor
  · rintro ⟨x, hx⟩
    obtain ⟨i, hi, hlong, -⟩ := isOverlong_of_assemble_eq_error h hx
    exact ⟨i, hi, hlong⟩
  · rintro ⟨i, hi, hlong⟩
    rw [assemble_eq h]
    cases hfind : is.find? Instruction.isOverlong with
    | some j => exact ⟨_, rfl⟩
    | none => exact absurd (decide_eq_true hlong) (List.find?_eq_none.mp hfind i hi)

theorem eq_flatMap_of_assemble_eq_ok {script : Bytes} (hscript : assemble ds = .ok script) :
    script = is.flatMap Instruction.encode ∧ ∀ i ∈ is, i.inlineLength ≤ maxInlineLength := by
  rw [assemble_eq h] at hscript
  cases hfind : is.find? Instruction.isOverlong with
  | some i =>
    rw [hfind] at hscript
    cases hscript
  | none =>
    rw [hfind] at hscript
    cases hscript
    refine ⟨rfl, fun i hi => ?_⟩
    have hshort : i.isOverlong = false := eq_false_of_ne_true (List.find?_eq_none.mp hfind i hi)
    exact Instruction.isOverlong_eq_false_iff.mp hshort

end

/-! ## Reading an instruction back -/

/-- The bytes of an integer read as an integer give it back. -/
theorem Bytes.toInt64LE_ofInt64LE (value : Int64) : (ofInt64LE value).toInt64LE = value := by
  have hlt : value.toUInt64.toNat < Nat.pow 256 8 := value.toUInt64.toNat_lt
  unfold toInt64LE ofInt64LE
  rw [toNatLE_ofNatLE, Nat.mod_eq_of_lt hlt, UInt64.ofNat_toNat, Int64.toInt64_toUInt64]

namespace Instruction

theorem front_append (offset : Nat) {n : Nat} {bs : Bytes} (h : bs.length = n) (code : Bytes) :
    front offset n (bs ++ code) = .ok ⟨bs, h⟩ := by
  subst h
  have hle : bs.length ≤ (bs ++ code).length := by simp
  unfold front
  rw [dif_pos hle]
  simp only [List.take_left]

theorem inlineOperand_append (offset : Nat) {data : Bytes} (h : data.length ≤ maxInlineLength)
    (code : Bytes) :
    inlineOperand offset (UInt8.ofNat data.length :: (data ++ code)) = .ok data := by
  have hlength : data.length = (UInt8.ofNat data.length).toNat := by
    rw [UInt8.toNat_ofNat_of_lt' (Nat.lt_succ_of_le h)]
  rw [inlineOperand, front_append (offset + 1) hlength code]
  rfl

/-- An instruction whose operand fits its length byte is read from its bytes, whatever follows. -/
theorem parse_encode_append (offset : Nat) {i : Instruction} (h : i.inlineLength ≤ maxInlineLength)
    (code : Bytes) : parse offset (i.encode ++ code) = .ok i := by
  cases i with
  | nop | dup | drop | equal | throwIfNot | ret => rfl
  | pushData data =>
    show (inlineOperand (offset + 1) (UInt8.ofNat data.length :: (data ++ code))).map pushData = _
    rw [inlineOperand_append (offset + 1) h code]
    rfl
  | pushInt value =>
    have hlength : (Bytes.ofInt64LE value).length = 8 := Bytes.length_ofNatLE _ _
    show (front (offset + 1) 8 (Bytes.ofInt64LE value ++ code)).map
      (fun bs => pushInt bs.val.toInt64LE) = _
    rw [front_append (offset + 1) hlength code]
    exact congrArg (fun value => Except.ok (pushInt value)) (Bytes.toInt64LE_ofInt64LE value)
  | appCall contract => exact parse_appCall offset contract code
  | syscall name =>
    show (inlineOperand (offset + 1) (UInt8.ofNat name.length :: (name ++ code))).map syscall = _
    rw [inlineOperand_append (offset + 1) h code]
    rfl

end Instruction

namespace Script

/-! ## Reading a list of instructions back -/

/-- Where an instruction of a list begins: behind the bytes of those before it. -/
def offset (is : List Instruction) (k : Nat) : Nat :=
  ((is.take k).flatMap Instruction.encode).length

theorem offset_zero (is : List Instruction) : offset is 0 = 0 := rfl

theorem offset_cons (i : Instruction) (is : List Instruction) (k : Nat) :
    offset (i :: is) (k + 1) = i.size + offset is k := by
  unfold offset
  rw [List.take_succ_cons, List.flatMap_cons, List.length_append, Instruction.length_encode]

/-- The next instruction begins where one ends. -/
theorem offset_succ {is : List Instruction} {k : Nat} {i : Instruction} (h : is[k]? = some i) :
    offset is (k + 1) = offset is k + i.size := by
  unfold offset
  rw [List.take_add_one, h, List.flatMap_append, List.length_append]
  simp

/-- Where an instruction begins, the code goes on with its bytes. -/
theorem drop_offset {is : List Instruction} {k : Nat} {i : Instruction} (h : is[k]? = some i) :
    (is.flatMap Instruction.encode).drop (offset is k) =
      i.encode ++ (is.drop (k + 1)).flatMap Instruction.encode := by
  obtain ⟨hk, hget⟩ := List.getElem?_eq_some_iff.mp h
  have hsplit : is.flatMap Instruction.encode =
      (is.take k).flatMap Instruction.encode ++ (is.drop k).flatMap Instruction.encode := by
    rw [← List.flatMap_append, List.take_append_drop]
  rw [hsplit, offset, List.drop_left, List.drop_eq_getElem_cons hk, hget, List.flatMap_cons]

/-- What is read at the beginning of an instruction is this instruction. -/
theorem parse_drop_offset {is : List Instruction} {k : Nat} {i : Instruction}
    (hfits : ∀ i ∈ is, i.inlineLength ≤ maxInlineLength) (h : is[k]? = some i) :
    Instruction.parse (offset is k) ((is.flatMap Instruction.encode).drop (offset is k)) =
      .ok i := by
  rw [drop_offset h]
  exact Instruction.parse_encode_append _ (hfits i (List.mem_of_getElem? h)) _

/-- A listing reads the bytes of instructions as these instructions, each at its offset. -/
theorem readingsFrom_flatMap_encode {is : List Instruction}
    (hfits : ∀ i ∈ is, i.inlineLength ≤ maxInlineLength) (base : Nat) :
    readingsFrom base (is.flatMap Instruction.encode) =
      is.mapIdx fun k i => (base + offset is k, .ok i) := by
  induction is generalizing base with
  | nil => rw [List.flatMap_nil, readingsFrom, List.mapIdx_nil]
  | cons i is ih =>
    rw [List.forall_mem_cons] at hfits
    have hparse := Instruction.parse_encode_append base hfits.1 (is.flatMap Instruction.encode)
    have hdrop : (i.encode ++ is.flatMap Instruction.encode).drop i.size =
        is.flatMap Instruction.encode := List.drop_left' i.length_encode
    rw [List.flatMap_cons, readingsFrom_of_ok hparse, hdrop, ih hfits.2, List.mapIdx_cons]
    simp only [offset_zero, offset_cons, Nat.add_zero, Nat.add_assoc]

theorem map_mapIdx {α β γ : Type} (as : List α) (f : Nat → α → β) (g : β → γ) :
    (as.mapIdx f).map g = as.mapIdx fun k a => g (f k a) := by
  rw [List.mapIdx_eq_zipIdx_map, List.map_map, List.mapIdx_eq_zipIdx_map]
  rfl

theorem mapM_located_ok (ps : List (Nat × Instruction)) :
    (ps.map fun p => (p.1, (.ok p.2 : Except Fault Instruction))).mapM located = .ok ps := by
  induction ps with
  | nil => rfl
  | cons p ps ih =>
    rw [List.map_cons, List.mapM_cons, ih]
    rfl

/-- The bytes of instructions are read as these instructions, each at its offset. -/
theorem instructions_flatMap_encode {is : List Instruction}
    (hfits : ∀ i ∈ is, i.inlineLength ≤ maxInlineLength) :
    instructions (is.flatMap Instruction.encode) = .ok (is.mapIdx fun k i => (offset is k, i)) := by
  have hreadings : readings (is.flatMap Instruction.encode) =
      (is.mapIdx fun k i => (offset is k, i)).map fun p => (p.1, .ok p.2) := by
    rw [readings, readingsFrom_flatMap_encode hfits, map_mapIdx]
    simp only [Nat.zero_add]
  rw [instructions, instructionsFrom_eq, ← readings, hreadings, mapM_located_ok]

/-- A listing of the bytes of instructions has a line for each of them. -/
theorem disassemble_flatMap_encode {is : List Instruction}
    (hfits : ∀ i ∈ is, i.inlineLength ≤ maxInlineLength) :
    disassemble (is.flatMap Instruction.encode) =
      .ok (String.join (is.mapIdx fun k i => Listing.line (offset is k) i)) := by
  rw [disassemble, instructions_flatMap_encode hfits]
  show Except.ok (String.join _) = _
  rw [map_mapIdx]

end Script

/-! ## The lines of directives -/

namespace Directive

/-- The opcode of a directive. -/
def opcode : Directive → Opcode
  | emit op => op
  | pushData _ => .pushData
  | pushInt _ => .pushInt
  | appCall _ => .appCall
  | syscall _ => .syscall

/-- The operand of a directive as text. -/
def operandText : Directive → String
  | emit _ => ""
  | pushData data => " 0x" ++ data.toHex
  | pushInt value => " " ++ Text.integer value.toInt
  | appCall contract => " 0x" ++ contract.toHex
  | syscall name => " \"" ++ name ++ "\""

/-- The line of a directive in a listing. -/
def line (offset : Nat) (d : Directive) : String :=
  Text.padLeft '0' 4 (Text.numeral offset) ++ ": " ++ d.opcode.mnemonic ++ d.operandText ++ "\n"

/-- The line of an instruction is the line of the directive that stands for it: a name is shown as
it was given. -/
theorem line_eq {d : Directive} {i : Instruction} (h : d.instruction? = some i) (offset : Nat) :
    Listing.line offset i = d.line offset := by
  cases d with
  | emit op => cases op <;> cases h <;> rfl
  | pushData | pushInt | appCall =>
    cases h
    rfl
  | syscall name =>
    cases h
    simp only [Listing.line, Listing.operandText, Text.ofBytesLossy_ofText]
    rfl

theorem mapIdx_line_eq {ds : List Directive} {is : List Instruction}
    (h : ds.mapM Directive.instruction? = some is) (start : Nat → Nat) :
    (is.mapIdx fun k i => Listing.line (start k) i) = ds.mapIdx fun k d => d.line (start k) := by
  induction ds generalizing is start with
  | nil =>
    cases h
    rfl
  | cons d ds ih =>
    obtain ⟨i, rest, hi, hrest, rfl⟩ := mapM_instruction?_cons.mp h
    rw [List.mapIdx_cons, List.mapIdx_cons, line_eq hi, ih hrest fun k => start (k + 1)]

end Directive

end LedgerNode

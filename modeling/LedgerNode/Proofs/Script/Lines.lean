import LedgerNode.Proofs.Script.Assembling
import LedgerNode.Proofs.Text.LineFeeds
import Mathlib.Algebra.GroupWithZero.Nat

/-!
# The lines of a listing

A listing ends the line of each instruction with a line feed. Nothing else in a line is one, but for
the name of a service, which is shown as it is. A name with line feeds in it takes several lines,
and these may look like lines of instructions that are not there.

- `Instruction.service`: the name of the service that an instruction calls.
- `Listing.body`: a line without the line feed at its end; `Listing.count_body` counts those that it
  has all the same.
- `Listing.splitOn_flatMap_append`: a text cut at its line feeds.
- `Listing.one_line_each_iff`: when a listing has one line for each instruction.
- `Listing.forged_line`: two scripts with one listing.
-/

namespace LedgerNode

/-- The name of the service that an instruction calls, empty if it calls none. -/
def Instruction.service : Instruction → Bytes
  | syscall name => name
  | _ => []

/-- A script has a listing if it consists of instructions, and these make the lines. -/
theorem disassemble_eq_ok_iff {script : Bytes} {text : String} :
    disassemble script = .ok text ↔ ∃ is, Script.instructions script = .ok is ∧
      String.join (is.map fun (offset, i) => Listing.line offset i) = text := by
  unfold disassemble
  rw [bind_eq_ok_iff]
  simp only [pure, Except.pure, Except.ok.injEq]

namespace Listing

/-! ## One line -/

/-- The characters of a line, up to the line feed at its end. -/
def body (offset : Nat) (i : Instruction) : List Char :=
  (Text.padLeft '0' 4 (Text.numeral offset) ++ ": " ++ i.opcode.mnemonic).toList ++
    (operandText i).toList

theorem toList_line (offset : Nat) (i : Instruction) :
    (line offset i).toList = body offset i ++ ['\n'] := by
  unfold line body
  simp only [String.toList_append]
  rfl

theorem isDigit_of_mem_offset {offset : Nat} {c : Char}
    (h : c ∈ (Text.padLeft '0' 4 (Text.numeral offset)).toList) : c.isDigit = true := by
  rw [Text.padLeft, String.toList_append, String.toList_ofList, List.mem_append] at h
  rcases h with h | h
  · rw [List.eq_of_mem_replicate h]
    rfl
  · exact Text.isDigit_of_mem_numeral h

theorem lineFeed_not_mem_integer (n : Int) : '\n' ∉ (Text.integer n).toList := by
  have hdigits : ∀ k : Nat, '\n' ∉ (Text.numeral k).toList := by
    intro k h
    exact absurd (Text.isDigit_of_mem_numeral h) (by decide)
  unfold Text.integer
  split
  · rw [String.toList_append, List.mem_append, not_or]
    exact ⟨by decide, hdigits _⟩
  · exact hdigits _

theorem lineFeed_not_mem_toHex (bs : Bytes) : '\n' ∉ bs.toHex.toList := by
  have hdigit : ∀ n < 16, '\n' ≠ Nat.digitChar n := by decide
  rw [Bytes.toHex, String.toList_ofList, List.mem_flatMap]
  rintro ⟨b, -, hb⟩
  have hlt : b.toNat < 256 := b.toNat_lt
  simp only [Hex.digits, List.mem_cons, List.not_mem_nil, or_false] at hb
  rcases hb with hb | hb
  · exact hdigit _ (by omega) hb
  · exact hdigit _ (by omega) hb

/-- In front of the operand there is no line feed. -/
theorem lineFeed_not_mem_front (offset : Nat) (i : Instruction) :
    '\n' ∉ (Text.padLeft '0' 4 (Text.numeral offset) ++ ": " ++ i.opcode.mnemonic).toList := by
  have hmnemonic : '\n' ∉ i.opcode.mnemonic.toList := by
    cases i.opcode <;> decide
  rw [String.toList_append, String.toList_append, List.mem_append, List.mem_append, not_or, not_or]
  refine ⟨⟨fun h => ?_, by decide⟩, hmnemonic⟩
  exact absurd (isDigit_of_mem_offset h) (by decide)

/-- An operand is shown with the line feeds of the name of a service, and with no others. -/
theorem count_operandText (i : Instruction) :
    (operandText i).toList.count '\n' = i.service.count 0x0a := by
  have hhex : ∀ bs : Bytes, (" 0x" ++ bs.toHex).toList.count '\n' = 0 := by
    intro bs
    rw [List.count_eq_zero, String.toList_append, List.mem_append, not_or]
    exact ⟨by decide, lineFeed_not_mem_toHex bs⟩
  cases i with
  | nop | dup | drop | equal | throwIfNot | ret => rfl
  | pushData data => exact hhex data
  | appCall contract => exact hhex contract.bytes
  | pushInt value =>
    show (" " ++ Text.integer value.toInt).toList.count '\n' = 0
    rw [List.count_eq_zero, String.toList_append, List.mem_append, not_or]
    exact ⟨by decide, lineFeed_not_mem_integer _⟩
  | syscall name =>
    show (" \"" ++ Text.ofBytesLossy name ++ "\"").toList.count '\n' = name.count 0x0a
    rw [String.toList_append, String.toList_append, List.count_append, List.count_append,
      Text.count_ofBytesLossy]
    exact (Nat.add_zero _).trans (Nat.zero_add _)

theorem count_body (offset : Nat) (i : Instruction) :
    (body offset i).count '\n' = i.service.count 0x0a := by
  rw [body, List.count_append, List.count_eq_zero.mpr (lineFeed_not_mem_front offset i),
    Nat.zero_add, count_operandText]

/-! ## All lines -/

/-- The characters of a listing. -/
theorem toList_join_line (is : List (Nat × Instruction)) :
    (String.join (is.map fun (offset, i) => line offset i)).toList =
      (is.map fun p => body p.1 p.2).flatMap (· ++ ['\n']) := by
  rw [String.toList_join, List.flatMap_map, List.flatMap_map]
  simp only [toList_line]

/-- Each line ends with a line feed. -/
theorem count_flatMap_append (bodies : List (List Char)) :
    (bodies.flatMap (· ++ ['\n'])).count '\n' =
      bodies.length + (bodies.map (List.count '\n')).sum := by
  induction bodies with
  | nil => rfl
  | cons b rest ih =>
    rw [List.flatMap_cons, List.count_append, List.count_append, ih, List.map_cons, List.sum_cons,
      List.length_cons, List.count_singleton_self]
    omega

/-- Cut at its line feeds, a text whose lines have none inside them gives these lines, and nothing
behind the last line feed. -/
theorem splitOn_flatMap_append {bodies : List (List Char)} (h : ∀ b ∈ bodies, '\n' ∉ b) :
    (bodies.flatMap (· ++ ['\n'])).splitOn '\n' = bodies ++ [[]] := by
  induction bodies with
  | nil => rfl
  | cons b rest ih =>
    rw [List.forall_mem_cons] at h
    rw [List.flatMap_cons, List.append_assoc, List.singleton_append,
      List.splitOn_append_cons_self_of_not_mem h.1, ih h.2, List.cons_append]

/-- A listing of instructions whose services have no line feeds in their names, cut at its line
feeds. -/
theorem splitOn_join_line {is : List (Nat × Instruction)}
    (h : ∀ p ∈ is, (0x0a : UInt8) ∉ p.2.service) :
    (String.join (is.map fun (offset, i) => line offset i)).toList.splitOn '\n' =
      (is.map fun p => body p.1 p.2) ++ [[]] := by
  rw [toList_join_line]
  refine splitOn_flatMap_append fun b hb => ?_
  obtain ⟨p, hp, rfl⟩ := List.mem_map.mp hb
  rw [← List.count_eq_zero, count_body, List.count_eq_zero]
  exact h p hp

/-- The names of services tell how many line feeds a listing has. -/
theorem count_join_line (is : List (Nat × Instruction)) :
    (String.join (is.map fun (offset, i) => line offset i)).toList.count '\n' =
      is.length + (is.map fun p => p.2.service.count 0x0a).sum := by
  have hcounts : (is.map fun p => body p.1 p.2).map (List.count '\n') =
      is.map fun p => p.2.service.count 0x0a := by
    rw [List.map_map]
    refine List.map_congr_left fun p _ => ?_
    rw [Function.comp_apply, count_body]
  rw [toList_join_line, count_flatMap_append, List.length_map, hcounts]

/-- What holds of the empty name holds of all services once it does of the names that are called. -/
theorem forall_service_iff {P : Bytes → Prop} (hnil : P []) {is : List (Nat × Instruction)} :
    (∀ offset name, (offset, .syscall name) ∈ is → P name) ↔ ∀ p ∈ is, P p.2.service := by
  constructor
  · rintro h ⟨offset, i⟩ hp
    cases i with
    | syscall name => exact h offset name hp
    | _ => exact hnil
  · intro h offset name hname
    exact h (offset, .syscall name) hname

/-- A listing has a line feed for each instruction, and one more for each that stands in the name of
a service. So it has one line for each instruction, which begins with the offset in at least four
digits, a colon, a blank and the mnemonic, exactly when no service has a line feed in its name. -/
theorem one_line_each_iff {script : Bytes} {text : String} (h : disassemble script = .ok text) :
    ∃ is, Script.instructions script = .ok is ∧
      text.toList.count '\n' = is.length + (is.map fun p => p.2.service.count 0x0a).sum ∧
      ((text.toList.count '\n' = is.length ∧
        ∀ (k offset : Nat) (i : Instruction), is[k]? = some (offset, i) →
          ∃ operand, (text.toList.splitOn '\n')[k]? = some ((Text.padLeft '0' 4
            (Text.numeral offset) ++ ": " ++ i.opcode.mnemonic).toList ++ operand)) ↔
        ∀ offset name, (offset, .syscall name) ∈ is → 0x0a ∉ name) := by
  obtain ⟨is, his, rfl⟩ := disassemble_eq_ok_iff.mp h
  refine ⟨is, his, count_join_line is, ?_⟩
  rw [forall_service_iff List.not_mem_nil]
  constructor
  · rintro ⟨hcount, -⟩ p hp
    rw [count_join_line] at hcount
    have hsum : (is.map fun p => p.2.service.count 0x0a).sum = 0 := by omega
    rw [List.sum_eq_zero_iff_forall_eq_nat] at hsum
    exact List.count_eq_zero.mp (hsum _ (List.mem_map_of_mem hp))
  · intro hplain
    refine ⟨?_, ?_⟩
    · rw [count_join_line, Nat.add_eq_left, List.sum_eq_zero_iff_forall_eq_nat]
      intro n hn
      obtain ⟨p, hp, rfl⟩ := List.mem_map.mp hn
      exact List.count_eq_zero.mpr (hplain p hp)
    · intro k offset i hk
      obtain ⟨hlt, -⟩ := List.getElem?_eq_some_iff.mp hk
      refine ⟨(operandText i).toList, ?_⟩
      rw [splitOn_join_line hplain, List.getElem?_append_left (by simpa using hlt),
        List.getElem?_map, hk]
      rfl

/-- A listing of two calls. -/
def twoCalls : String :=
  "0000: SYSCALL \"A\"\n0003: SYSCALL \"B\"\n"

theorem disassemble_calls :
    disassemble ([Instruction.syscall (Bytes.ofText "A"), .syscall (Bytes.ofText "B")].flatMap
      Instruction.encode) = .ok twoCalls := by
  rw [Script.disassemble_flatMap_encode (by decide)]
  simp only [List.mapIdx_cons, List.mapIdx_nil, line, operandText, Text.ofBytesLossy_ofText]
  rfl

/-- Two calls of services have two lines. -/
theorem one_line_each_two_calls :
    twoCalls.toList.count '\n' = 2 ∧ ∃ operand, (twoCalls.toList.splitOn '\n')[1]? =
      some ((Text.padLeft '0' 4 (Text.numeral 3) ++ ": " ++ Opcode.syscall.mnemonic).toList ++
        operand) := by
  obtain ⟨is, his, -, hiff⟩ := one_line_each_iff disassemble_calls
  rw [Script.instructions_flatMap_encode (by decide), Except.ok.injEq] at his
  subst his
  obtain ⟨hcount, hlines⟩ := hiff.mpr (by
    rw [forall_service_iff List.not_mem_nil]
    decide)
  exact ⟨hcount, hlines 1 3 (.syscall (Bytes.ofText "B")) rfl⟩

/-- A script of one instruction, whose service has a line feed in its name, has the listing of two
calls. -/
theorem forged_line :
    Script.instructions ([Instruction.syscall (Bytes.ofText "A\"\n0003: SYSCALL \"B")].flatMap
        Instruction.encode) =
      .ok [(0, .syscall (Bytes.ofText "A\"\n0003: SYSCALL \"B"))] ∧
    disassemble ([Instruction.syscall (Bytes.ofText "A\"\n0003: SYSCALL \"B")].flatMap
      Instruction.encode) = .ok twoCalls ∧
    disassemble ([Instruction.syscall (Bytes.ofText "A"), .syscall (Bytes.ofText "B")].flatMap
      Instruction.encode) = .ok twoCalls ∧
    twoCalls.toList.count '\n' = 2 := by
  refine ⟨Script.instructions_flatMap_encode (by decide), ?_, disassemble_calls, by decide⟩
  rw [Script.disassemble_flatMap_encode (by decide)]
  simp only [List.mapIdx_cons, List.mapIdx_nil, line, operandText, Text.ofBytesLossy_ofText]
  rfl

end Listing

end LedgerNode

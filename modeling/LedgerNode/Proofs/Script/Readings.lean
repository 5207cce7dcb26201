import LedgerNode.Proofs.Outcome
import LedgerNode.Script.Listing

/-!
# How a listing cuts a script into instructions

A listing reads a script from its first byte on, each instruction where the one before it ends, up
to the end of the script or to the first place where no instruction can be read.

- `Instruction.eq_encode_append`: the code that an instruction is read from begins with its bytes.
- `Instruction.parse_eq_error`: where none can be read, there is no opcode, or the code is cut short
  (`Fault.CutShort`).
- `Script.readings`: the offsets at which the listing reads, each with what it finds there.
- `Script.disassemble_eq`: the listing is made of these readings.
- `Script.IsBoundary`: the offsets that the listing comes to, its end included; zero is one, and so
  is the end of each instruction read at one (`Script.IsBoundary.next`).
-/

namespace LedgerNode

/-- A byte stands for an opcode exactly when it is that opcode's byte. -/
theorem Opcode.ofCode?_eq_some_iff {b : UInt8} {op : Opcode} :
    ofCode? b = some op ↔ b = op.code := by
  constructor
  · intro h
    unfold ofCode? at h
    split at h <;> cases h <;> rfl
  · rintro rfl
    exact ofCode?_code op

/-- Eight bytes read as an integer are the bytes of that integer. -/
theorem Bytes.ofInt64LE_toInt64LE {bs : Bytes} (h : bs.length = 8) :
    Bytes.ofInt64LE bs.toInt64LE = bs := by
  have hlt : bs.toNatLE < UInt64.size := by
    have hbound := Bytes.toNatLE_lt bs
    rw [h] at hbound
    exact hbound
  unfold Bytes.ofInt64LE Bytes.toInt64LE
  rw [UInt64.toUInt64_toInt64, UInt64.toNat_ofNat_of_lt' hlt, ← h, Bytes.ofNatLE_toNatLE]

/-- Code that goes up to `stop` ends before the bytes requested somewhere in it. -/
inductive Fault.CutShort (stop : Nat) : Fault → Prop where
  | mk {ip requested available : Nat} (hstop : ip + available = stop)
    (hshort : available < requested) : CutShort stop (.unexpectedEnd ip requested available)

namespace Instruction

/-! ## Reading one instruction -/

theorem eq_append_of_front {offset n : Nat} {code : Bytes} {bs : { bs : Bytes // bs.length = n }}
    (h : front offset n code = .ok bs) : code = bs.val ++ code.drop n := by
  unfold front at h
  split at h
  · cases h
    exact (List.take_append_drop n code).symm
  · cases h

theorem eq_append_of_inlineOperand {offset : Nat} {code data : Bytes}
    (h : inlineOperand offset code = .ok data) :
    code = (UInt8.ofNat data.length :: data) ++ code.drop (data.length + 1) := by
  cases code with
  | nil => cases h
  | cons n code =>
    rw [inlineOperand] at h
    obtain ⟨bs, hfront, rfl⟩ := map_eq_ok_iff.mp h
    have hcode := eq_append_of_front hfront
    rw [bs.property, UInt8.ofNat_toNat, List.drop_succ_cons, List.cons_append, ← hcode]

/-- The code that an instruction is read from begins with the bytes of the instruction. -/
theorem eq_encode_append {offset : Nat} {code : Bytes} {i : Instruction}
    (h : parse offset code = .ok i) : code = i.encode ++ code.drop i.size := by
  cases code with
  | nil => cases h
  | cons b code =>
    rw [parse] at h
    cases hop : Opcode.ofCode? b with
    | none =>
      rw [hop] at h
      cases h
    | some op =>
      rw [hop] at h
      obtain rfl := Opcode.ofCode?_eq_some_iff.mp hop
      show op.code :: code = i.opcode.code :: (i.operand ++ code.drop i.operand.length)
      -- only the four opcodes with an operand read beyond their own byte
      cases op with
      | nop | dup | drop | equal | throwIfNot | ret =>
        cases h
        rfl
      | pushData =>
        obtain ⟨data, hdata, rfl⟩ := map_eq_ok_iff.mp h
        exact congrArg _ (eq_append_of_inlineOperand hdata)
      | pushInt =>
        obtain ⟨bs, hfront, rfl⟩ := map_eq_ok_iff.mp h
        have hcode := eq_append_of_front hfront
        show _ = Opcode.pushInt.code ::
          (Bytes.ofInt64LE bs.val.toInt64LE ++ code.drop (Bytes.ofInt64LE bs.val.toInt64LE).length)
        rw [Bytes.ofInt64LE_toInt64LE bs.property, bs.property, ← hcode]
      | appCall =>
        obtain ⟨bs, hfront, rfl⟩ := map_eq_ok_iff.mp h
        have hcode := eq_append_of_front hfront
        show _ = Opcode.appCall.code :: (bs.val ++ code.drop bs.val.length)
        rw [bs.property, ← hcode]
      | syscall =>
        obtain ⟨data, hdata, rfl⟩ := map_eq_ok_iff.mp h
        exact congrArg _ (eq_append_of_inlineOperand hdata)

theorem size_le_length {offset : Nat} {code : Bytes} {i : Instruction}
    (h : parse offset code = .ok i) : i.size ≤ code.length := by
  have hlength := congrArg List.length (eq_encode_append h)
  rw [List.length_append, length_encode] at hlength
  omega

theorem size_pos (i : Instruction) : 0 < i.size :=
  Nat.succ_pos _

theorem front_eq_error {ip n : Nat} {code : Bytes} {x : Fault} (h : front ip n code = .error x) :
    x.CutShort (ip + code.length) := by
  unfold front at h
  split at h
  · cases h
  · rename_i hshort
    cases h
    exact .mk rfl (Nat.lt_of_not_le hshort)

theorem inlineOperand_eq_error {ip : Nat} {code : Bytes} {x : Fault}
    (h : inlineOperand ip code = .error x) : x.CutShort (ip + code.length) := by
  cases code with
  | nil =>
    cases h
    exact .mk rfl Nat.one_pos
  | cons n code =>
    have hcut := front_eq_error (map_eq_error_iff.mp h)
    rwa [Nat.add_right_comm] at hcut

/-- Where no instruction can be read, the byte there is no opcode or the code ends too early. -/
theorem parse_eq_error {offset : Nat} {code : Bytes} {x : Fault}
    (h : parse offset code = .error x) :
    (∃ b, x = .invalidInstruction b offset ∧ code.head? = some b ∧ Opcode.ofCode? b = none) ∨
      x.CutShort (offset + code.length) := by
  cases code with
  | nil =>
    cases h
    exact .inr (.mk rfl Nat.one_pos)
  | cons b code =>
    rw [parse] at h
    rw [List.length_cons, ← Nat.add_assoc, Nat.add_right_comm]
    cases hop : Opcode.ofCode? b with
    | none =>
      rw [hop] at h
      cases h
      exact .inl ⟨b, rfl, rfl, hop⟩
    | some op =>
      rw [hop] at h
      right
      cases op with
      | nop | dup | drop | equal | throwIfNot | ret => cases h
      | pushData | syscall => exact inlineOperand_eq_error (map_eq_error_iff.mp h)
      | pushInt | appCall => exact front_eq_error (map_eq_error_iff.mp h)

/-- A call is read from its bytes, whatever follows them. -/
theorem parse_appCall (offset : Nat) (contract : Hash) (code : Bytes) :
    parse offset ((appCall contract).encode ++ code) = .ok (appCall contract) := by
  have hle : 32 ≤ (contract.bytes ++ code).length := by
    rw [List.length_append, contract.length_bytes]
    exact Nat.le_add_right _ _
  show (front (offset + 1) 32 (contract.bytes ++ code)).map _ = _
  unfold front
  rw [dif_pos hle]
  have hblock :
      Hash.ofBlock ⟨(contract.bytes ++ code).take 32, List.length_take_of_le hle⟩ = contract :=
    Hash.ext (List.take_left' contract.length_bytes)
  exact congrArg (fun contract => Except.ok (appCall contract)) hblock

theorem size_appCall (contract : Hash) : (appCall contract).size = 33 :=
  congrArg (· + 1) contract.length_bytes

end Instruction

namespace Script

/-! ## Reading a script -/

/-- What a listing finds in the code at an offset: where it reads, and the instruction read there or
the fault that ends the listing. -/
def readingsFrom (offset : Nat) : Bytes → List (Nat × Except Fault Instruction)
  | [] => []
  | b :: code =>
    match Instruction.parse offset (b :: code) with
    | .error x => [(offset, .error x)]
    | .ok i => (offset, .ok i) :: readingsFrom (offset + i.size) (code.drop (i.size - 1))
termination_by code => code.length
decreasing_by
  simp only [List.length_drop, List.length_cons]
  omega

/-- What a listing of a script finds. -/
def readings (script : Bytes) : List (Nat × Except Fault Instruction) :=
  readingsFrom 0 script

theorem readingsFrom_of_error {offset : Nat} {code : Bytes} {x : Fault} (hne : code ≠ [])
    (h : Instruction.parse offset code = .error x) :
    readingsFrom offset code = [(offset, .error x)] := by
  cases code with
  | nil => exact absurd rfl hne
  | cons b code => rw [readingsFrom, h]

theorem readingsFrom_of_ok {offset : Nat} {code : Bytes} {i : Instruction}
    (h : Instruction.parse offset code = .ok i) :
    readingsFrom offset code =
      (offset, .ok i) :: readingsFrom (offset + i.size) (code.drop i.size) := by
  cases code with
  | nil => cases h
  | cons b code =>
    rw [readingsFrom, h]
    rfl

/-- A reading as an outcome: the instruction with its offset, or the fault. -/
def located (p : Nat × Except Fault Instruction) : Except Fault (Nat × Instruction) :=
  p.2.map fun i => (p.1, i)

/-- The instructions of the code at an offset are its readings, up to a fault among them. -/
theorem instructionsFrom_eq (offset : Nat) (code : Bytes) :
    instructionsFrom offset code = (readingsFrom offset code).mapM located := by
  fun_induction readingsFrom offset code with
  | case1 offset =>
    rw [instructionsFrom]
    rfl
  | case2 offset b code x h =>
    rw [instructionsFrom, h, List.mapM_cons]
    rfl
  | case3 offset b code i h ih =>
    rw [instructionsFrom, h, List.mapM_cons]
    show (instructionsFrom (offset + i.size) (code.drop (i.size - 1)) >>= _) = _
    rw [ih]
    rfl

/-- A listing has a line for each reading, or else is refused with the fault that it ends in. -/
theorem disassemble_eq (script : Bytes) :
    disassemble script = ((readings script).mapM located).map fun is =>
      String.join (is.map fun (offset, i) => Listing.line offset i) := by
  unfold disassemble instructions readings
  rw [instructionsFrom_eq]
  cases (readingsFrom 0 script).mapM located <;> rfl

/-! ## Boundaries -/

/-- The listing of a script comes to an offset: what it has read up to there are instructions, and
it goes on with the code from there. -/
structure IsBoundary (script : Bytes) (offset : Nat) : Prop where
  le_length : offset ≤ script.length
  readings_eq : ∃ done : List (Nat × Instruction), readings script =
    done.map (fun p => (p.1, .ok p.2)) ++ readingsFrom offset (script.drop offset)

theorem isBoundary_zero (script : Bytes) : IsBoundary script 0 :=
  ⟨Nat.zero_le _, [], rfl⟩

/-- Behind an instruction read at a boundary lies the next boundary. -/
theorem IsBoundary.next {script : Bytes} {offset : Nat} {i : Instruction}
    (hb : IsBoundary script offset)
    (h : Instruction.parse offset (script.drop offset) = .ok i) :
    IsBoundary script (offset + i.size) := by
  obtain ⟨hle, done, hdone⟩ := hb
  have hsize := Instruction.size_le_length h
  rw [List.length_drop] at hsize
  refine ⟨by omega, done ++ [(offset, i)], ?_⟩
  rw [hdone, readingsFrom_of_ok h, List.drop_drop, List.map_append, List.append_assoc]
  rfl

/-- At a boundary before the end of the script the listing reads. -/
theorem IsBoundary.mem_readings {script : Bytes} {offset : Nat} (hb : IsBoundary script offset)
    (hlt : offset < script.length) :
    (offset, Instruction.parse offset (script.drop offset)) ∈ readings script := by
  obtain ⟨-, done, hdone⟩ := hb
  rw [hdone, List.mem_append]
  right
  cases h : Instruction.parse offset (script.drop offset) with
  | error x =>
    rw [readingsFrom_of_error (by simpa using hlt) h]
    exact List.mem_singleton_self _
  | ok i =>
    rw [readingsFrom_of_ok h]
    exact List.mem_cons_self

/-- A listing that ends in a fault does not come to the end of the script. -/
theorem IsBoundary.lt_length {script : Bytes} {offset o : Nat} {x : Fault}
    (hb : IsBoundary script offset) (hx : (o, .error x) ∈ readings script) :
    offset < script.length := by
  obtain ⟨hle, done, hdone⟩ := hb
  refine Nat.lt_of_le_of_ne hle fun hend => ?_
  -- a listing that has come to the end is made of instructions alone
  rw [hdone, hend, List.drop_length, readingsFrom, List.append_nil] at hx
  obtain ⟨p, -, hp⟩ := List.mem_map.mp hx
  cases hp

/-- What a listing finds at an offset is what stands there. -/
theorem eq_parse_of_mem_readingsFrom {offset o : Nat} {code : Bytes} {r : Except Fault Instruction}
    (h : (o, r) ∈ readingsFrom offset code) :
    offset ≤ o ∧ r = Instruction.parse o (code.drop (o - offset)) := by
  fun_induction readingsFrom offset code with
  | case1 offset => cases h
  | case2 offset b code x hparse =>
    cases List.mem_singleton.mp h
    rw [Nat.sub_self, List.drop_zero, hparse]
    exact ⟨Nat.le_refl _, rfl⟩
  | case3 offset b code i hparse ih =>
    rcases List.mem_cons.mp h with heq | hmem
    · cases heq
      rw [Nat.sub_self, List.drop_zero, hparse]
      exact ⟨Nat.le_refl _, rfl⟩
    · -- the rest is read from code that lacks the bytes of the instruction
      obtain ⟨hle, hr⟩ := ih hmem
      have hpos := i.size_pos
      have hdrop : i.size - 1 + (o - (offset + i.size)) + 1 = o - offset := by omega
      rw [List.drop_drop] at hr
      rw [← hdrop, List.drop_succ_cons]
      exact ⟨by omega, hr⟩

theorem eq_parse_of_mem_readings {script : Bytes} {o : Nat} {r : Except Fault Instruction}
    (h : (o, r) ∈ readings script) : r = Instruction.parse o (script.drop o) :=
  (eq_parse_of_mem_readingsFrom h).2

theorem mapM_located_eq_error_iff {offset : Nat} {code : Bytes} {x : Fault} :
    (readingsFrom offset code).mapM located = .error x ↔
      ∃ o, (o, .error x) ∈ readingsFrom offset code := by
  fun_induction readingsFrom offset code with
  | case1 offset =>
    constructor
    · intro h
      cases h
    · rintro ⟨_, ⟨⟩⟩
  | case2 offset b code y hparse =>
    rw [List.mapM_cons]
    show Except.error y = .error x ↔ _
    constructor
    · rintro ⟨⟩
      exact ⟨offset, List.mem_singleton_self _⟩
    · rintro ⟨o, ho⟩
      cases List.mem_singleton.mp ho
      rfl
  | case3 offset b code i hparse ih =>
    -- an instruction is read first, so a fault can only come from the rest
    have hhead : (∃ o, (o, Except.error x) ∈
        (offset, .ok i) :: readingsFrom (offset + i.size) (code.drop (i.size - 1))) ↔
        ∃ o, (o, .error x) ∈ readingsFrom (offset + i.size) (code.drop (i.size - 1)) := by
      simp
    rw [hhead, ← ih, List.mapM_cons]
    show ((readingsFrom (offset + i.size) (code.drop (i.size - 1))).mapM located >>= fun is =>
      pure ((offset, i) :: is)) = _ ↔ _
    cases (readingsFrom (offset + i.size) (code.drop (i.size - 1))).mapM located with
    | error y => exact Iff.rfl
    | ok is =>
      constructor
      · intro h
        cases h
      · intro h
        cases h

/-- A listing is refused with a fault exactly when it meets that fault. -/
theorem disassemble_eq_error_iff {script : Bytes} {x : Fault} :
    disassemble script = .error x ↔ ∃ o, (o, .error x) ∈ readings script := by
  rw [readings, ← mapM_located_eq_error_iff, disassemble_eq]
  show (((readingsFrom 0 script).mapM located).map _) = _ ↔ _
  cases (readingsFrom 0 script).mapM located <;> simp [Except.map]

end Script

end LedgerNode

import LedgerNode.Proofs.Script.Lines

/-!
# The script behind a listing

A listing is cut into lines at its line feeds, and each line into the offset, up to the colon, the
mnemonic, up to a blank or the end of the line, and the operand. Each operand is shown without loss,
but for a name that is no text. So where all names are text without line feeds, nothing is lost.

- `Script.eq_flatMap_encode`: a script is the bytes of its instructions.
- `Listing.body_inj`: a line of a listing tells its instruction.
- `Script.HasPlainNames`: the names in a script are text, each on one line.
- `Listing.script_eq`: scripts of one listing are equal.
-/

namespace LedgerNode

namespace Script

/-! ## The bytes of a script -/

theorem eq_flatMap_encode_of_instructionsFrom {offset : Nat} {code : Bytes}
    {is : List (Nat × Instruction)} (h : instructionsFrom offset code = .ok is) :
    code = is.flatMap fun p => p.2.encode := by
  fun_induction instructionsFrom offset code generalizing is with
  | case1 offset =>
    cases h
    rfl
  | case2 offset b code ih =>
    obtain ⟨i, hi, htail⟩ := bind_eq_ok_iff.mp h
    obtain ⟨rest, hrest, his⟩ := bind_eq_ok_iff.mp htail
    cases his
    rw [List.flatMap_cons, ← ih i hrest]
    exact Instruction.eq_encode_append hi

/-- A script that is read to its end consists of the bytes of its instructions. -/
theorem eq_flatMap_encode {script : Bytes} {is : List (Nat × Instruction)}
    (h : instructions script = .ok is) : script = is.flatMap fun p => p.2.encode :=
  eq_flatMap_encode_of_instructionsFrom h

/-- Each service that a script calls has a name that is text without a line feed. -/
def HasPlainNames (script : Bytes) : Prop :=
  ∀ is, instructions script = .ok is → ∀ offset name, (offset, .syscall name) ∈ is →
    ∃ s, name.text? = some s ∧ '\n' ∉ s.toList

end Script

namespace Listing

/-! ## One line -/

/-- Behind the mnemonic stands a blank or nothing. -/
theorem toList_operandText (i : Instruction) :
    (operandText i).toList = [] ∨ ∃ rest, (operandText i).toList = ' ' :: rest := by
  cases i with
  | nop | dup | drop | equal | throwIfNot | ret => exact .inl rfl
  | pushData data => exact .inr ⟨_, String.toList_append⟩
  | pushInt value => exact .inr ⟨_, String.toList_append⟩
  | appCall contract => exact .inr ⟨_, String.toList_append⟩
  | syscall name =>
    refine .inr ⟨"\"".toList ++ (Text.ofBytesLossy name).toList ++ "\"".toList, ?_⟩
    show (" \"" ++ Text.ofBytesLossy name ++ "\"").toList = _
    rw [String.toList_append, String.toList_append]
    rfl

/-- So the mnemonic ends at the first blank. -/
theorem takeWhile_mnemonic (i : Instruction) :
    (i.opcode.mnemonic.toList ++ (operandText i).toList).takeWhile (· ≠ ' ') =
      i.opcode.mnemonic.toList := by
  have hblank : ' ' ∉ i.opcode.mnemonic.toList := by
    cases i.opcode <;> decide
  have hmnemonic : ∀ c ∈ i.opcode.mnemonic.toList, decide (c ≠ ' ') = true := by
    intro c hc
    exact decide_eq_true fun h => hblank (h ▸ hc)
  rw [List.takeWhile_append_of_pos hmnemonic]
  rcases toList_operandText i with hnone | ⟨rest, hrest⟩
  · rw [hnone, List.takeWhile_nil, List.append_nil]
  · rw [hrest, List.takeWhile_cons_of_neg (by decide), List.append_nil]

/-- Instructions of one opcode are told apart by their operands, where names are text. -/
theorem operandText_inj {i j : Instruction} {s t : String} (hi : i.service.text? = some s)
    (hj : j.service.text? = some t) (hop : i.opcode = j.opcode)
    (h : operandText i = operandText j) : i = j := by
  match i, j, hop with
  | .nop, .nop, _ | .dup, .dup, _ | .drop, .drop, _ => rfl
  | .equal, .equal, _ | .throwIfNot, .throwIfNot, _ | .ret, .ret, _ => rfl
  | .pushData a, .pushData b, _ =>
    rw [Bytes.toHex_inj ((String.append_right_inj " 0x").mp h)]
  | .pushInt a, .pushInt b, _ =>
    rw [Int64.toInt_inj.mp (Text.integer_inj ((String.append_right_inj " ").mp h))]
  | .appCall a, .appCall b, _ =>
    rw [Hash.ext (Bytes.toHex_inj ((String.append_right_inj " 0x").mp h))]
  | .syscall a, .syscall b, _ =>
    have hquoted := (String.append_left_inj "\"").mp h
    obtain rfl : a = b := Text.ofBytesLossy_inj hi hj ((String.append_right_inj " \"").mp hquoted)
    rfl

/-- A line tells its instruction, where names are text. -/
theorem body_inj {i j : Instruction} {m n : Nat} {s t : String} (hi : i.service.text? = some s)
    (hj : j.service.text? = some t) (h : body m i = body n j) : i = j := by
  -- the offset is cut off at the colon
  have hoffset : ∀ (offset : Nat) (i : Instruction), (body offset i).dropWhile Char.isDigit =
      ": ".toList ++ (i.opcode.mnemonic.toList ++ (operandText i).toList) := by
    intro offset i
    rw [body, String.toList_append, String.toList_append, List.append_assoc, List.append_assoc,
      List.dropWhile_append_of_pos fun _ hc => isDigit_of_mem_offset hc]
    rfl
  have htail := congrArg (List.dropWhile Char.isDigit) h
  rw [hoffset, hoffset] at htail
  have hrest := List.append_cancel_left htail
  have hmnemonic := congrArg (List.takeWhile (· ≠ ' ')) hrest
  rw [takeWhile_mnemonic, takeWhile_mnemonic, String.toList_inj] at hmnemonic
  rw [hmnemonic] at hrest
  exact operandText_inj hi hj (Opcode.mnemonic_inj hmnemonic)
    (String.toList_inj.mp (List.append_cancel_left hrest))

/-! ## All lines -/

theorem map_snd_eq_of_map_body_eq {is js : List (Nat × Instruction)}
    (his : ∀ p ∈ is, ∃ s, p.2.service.text? = some s)
    (hjs : ∀ p ∈ js, ∃ s, p.2.service.text? = some s)
    (h : (is.map fun p => body p.1 p.2) = js.map fun p => body p.1 p.2) :
    is.map Prod.snd = js.map Prod.snd := by
  induction is generalizing js with
  | nil =>
    rw [List.map_nil] at h
    rw [List.map_eq_nil_iff.mp h.symm]
  | cons p is ih =>
    cases js with
    | nil => cases h
    | cons q js =>
      rw [List.forall_mem_cons] at his hjs
      obtain ⟨⟨s, hs⟩, his⟩ := his
      obtain ⟨⟨t, ht⟩, hjs⟩ := hjs
      rw [List.map_cons, List.map_cons, List.cons.injEq] at h
      rw [List.map_cons, List.map_cons, body_inj hs ht h.1, ih his hjs h.2]

end Listing

/-- The names of a script's services are texts that need no line feed to be shown. -/
theorem Script.HasPlainNames.service {script : Bytes} (h : HasPlainNames script)
    {is : List (Nat × Instruction)} (his : instructions script = .ok is) :
    ∀ p ∈ is, (∃ s, p.2.service.text? = some s) ∧ (0x0a : UInt8) ∉ p.2.service := by
  have hnames : ∀ p ∈ is, ∃ s, p.2.service.text? = some s ∧ '\n' ∉ s.toList :=
    (Listing.forall_service_iff ⟨"", Bytes.text?_ofText "", by decide⟩).mp (h is his)
  intro p hp
  obtain ⟨s, hs, hplain⟩ := hnames p hp
  refine ⟨⟨s, hs⟩, ?_⟩
  rw [Bytes.text?_eq_some_iff.mp hs, ← List.count_eq_zero, Text.count_ofText, List.count_eq_zero]
  exact hplain

/-- Two scripts with the same listing are equal, if the names of services in them are text without
line feeds. -/
theorem Listing.script_eq {a b : Bytes} {text : String} (ha : disassemble a = .ok text)
    (hb : disassemble b = .ok text) (hplain_a : Script.HasPlainNames a)
    (hplain_b : Script.HasPlainNames b) : a = b := by
  obtain ⟨is, his, hlines⟩ := disassemble_eq_ok_iff.mp ha
  obtain ⟨js, hjs, rfl⟩ := disassemble_eq_ok_iff.mp hb
  have hnames_a := hplain_a.service his
  have hnames_b := hplain_b.service hjs
  have hcut := congrArg (fun text => text.toList.splitOn '\n') hlines
  rw [splitOn_join_line fun p hp => (hnames_a p hp).2,
    splitOn_join_line fun p hp => (hnames_b p hp).2] at hcut
  have hsame := map_snd_eq_of_map_body_eq (fun p hp => (hnames_a p hp).1)
    (fun p hp => (hnames_b p hp).1) (List.append_cancel_right hcut)
  rw [Script.eq_flatMap_encode his, Script.eq_flatMap_encode hjs, ← List.flatMap_map, hsame,
    List.flatMap_map]

/-- The listing of a call of a service with a quote in its name is that of five bytes, so these are
the call. -/
theorem Listing.script_eq_quote_in_name :
    disassemble ([Instruction.syscall (Bytes.ofText "A\"B")].flatMap Instruction.encode) =
      .ok "0000: SYSCALL \"A\"B\"\n" ∧
    disassemble [0x32, 0x03, 0x41, 0x22, 0x42] = .ok "0000: SYSCALL \"A\"B\"\n" ∧
    [Instruction.syscall (Bytes.ofText "A\"B")].flatMap Instruction.encode =
      [0x32, 0x03, 0x41, 0x22, 0x42] := by
  have hlisting : disassemble
      ([Instruction.syscall (Bytes.ofText "A\"B")].flatMap Instruction.encode) =
        .ok "0000: SYSCALL \"A\"B\"\n" := by
    rw [Script.disassemble_flatMap_encode (by decide)]
    simp only [List.mapIdx_cons, List.mapIdx_nil, line, operandText, Text.ofBytesLossy_ofText]
    rfl
  have hplain : Script.HasPlainNames
      ([Instruction.syscall (Bytes.ofText "A\"B")].flatMap Instruction.encode) := by
    intro is his offset name hname
    rw [Script.instructions_flatMap_encode (by decide), Except.ok.injEq] at his
    subst his
    cases hname with
    | head => exact ⟨"A\"B", Bytes.text?_ofText "A\"B", by decide⟩
    | tail _ h => cases h
  exact ⟨hlisting, hlisting, script_eq hlisting hlisting hplain hplain⟩

end LedgerNode

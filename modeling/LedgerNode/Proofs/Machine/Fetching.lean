import LedgerNode.Machine.Frame
import LedgerNode.Proofs.Script.Readings

/-!
# Fetching an instruction

A frame reads its script byte by byte and moves its instruction pointer. What it comes to is what
can be read in the code ahead at once.

- `bind_apply`: actions that can fault, one after the other.
- `Frame.skip`, `Frame.ahead`, `Frame.next`: a frame moved on, its code ahead, and the instruction
  or fault that stands there.
- `Frame.fetch_of_next_ok`, `Frame.fetch_of_next_error`: fetching yields just that. An instruction
  is consumed as a whole; before a fault at least the opcode byte is, and nothing beyond the script.
-/

namespace LedgerNode

/-- Of two actions in a row the second goes on where the first has succeeded. -/
theorem bind_apply {σ α β : Type} (x : ExceptT Fault (StateM σ) α)
    (k : α → ExceptT Fault (StateM σ) β) (s : σ) :
    (x >>= k) s = match x s with
      | (.ok a, s') => k a s'
      | (.error y, s') => (.error y, s') := by
  show ExceptT.bindCont k (x s).1 (x s).2 = _
  rcases x s with ⟨_ | _, s'⟩ <;> rfl

namespace Frame

/-- The frame moved on by a number of bytes. -/
def skip (f : Frame) (n : Nat) : Frame :=
  { f with ip := f.ip + n }

@[simp] theorem skip_script (f : Frame) (n : Nat) : (f.skip n).script = f.script := rfl

@[simp] theorem skip_ip (f : Frame) (n : Nat) : (f.skip n).ip = f.ip + n := rfl

theorem skip_skip (f : Frame) (m n : Nat) : (f.skip m).skip n = f.skip (m + n) := by
  unfold skip
  rw [Nat.add_assoc]

/-- The code that has not been read. -/
def ahead (f : Frame) : Bytes :=
  f.script.drop f.ip

theorem length_ahead (f : Frame) : f.ahead.length = f.script.length - f.ip :=
  List.length_drop

theorem ahead_skip (f : Frame) (n : Nat) : (f.skip n).ahead = f.ahead.drop n :=
  List.drop_drop.symm

/-- The instruction at the instruction pointer, or the fault that reading it meets. -/
def next (f : Frame) : Except Fault Instruction :=
  Instruction.parse f.ip f.ahead

/-- A frame is at its end when there is no code ahead. -/
theorem ahead_eq_nil_iff {f : Frame} : f.ahead = [] ↔ f.atEnd = true := by
  unfold ahead atEnd
  rw [List.drop_eq_nil_iff, decide_eq_true_iff]

/-- The opcode of the next instruction is the byte at the instruction pointer. -/
theorem getElem?_of_next_ok {f : Frame} {i : Instruction} (h : f.next = .ok i) :
    f.script[f.ip]? = some i.opcode.code := by
  have hahead : f.ahead = i.encode ++ f.ahead.drop i.size := Instruction.eq_encode_append h
  have hfirst : f.ahead[0]? = some i.opcode.code := by
    rw [hahead]
    rfl
  rwa [ahead, List.getElem?_drop] at hfirst

/-! ## Cursors -/

/-- A cursor yields a result and moves on by the size of the result, or it faults and consumes no
more than there is. -/
def Follows {α : Type} (c : Cursor α) (f : Frame) (size : α → Nat) : Except Fault α → Prop
  | .ok a => c f = (.ok a, f.skip (size a))
  | .error x => ∃ n, f.ip + n ≤ f.script.length ∧ c f = (.error x, f.skip n)

/-- A function of what is read changes nothing but the result. -/
theorem Follows.map {α β : Type} {c : Cursor α} {f : Frame} {size : α → Nat} {r : Except Fault α}
    (h : Follows c f size r) {g : α → β} {size' : β → Nat} (hsize : ∀ a, size' (g a) = size a) :
    Follows (c >>= fun a => pure (g a)) f size' (r.map g) := by
  cases r with
  | ok a =>
    show (c >>= fun a => pure (g a)) f = (.ok (g a), f.skip (size' (g a)))
    rw [bind_apply, h, hsize]
    rfl
  | error x =>
    obtain ⟨n, hn, hc⟩ := h
    refine ⟨n, hn, ?_⟩
    rw [bind_apply, hc]

/-- Where a cursor goes on as another does some bytes further, it moves on by as much more. -/
theorem Follows.of_skip {α : Type} {c c' : Cursor α} {f : Frame} {k : Nat} {size size' : α → Nat}
    {r : Except Fault α} (h : Follows c' (f.skip k) size r) (hc : c f = c' (f.skip k))
    (hsize : ∀ a, size' a = k + size a) : Follows c f size' r := by
  cases r with
  | ok a =>
    show c f = _
    rw [hc, h, skip_skip, hsize]
  | error x =>
    obtain ⟨n, hn, hx⟩ := h
    refine ⟨k + n, by simpa [Nat.add_assoc] using hn, ?_⟩
    rw [hc, hx, skip_skip]

theorem follows_take {f : Frame} (n : Nat) (h : f.ip ≤ f.script.length) :
    Follows (take n) f (fun _ => n) (Instruction.front f.ip n f.ahead) := by
  unfold Instruction.front take
  split
  · rename_i hle
    rw [length_ahead] at hle
    show (if _ : _ then _ else _) = _
    rw [dif_pos (by omega)]
    rfl
  · rename_i hlt
    rw [length_ahead] at hlt ⊢
    -- bytes that are not all there are not consumed
    refine ⟨0, h, ?_⟩
    show (if _ : _ then _ else _) = _
    rw [dif_neg (by omega)]
    rfl

theorem takeByte_of_ahead_eq_nil {f : Frame} (h : f.ahead = []) :
    takeByte f = (.error (.unexpectedEnd f.ip 1 0), f) := by
  have hle : f.script.length ≤ f.ip := List.drop_eq_nil_iff.mp h
  unfold takeByte take
  rw [bind_apply, dif_neg (by omega), Nat.sub_eq_zero_of_le hle]

theorem takeByte_of_ahead_eq_cons {f : Frame} {b : UInt8} {code : Bytes} (h : f.ahead = b :: code) :
    takeByte f = (.ok b, f.skip 1) := by
  have hlength := f.length_ahead
  rw [h, List.length_cons] at hlength
  unfold takeByte take
  rw [bind_apply, dif_pos (by omega)]
  have hfront : (f.script.drop f.ip).take 1 = [b] := by
    rw [← ahead, h]
    rfl
  simp only [hfront]
  rfl

theorem follows_takeInline {f : Frame} (h : f.ip ≤ f.script.length) :
    Follows takeInline f (fun data => data.length + 1)
      (Instruction.inlineOperand f.ip f.ahead) := by
  cases hahead : f.ahead with
  | nil =>
    refine ⟨0, h, ?_⟩
    unfold takeInline
    rw [bind_apply, takeByte_of_ahead_eq_nil hahead]
    rfl
  | cons n code =>
    have hlength := f.length_ahead
    rw [hahead, List.length_cons] at hlength
    have hcode : (f.skip 1).ahead = code := by rw [ahead_skip, hahead]; rfl
    have htake := follows_take n.toNat (f := f.skip 1) (by rw [skip_ip, skip_script]; omega)
    rw [hcode] at htake
    have hval : Follows (take n.toNat >>= fun bs => pure bs.val) (f.skip 1) List.length
        ((Instruction.front (f.skip 1).ip n.toNat code).map Subtype.val) :=
      htake.map fun bs => bs.property
    refine hval.of_skip ?_ fun data => Nat.add_comm _ _
    unfold takeInline
    rw [bind_apply, takeByte_of_ahead_eq_cons hahead]

/-! ## Instructions -/

/-- Reads what follows an opcode. -/
def takeOperand : Opcode → Cursor Instruction
  | .nop => pure .nop
  | .pushData => takeInline >>= fun data => pure (.pushData data)
  | .pushInt => take 8 >>= fun bs => pure (.pushInt bs.val.toInt64LE)
  | .dup => pure .dup
  | .drop => pure .drop
  | .equal => pure .equal
  | .throwIfNot => pure .throwIfNot
  | .ret => pure .ret
  | .appCall => take 32 >>= fun bs => pure (.appCall (Hash.ofBlock bs))
  | .syscall => takeInline >>= fun name => pure (.syscall name)

/-- Fetching reads an opcode byte and what follows the opcode. -/
theorem fetch_of_opcode {f : Frame} {op : Opcode} {code : Bytes}
    (hahead : f.ahead = op.code :: code) : fetch f = takeOperand op (f.skip 1) := by
  unfold fetch takeInteger takeHash
  show (takeByte >>= _) f = _
  rw [bind_apply, takeByte_of_ahead_eq_cons hahead]
  simp only [Opcode.ofCode?_code, bind_assoc, pure_bind]
  cases op <;> rfl

theorem fetch_of_no_opcode {f : Frame} {b : UInt8} {code : Bytes} (hahead : f.ahead = b :: code)
    (hop : Opcode.ofCode? b = none) :
    fetch f = (.error (.invalidInstruction b f.ip), f.skip 1) := by
  unfold fetch
  show (takeByte >>= _) f = _
  rw [bind_apply, takeByte_of_ahead_eq_cons hahead]
  simp only [hop]
  rfl

/-- What follows an opcode is read as in the code that begins with the opcode. -/
theorem follows_takeOperand {f : Frame} {offset : Nat} (op : Opcode) (hip : f.ip = offset + 1)
    (hle : f.ip ≤ f.script.length) :
    Follows (takeOperand op) f (fun i => i.operand.length)
      (Instruction.parse offset (op.code :: f.ahead)) := by
  have hinline := follows_takeInline hle
  have htake := fun n => follows_take n hle
  rw [hip] at hinline
  simp only [hip] at htake
  cases op with
  | nop | dup | drop | equal | throwIfNot | ret => rfl
  | pushData => exact hinline.map fun data => rfl
  | pushInt => exact (htake 8).map fun bs => Bytes.length_ofNatLE _ _
  | appCall => exact (htake 32).map fun bs => bs.property
  | syscall => exact hinline.map fun name => rfl

/-- Where an instruction can be read, it is fetched and consumed as a whole. -/
theorem fetch_of_next_ok {f : Frame} {i : Instruction} (h : f.next = .ok i) :
    fetch f = (.ok i, f.skip i.size) ∧ f.ip + i.size ≤ f.script.length := by
  have hsize := Instruction.size_le_length h
  have hpos := i.size_pos
  rw [length_ahead] at hsize
  refine ⟨?_, by omega⟩
  cases hahead : f.ahead with
  | nil =>
    rw [next, hahead] at h
    cases h
  | cons b code =>
    rw [next, hahead] at h
    cases hop : Opcode.ofCode? b with
    | none =>
      rw [Instruction.parse, hop] at h
      cases h
    | some op =>
      obtain rfl := Opcode.ofCode?_eq_some_iff.mp hop
      have hcode : (f.skip 1).ahead = code := by rw [ahead_skip, hahead]; rfl
      have hoperand := follows_takeOperand op (skip_ip f 1) (by rw [skip_ip, skip_script]; omega)
      rw [hcode, h] at hoperand
      rw [fetch_of_opcode hahead, hoperand, skip_skip, Nat.add_comm]
      rfl

/-- Where a fault is met in reading, fetching meets it too and has consumed the opcode byte. -/
theorem fetch_of_next_error {f : Frame} {x : Fault} (hend : f.atEnd = false)
    (h : f.next = .error x) :
    ∃ n, 0 < n ∧ f.ip + n ≤ f.script.length ∧ fetch f = (.error x, f.skip n) := by
  have hlength := f.length_ahead
  cases hahead : f.ahead with
  | nil =>
    rw [ahead_eq_nil_iff.mp hahead] at hend
    cases hend
  | cons b code =>
    rw [next, hahead] at h
    rw [hahead, List.length_cons] at hlength
    cases hop : Opcode.ofCode? b with
    | none =>
      rw [Instruction.parse, hop] at h
      cases h
      exact ⟨1, Nat.one_pos, by omega, fetch_of_no_opcode hahead hop⟩
    | some op =>
      obtain rfl := Opcode.ofCode?_eq_some_iff.mp hop
      have hcode : (f.skip 1).ahead = code := by rw [ahead_skip, hahead]; rfl
      have hoperand := follows_takeOperand op (skip_ip f 1) (by rw [skip_ip, skip_script]; omega)
      rw [hcode, h] at hoperand
      -- the operand is looked for behind the opcode byte
      obtain ⟨n, hn, htake⟩ := hoperand
      refine ⟨1 + n, by omega, by simpa [Nat.add_assoc] using hn, ?_⟩
      rw [fetch_of_opcode hahead, htake, skip_skip]

end Frame

end LedgerNode

import LedgerNode.Proofs.Machine.Hosting
import LedgerNode.Proofs.Script.Assembling

/-!
# An engine runs what was assembled

A script that was assembled from directives runs directive by directive: where the bytes of one
begin, a step reads all of them and carries out what the directive says, and goes on where the bytes
of the next one begin. Only a service call in which a handler lets the engine step gets ahead of
this; what handlers do in other calls makes no difference.

- `Services.effect_frames`: what an instruction does to the invocation stack, whatever the services.
- `Services.runs_as_assembled`: assembling, listing and running a list of directives.
- `Services.runs_as_assembled_without_item`: the same where a handler might let the engine step.
- `Services.steps_past_next_directive`: a handler that steps takes the frame further.
-/

namespace LedgerNode

namespace Services

open Engine (Effect)

variable {services : Services} {nesting offset : Nat} {e e' : Engine} {r : Except Fault Unit}

/-- The services matter only to calls of services. -/
theorem effect_eq_builtins {i : Instruction} (hi : i.opcode ≠ .syscall) :
    services.effect nesting offset i e = builtins.effect nesting offset i e := by
  unfold effect
  cases i with
  | nop | pushData | pushInt | ret => rfl
  | dup =>
    rw [Engine.execute_dup]
    cases e.stack <;> rfl
  | drop =>
    rw [Engine.execute_drop]
    cases e.stack <;> rfl
  | equal =>
    rw [Engine.execute_equal]
    rcases e.stack with _ | ⟨b, _ | ⟨a, rest⟩⟩
    · rfl
    · rfl
    · dsimp only
      cases a.equalTo Opcode.equal.mnemonic b <;> rfl
  | throwIfNot =>
    rw [Engine.execute_throwIfNot]
    cases e.stack with
    | nil => rfl
    | cons item rest =>
      dsimp only
      cases item.truth <;> rfl
  | appCall contract =>
    rw [Engine.execute_appCall]
    cases e.contracts with
    | none => rfl
    | some contracts =>
      dsimp only
      cases contracts.find? contract with
      | none => rfl
      | some script =>
        by_cases hfull : e.limits.maxInvocationDepth ≤ e.depth
        · simp only [hfull, if_true]
        · simp only [hfull, if_false]
  | syscall => exact absurd rfl hi

/-- An instruction leaves the current frame or puts others on top of it, unless it calls a service
and a handler lets the engine step in the call. -/
theorem effect_frames {i : Instruction}
    (hstepless : ∀ name, i = .syscall (Bytes.ofText name) → ¬ services.LetsStep nesting name e)
    (h : services.effect nesting offset i e = some (r, e')) :
    e'.frames = e.frames.tail ∨ ∃ above, e'.frames = above ++ e.frames := by
  by_cases hi : i.opcode = .syscall
  · -- a call of a service does what its handler does
    right
    cases i with
    | syscall service =>
      cases htext : service.text? with
      | none =>
        unfold effect at h
        rw [Engine.execute_syscall, htext] at h
        cases h
        exact ⟨[], rfl⟩
      | some name =>
        obtain rfl := Bytes.text?_eq_some_iff.mp htext
        rw [effect_syscall] at h
        exact frames_of_not_letsStep (hstepless name rfl) h
    | _ => cases hi
  · rw [effect_eq_builtins hi] at h
    obtain ⟨r₁, e₁, heffect, hmakes⟩ := effect_builtins nesting offset i e
    rw [heffect] at h
    cases h
    cases hmakes with
    | stay => exact .inr ⟨[], rfl⟩
    | leave => exact .inl rfl
    | enter => exact .inr ⟨[_], rfl⟩

/-- A step at the beginning of an instruction carries it out and goes on behind it. -/
theorem step_at_offset {is : List Instruction} (hfits : ∀ i ∈ is, i.inlineLength ≤ maxInlineLength)
    {f : Frame} {below : List Frame} (he : e.frames = f :: below)
    (hscript : f.script = is.flatMap Instruction.encode) {k : Nat} {i : Instruction}
    (hip : f.ip = Script.offset is k) (hi : is[k]? = some i) :
    services.step nesting e = (services.effect nesting f.ip i
      { e with frames := { f with ip := Script.offset is (k + 1) } :: below }).map
        Engine.settle := by
  have hnext : f.next = .ok i := by
    rw [Frame.next, Frame.ahead, hscript, hip]
    exact Script.parse_drop_offset hfits hi
  have hskip : f.skip i.size = { f with ip := Script.offset is (k + 1) } := by
    rw [Script.offset_succ hi, ← hip]
    rfl
  rw [step_of_next_ok services nesting he hnext, hskip]

/-- Assembling a list of directives is right. It is refused exactly when some operand does not fit
its length byte, with the length of such an operand. Otherwise the listing of the code has one line
for each directive, at the offset where the bytes of those before it end; and where an engine is at
such an offset, a step carries out that directive with its operand, and leaves the frame, if it is
still there, at the next offset, unless the directive calls a service and in this very call a
handler lets the engine step. -/
theorem runs_as_assembled {ds : List Directive} {is : List Instruction}
    (h : ds.mapM Directive.instruction? = some is) :
    ((∃ x, assemble ds = .error x) ↔ ∃ i ∈ is, 255 < i.inlineLength) ∧
    (∀ x, assemble ds = .error x → ∃ i ∈ is, 255 < i.inlineLength ∧
      x = .operandTooLong i.opcode.mnemonic i.inlineLength) ∧
    ∀ script, assemble ds = .ok script →
      disassemble script =
        .ok (String.join (ds.mapIdx fun k d => d.line (Script.offset is k))) ∧
      ∀ (services : Services) (nesting : Nat) (e : Engine) (f : Frame) (below : List Frame)
        (k : Nat) (i : Instruction), e.frames = f :: below → f.script = script →
        f.ip = Script.offset is k → is[k]? = some i →
        let next : Frame := { f with ip := Script.offset is (k + 1) }
        services.step nesting e = (services.effect nesting (Script.offset is k) i
          { e with frames := next :: below }).map Engine.settle ∧
        ∀ e', services.step nesting e = some (.ok (), e') → below.length < e'.depth →
          (∃ above, e'.frames = above ++ next :: below) ∨
          ∃ name, i = .syscall (Bytes.ofText name) ∧
            services.LetsStep nesting name { e with frames := next :: below } := by
  refine ⟨assemble_eq_error_iff h, fun x => isOverlong_of_assemble_eq_error h, ?_⟩
  intro script hassemble
  obtain ⟨rfl, hfits⟩ := eq_flatMap_of_assemble_eq_ok h hassemble
  refine ⟨?_, ?_⟩
  · rw [Script.disassemble_flatMap_encode hfits, Directive.mapIdx_line_eq h]
  · intro services nesting e f below k i he hscript hip hi next
    have hstep : services.step nesting e = (services.effect nesting (Script.offset is k) i
        { e with frames := next :: below }).map Engine.settle := by
      rw [← hip]
      exact step_at_offset hfits he hscript hip hi
    refine ⟨hstep, fun e' hok hdepth => ?_⟩
    by_cases hlets : ∃ name, i = .syscall (Bytes.ofText name) ∧
        services.LetsStep nesting name { e with frames := next :: below }
    · exact .inr hlets
    · left
      rw [hstep] at hok
      obtain ⟨⟨r, e₁⟩, heffect, hsettle⟩ := Option.map_eq_some_iff.mp hok
      obtain rfl := Engine.eq_of_settle hsettle
      rcases effect_frames (fun name hi h => hlets ⟨name, hi, h⟩) heffect with hleft | habove
      · rw [Engine.depth, hleft] at hdepth
        exact absurd hdepth (Nat.lt_irrefl _)
      · exact habove

/-- A frame at the beginning of an instruction. -/
def frameAt (is : List Instruction) (k : Nat) : Frame :=
  { Frame.start (is.flatMap Instruction.encode) 0 with ip := Script.offset is k }

/-- An engine with nothing but this frame. -/
def engineAt (is : List Instruction) (k : Nat) : Engine :=
  { frames := [frameAt is k], container := ⟨0, Hash.zero, []⟩ }

/-- A handler that lets the engine take a step, but only where there is an item. -/
def stepOnItem : Handler :=
  .inspect fun e => if e.stack.isEmpty then .finish (.ok ()) else .ofTasks [.step]

/-- Without one this handler lets the engine take no step. -/
theorem not_letsStep_stepOnItem (hempty : e.stack = []) :
    ¬ (withHandler "Step" stepOnItem).LetsStep nesting "Step" e := by
  intro h
  cases h with
  | handler hfind h =>
    rw [find?_withHandler (by decide)] at hfind
    cases hfind
    cases h with
    | inspect h =>
      simp only [hempty, List.isEmpty_nil, if_true] at h
      cases h

/-- In a call on an empty stack this handler lets the engine take no step, and the frame is left
where the next directive begins. Its operand spells an opcode and is listed as the operand that it
is. -/
theorem runs_as_assembled_without_item :
    ∃ (is : List Instruction) (script : Bytes) (e e' : Engine) (f : Frame),
      [Directive.syscall "Step", .pushData [0x30], .emit .dup].mapM Directive.instruction? =
        some is ∧
      assemble [.syscall "Step", .pushData [0x30], .emit .dup] = .ok script ∧
      disassemble script = .ok "0000: SYSCALL \"Step\"\n0006: PUSHDATA 0x30\n0009: DUP\n" ∧
      e.frames = [f] ∧ f.script = script ∧ f.ip = Script.offset is 0 ∧
      (withHandler "Step" stepOnItem).step 1 e = some (.ok (), e') ∧ 0 < e'.depth ∧
      ∃ above, e'.frames = above ++ [{ f with ip := Script.offset is 1 }] := by
  let ds : List Directive := [.syscall "Step", .pushData [0x30], .emit .dup]
  let is : List Instruction := [.syscall (Bytes.ofText "Step"), .pushData [0x30], .dup]
  have hds : ds.mapM Directive.instruction? = some is := rfl
  have hassemble : assemble ds = .ok (is.flatMap Instruction.encode) := rfl
  obtain ⟨-, -, hruns⟩ := runs_as_assembled hds
  obtain ⟨hlisting, hsteps⟩ := hruns _ hassemble
  obtain ⟨hstep, hstays⟩ :=
    hsteps (withHandler "Step" stepOnItem) 1 (engineAt is 0) (frameAt is 0) [] 0 _ rfl rfl rfl rfl
  have hlines : disassemble (is.flatMap Instruction.encode) =
      .ok "0000: SYSCALL \"Step\"\n0006: PUSHDATA 0x30\n0009: DUP\n" := by
    rw [hlisting]
    have h0 : Script.offset is 0 = 0 := rfl
    have h1 : Script.offset is 1 = 6 := rfl
    have h2 : Script.offset is 2 = 9 := rfl
    simp only [ds, List.mapIdx_cons, List.mapIdx_nil, Nat.zero_add, Nat.reduceAdd, h0, h1, h2]
    rfl
  have hok : (withHandler "Step" stepOnItem).step 1 (engineAt is 0) =
      some (.ok (), engineAt is 1) := by
    rw [hstep, effect_syscall, dispatch_withHandler (by decide)]
    rfl
  refine ⟨is, _, engineAt is 0, _, frameAt is 0, hds, hassemble, hlines, rfl, rfl, rfl, hok,
    Nat.one_pos, ?_⟩
  rcases hstays _ hok Nat.one_pos with habove | ⟨name, hname, hlets⟩
  · exact habove
  · obtain rfl := Bytes.ofText_inj (Instruction.syscall.inj hname)
    exact absurd hlets (not_letsStep_stepOnItem rfl)

/-- The registered services, one of them with a handler that lets the engine take a step. -/
def withStep : Services :=
  withHandler "Step" (.ofTasks [.step])

/-- A handler that lets the engine step takes the frame past the directive behind the call. -/
theorem steps_past_next_directive :
    ∃ (is : List Instruction) (script : Bytes) (e e' : Engine) (f : Frame),
      [Directive.syscall "Step", .emit .nop, .emit .nop].mapM Directive.instruction? = some is ∧
      assemble [.syscall "Step", .emit .nop, .emit .nop] = .ok script ∧
      e.frames = [f] ∧ f.script = script ∧ f.ip = Script.offset is 0 ∧
      withStep.step 1 e = some (.ok (), e') ∧ 0 < e'.depth ∧
      ¬ ∃ above, e'.frames = above ++ [{ f with ip := Script.offset is 1 }] := by
  let is : List Instruction := [.syscall (Bytes.ofText "Step"), .nop, .nop]
  have hfits : ∀ i ∈ is, i.inlineLength ≤ maxInlineLength := by decide
  -- the step that the handler takes carries out the first `NOP`
  have hinner : withStep.step 0 (engineAt is 1) = some (.ok (), engineAt is 2) :=
    step_at_offset hfits (f := frameAt is 1) (k := 1) rfl rfl rfl rfl
  have houter : withStep.step 1 (engineAt is 0) = some (.ok (), engineAt is 2) := by
    rw [step_at_offset hfits (f := frameAt is 0) (k := 0) rfl rfl rfl rfl, effect_syscall, withStep,
      dispatch_withHandler (by decide)]
    show Option.map Engine.settle
      ((Handler.ofTasks [.step]).perform (withStep.dispatch 0) (engineAt is 1)) = _
    rw [Handler.ofTasks, Handler.perform_step hinner]
    rfl
  refine ⟨is, _, engineAt is 0, _, frameAt is 0, rfl, rfl, rfl, rfl, rfl, houter, Nat.one_pos, ?_⟩
  rintro ⟨above, habove⟩
  have hlength : 1 = above.length + 1 := (congrArg List.length habove).trans List.length_append
  obtain rfl : above = [] := List.length_eq_zero_iff.mp (Nat.succ.inj hlength).symm
  cases congrArg (List.map Frame.ip) habove

end Services

end LedgerNode

import LedgerNode.Proofs.Machine.Operands

/-!
# Calls and returns

A step works on the current frame and lets those below it alone, whatever it comes to. So the frames
that wait behind a call keep waiting, through further calls, returns and faults, until the callee
and all that it has called are gone, and only then does the caller go on, right behind its call.

- `Services.depth_of_step`: a step adds or takes one frame at most.
- `Services.entered_of_step`: what a call that succeeds does.
- `Services.left_of_step`: a frame is left at its end or by a return.
- `Engine.Moves.keeps`: a step keeps what lies below the current frame.
- `Services.Above`: the engines that any steps lead to while there are more frames than a number.
  They keep the frames below (`Services.Above.keeps`).
- `Services.Resumes`: a step that gives the turn back to a frame that was waiting.
- `Services.call_returns`: a call from first to last.
-/

namespace LedgerNode

namespace Engine

variable {contracts : Option Contracts} {limit : Nat} {r : Except Fault Unit}

theorem Moves.length {frames frames' : List Frame} (h : Moves contracts limit r frames frames') :
    frames'.length ≤ frames.length + 1 ∧ frames.length ≤ frames'.length + 1 := by
  cases h with
  | leave | read | enter => constructor <;> simp only [List.length_cons] <;> omega

/-- Whatever lies below the current frame stays there. -/
theorem Moves.keeps {above base frames' : List Frame} (hne : above ≠ [])
    (h : Moves contracts limit r (above ++ base) frames') : ∃ above', frames' = above' ++ base := by
  obtain ⟨f, rest, rfl⟩ := List.exists_cons_of_ne_nil hne
  rw [List.cons_append] at h
  cases h with
  | leave => exact ⟨rest, rfl⟩
  | @read _ _ n => exact ⟨f.skip n :: rest, rfl⟩
  | enter => exact ⟨_ :: f.skip _ :: rest, rfl⟩

/-- An instruction that makes frames fewer is a return. -/
theorem Carries.ret_of_depth_lt {offset : Nat} {i : Instruction} {e e' : Engine}
    (h : Carries offset i e r e') (hlower : e'.depth < e.depth) :
    i = .ret ∧ e'.frames = e.frames.tail := by
  have hframes : e'.frames = e.frames ∨
      onFrames e.contracts e.limits.maxInvocationDepth i e.frames = .ok e'.frames := by
    cases h with
    | fail | stuck => exact .inl rfl
    | overflow _ hframes | done _ hframes => exact .inr hframes
  unfold depth at hlower
  rcases hframes with hsame | hframes
  · rw [hsame] at hlower
    exact absurd hlower (Nat.lt_irrefl _)
  · rcases onFrames_eq_ok hframes with hret | ⟨_, _, _, -, -, -, henter⟩ | ⟨-, hsame⟩
    · exact hret
    · rw [henter] at hlower
      exact absurd hlower (Nat.not_lt_of_le (Nat.le_succ _))
    · rw [hsame] at hlower
      exact absurd hlower (Nat.lt_irrefl _)

end Engine

theorem Instruction.exists_eq_appCall {i : Instruction} (h : i.opcode = .appCall) :
    ∃ contract, i = appCall contract := by
  cases i with
  | appCall contract => exact ⟨contract, rfl⟩
  | _ => cases h

namespace Services

variable {nesting : Nat} {e e' : Engine} {r : Except Fault Unit} {f : Frame} {below : List Frame}

/-! ## One step -/

/-- A step adds or takes one frame at most. -/
theorem depth_of_step (hstep : builtins.step nesting e = some (r, e')) :
    e'.depth ≤ e.depth + 1 ∧ e.depth ≤ e'.depth + 1 := by
  by_cases hnil : e.frames = []
  · rw [step_of_nil builtins nesting hnil] at hstep
    cases hstep
    exact ⟨Nat.le_succ _, Nat.le_succ _⟩
  · exact (moves_of_step hnil hstep).2.length

/-- A step that makes frames fewer leaves the current one, which is at its end or returns. -/
theorem left_of_step (he : e.frames = f :: below)
    (hstep : builtins.step nesting e = some (r, e')) (hlower : e'.depth < e.depth) :
    e'.frames = below ∧ (f.atEnd = true ∨ f.next = .ok .ret) := by
  have hfewer : e'.frames.length < below.length + 1 := by
    rwa [Engine.depth, Engine.depth, he] at hlower
  cases turn_of_step he hstep with
  | leave hend => exact ⟨rfl, .inl hend⟩
  | misread => exact absurd hfewer (Nat.lt_irrefl _)
  | carry hnext hcarries =>
    obtain ⟨rfl, hframes⟩ := hcarries.ret_of_depth_lt hfewer
    exact ⟨hframes, .inr hnext⟩

/-- A call that succeeds puts the contract on top of its caller, which waits behind the call. -/
theorem entered_of_step (he : e.frames = f :: below)
    (hcall : f.script[f.ip]? = some Opcode.appCall.code)
    (hstep : builtins.step nesting e = some (.ok (), e')) :
    ∃ contract table script, f.next = .ok (.appCall contract) ∧ e.contracts = some table ∧
      table.find? contract = some script ∧
      e'.frames = Frame.start script e.depth :: f.skip 33 :: below := by
  cases turn_of_step he hstep with
  | leave hend =>
    obtain ⟨hip, -⟩ := List.getElem?_eq_some_iff.mp hcall
    exact absurd (of_decide_eq_true hend) (Nat.not_le_of_lt hip)
  | carry hnext hcarries =>
    rw [Frame.getElem?_of_next_ok hnext, Option.some.injEq] at hcall
    obtain ⟨contract, rfl⟩ := Instruction.exists_eq_appCall (Opcode.code_inj hcall)
    rw [Instruction.size_appCall] at hcarries
    cases hcarries with
    | done _ hframes =>
      rcases Engine.onFrames_eq_ok hframes with ⟨hret, -⟩ |
        ⟨_, table, script, hcontract, htable, hfind, rfl⟩ | ⟨hother, -⟩
      · cases hret
      · cases hcontract
        refine ⟨contract, table, script, hnext, htable, hfind, ?_⟩
        rw [Engine.depth, he]
        rfl
      · exact absurd rfl hother

/-! ## Steps above waiting frames -/

/-- The engines that steps lead to, whatever comes of these, as long as there are more than so many
frames. -/
inductive Above (services : Services) (nesting floor : Nat) (e₀ : Engine) : Engine → Prop where
  | start (hdeep : floor < e₀.depth) : Above services nesting floor e₀ e₀
  | step {e e' : Engine} {r : Except Fault Unit} (h : Above services nesting floor e₀ e)
    (hstep : services.step nesting e = some (r, e')) (hdeep : floor < e'.depth) :
    Above services nesting floor e₀ e'

/-- A step from above some frames keeps these. -/
theorem step_keeps {above base : List Frame} (hne : above ≠ []) (he : e.frames = above ++ base)
    (hstep : builtins.step nesting e = some (r, e')) : ∃ above', e'.frames = above' ++ base := by
  have hframes : e.frames ≠ [] := by
    rw [he]
    exact List.append_ne_nil_of_left_ne_nil hne base
  have hmoves := (moves_of_step hframes hstep).2
  rw [he] at hmoves
  exact hmoves.keeps hne

/-- So do any number of steps that stay above them. -/
theorem Above.keeps {e₀ : Engine} {above₀ base : List Frame} (he₀ : e₀.frames = above₀ ++ base)
    (h : builtins.Above nesting base.length e₀ e) :
    ∃ above, above ≠ [] ∧ e.frames = above ++ base := by
  have hne : ∀ {e : Engine} {above : List Frame}, e.frames = above ++ base →
      base.length < e.depth → above ≠ [] := by
    rintro e _ he hdeep rfl
    rw [Engine.depth, he] at hdeep
    exact Nat.lt_irrefl _ hdeep
  induction h with
  | start hdeep => exact ⟨above₀, hne he₀ hdeep, he₀⟩
  | step _ hstep hdeep ih =>
    obtain ⟨above, habove, he⟩ := ih
    obtain ⟨above', he'⟩ := step_keeps habove he hstep
    exact ⟨above', hne he' hdeep, he'⟩

/-- A step leads back to a frame that was waiting: the one frame above it has ended or returns, and
the next step goes on in the frame where it has waited. -/
structure Resumes (services : Services) (nesting : Nat) (f : Frame) (below : List Frame)
    (e e' : Engine) : Prop where
  left : ∃ g : Frame, e.frames = g :: f :: below ∧ (g.atEnd = true ∨ g.next = .ok .ret)
  frames : e'.frames = f :: below
  next : services.step nesting e' =
    if f.atEnd then some (.ok (), { e' with frames := below })
    else match f.fetch with
      | (.ok i, f') =>
        (services.effect nesting f.ip i { e' with frames := f' :: below }).map Engine.settle
      | (.error x, f') => some (.error x, { e' with frames := f' :: below })

/-- The step from above a waiting frame that first leaves none above it leads back to it. -/
theorem resumes_of_step {above : List Frame} (hne : above ≠ [])
    (he : e.frames = above ++ f :: below) (hstep : builtins.step nesting e = some (r, e'))
    (hback : e'.depth ≤ (f :: below).length) : builtins.Resumes nesting f below e e' := by
  obtain ⟨g, rest, rfl⟩ := List.exists_cons_of_ne_nil hne
  have hdepth : e.depth = rest.length + (f :: below).length + 1 := by
    rw [Engine.depth, he, List.length_append, List.length_cons, Nat.add_right_comm]
  obtain ⟨hframes, hleft⟩ := left_of_step he hstep (by omega)
  -- a return takes one frame, so there was no other
  have hrest : rest = [] := by
    rw [Engine.depth, hframes, List.append_eq, List.length_append] at hback
    exact List.length_eq_zero_iff.mp (by omega)
  subst hrest
  exact ⟨⟨g, he, hleft⟩, hframes, step_eq builtins nesting hframes⟩

/-! ## Calls -/

/-- A contract returns to its caller, and to the place behind the call. Each step of an engine adds
or takes one frame at most. After a call that succeeds, the caller and the frames below it stay as
they are for as long as there are more frames than these, through all steps that are taken then,
those that fail included. And the first step that leaves no others leaves the frame above them, at
the end of its script or by a return, so that the next step is the caller's, right behind the
call. -/
theorem call_returns {e₁ : Engine} {caller : Frame} (he : e.frames = caller :: below)
    (hcall : caller.script[caller.ip]? = some Opcode.appCall.code)
    (hstep : builtins.step nesting e = some (.ok (), e₁)) :
    (∀ a r b, builtins.step nesting a = some (r, b) →
      b.depth ≤ a.depth + 1 ∧ a.depth ≤ b.depth + 1) ∧
    (∃ contract table script, caller.next = .ok (.appCall contract) ∧
      e.contracts = some table ∧ table.find? contract = some script ∧
      e₁.frames =
        Frame.start script e.depth :: { caller with ip := caller.ip + 33 } :: below) ∧
    ∀ e₂, builtins.Above nesting e.depth e₁ e₂ →
      (∃ above, above ≠ [] ∧
        e₂.frames = above ++ { caller with ip := caller.ip + 33 } :: below) ∧
      ∃ r e₃, builtins.step nesting e₂ = some (r, e₃) ∧
        (e₃.depth ≤ e.depth →
          builtins.Resumes nesting { caller with ip := caller.ip + 33 } below e₂ e₃) := by
  have hentered := entered_of_step he hcall hstep
  refine ⟨fun a r b => depth_of_step, hentered, ?_⟩
  obtain ⟨-, -, script, -, -, -, he₁⟩ := hentered
  intro e₂ habove
  have hdepth : e.depth = (caller.skip 33 :: below).length := by
    rw [Engine.depth, he]
    rfl
  rw [hdepth] at habove ⊢
  have hcallee : e₁.frames = [Frame.start script e.depth] ++ caller.skip 33 :: below := he₁
  obtain ⟨above, hne, he₂⟩ := habove.keeps hcallee
  have hframes : e₂.frames ≠ [] := by
    rw [he₂]
    exact List.append_ne_nil_of_left_ne_nil hne _
  obtain ⟨r, e₃, hstep₂, -⟩ := step_moves nesting hframes
  exact ⟨⟨above, hne, he₂⟩, r, e₃, hstep₂, resumes_of_step hne he₂ hstep₂⟩

/-- An engine without items that is about to call a contract that drops one. -/
def callingDrop : Engine where
  frames := [Frame.start (Instruction.appCall (Hash.digest Instruction.drop.encode)).encode 0]
  container := ⟨0, Hash.zero, []⟩
  contracts := some (Contracts.deploy ∅ Instruction.drop.encode)

/-- The contract faults; the step behind the fault leaves it, and one more leaves the caller. -/
theorem call_returns_behind_fault :
    ∃ e₁ e₂ e₃, builtins.step 0 callingDrop = some (.ok (), e₁) ∧
      builtins.step 0 e₁ = some (.error (.stackUnderflow "DROP"), e₂) ∧
      builtins.step 0 e₂ = some (.ok (), e₃) ∧ e₃.depth = 1 ∧
      builtins.step 0 e₃ = some (.ok (), { e₃ with frames := [] }) := by
  let contract : Hash := Hash.digest Instruction.drop.encode
  let caller : Frame := Frame.start (Instruction.appCall contract).encode 0
  let callee : Frame := Frame.start Instruction.drop.encode 1
  have hnext : caller.next = .ok (.appCall contract) := by
    have hparse := Instruction.parse_appCall 0 contract []
    rwa [List.append_nil] at hparse
  have hfind : (Contracts.deploy ∅ Instruction.drop.encode).find? contract =
      some Instruction.drop.encode := by
    rw [Contracts.deploy, Table.find?_insertNew, if_pos rfl, Table.find?_empty]
    rfl
  have hstep : builtins.step 0 callingDrop =
      some (.ok (), { callingDrop with frames := [callee, caller.skip 33] }) :=
    step_of_call builtins 0 (e := callingDrop) rfl hnext rfl hfind (show 1 < 1024 by decide)
      (Nat.zero_le 2048)
  have hfault : builtins.step 0 { callingDrop with frames := [callee, caller.skip 33] } =
      some (.error (.stackUnderflow "DROP"),
        { callingDrop with frames := [callee.skip 1, caller.skip 33] }) := rfl
  obtain ⟨-, -, hreturn⟩ := call_returns (e := callingDrop) rfl rfl hstep
  obtain ⟨-, r, e₃, hleave, hresumes⟩ := hreturn _ (.step (.start (by decide)) hfault (by decide))
  cases hleave
  obtain ⟨-, -, hcaller⟩ := hresumes (by decide)
  refine ⟨_, _, _, hstep, hfault, rfl, rfl, hcaller.trans (if_pos ?_)⟩
  -- the caller has nothing behind its call
  exact decide_eq_true (Nat.le_of_eq (Instruction.size_appCall contract))

end Services

end LedgerNode

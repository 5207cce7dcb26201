import LedgerNode.Proofs.Machine.History
import Mathlib.Algebra.Group.Nat.Defs

/-!
# Every execution ends

A call puts a whole new script on the invocation stack, so the code that is left to read may grow.
But the depth of calls is bounded and so is the length of what can be called. A byte that is read
deep down is therefore worth more than any call it may cause, when each level of the invocation
stack counts as many times more than the level above it as the longest contract has bytes.

- `Contracts.longest`: the length of the longest contract.
- `Engine.pending`, `Engine.work`: the measure of an invocation stack; it is zero just for the empty
  one (`Engine.work_eq_zero_iff`), and every step takes from it (`Services.step_work_lt`).
- `Services.steps_end`: that many steps are enough for a run.
- `Services.executions_end`: runs end, and so do runs that are resumed after faults.
-/

namespace LedgerNode

/-! ## The measure -/

/-- The length of the longest contract. -/
def Contracts.longest (contracts : Contracts) : Nat :=
  contracts.entries.foldr (fun c longest => max c.2.length longest) 0

theorem Contracts.length_le_longest {contracts : Contracts} {contract : Hash} {script : Bytes}
    (h : contracts.find? contract = some script) : script.length ≤ contracts.longest := by
  unfold Table.find? at h
  unfold longest
  generalize contracts.entries = entries at h ⊢
  induction entries with
  | nil => cases h
  | cons c rest ih =>
    rw [List.lookup_cons] at h
    rw [List.foldr_cons]
    split at h
    · cases h
      exact Nat.le_max_left _ _
    · exact Nat.le_trans (ih h) (Nat.le_max_right _ _)

namespace Engine

/-- What frames can still come to: the bytes ahead of each and its return, each of them worth `rate`
times as much as one a level above. -/
def pending (rate limit : Nat) : List Frame → Nat
  | [] => 0
  | f :: below => (f.ahead.length + 1) * rate ^ (limit - below.length) + pending rate limit below

/-- A rate that makes up for any call. -/
def rate (contracts : Option Contracts) : Nat :=
  contracts.elim 0 Contracts.longest + 1

/-- What the frames of an engine can still come to under its contracts and its limits. -/
def work (e : Engine) : Nat :=
  pending (rate e.contracts) e.limits.maxInvocationDepth e.frames

variable {contracts : Option Contracts} {limit : Nat}

theorem rate_pos : 0 < rate contracts :=
  Nat.succ_pos _

theorem pending_eq_zero_iff {frames : List Frame} :
    pending (rate contracts) limit frames = 0 ↔ frames = [] := by
  cases frames with
  | nil => exact ⟨fun _ => rfl, fun _ => rfl⟩
  | cons f below =>
    have hpos : 0 < (f.ahead.length + 1) * rate contracts ^ (limit - below.length) :=
      Nat.mul_pos (Nat.succ_pos _) (Nat.pow_pos rate_pos)
    constructor
    · intro h
      rw [pending] at h
      omega
    · intro h
      cases h

theorem work_eq_zero_iff {e : Engine} : e.work = 0 ↔ e.frames = [] :=
  pending_eq_zero_iff

/-- Bytes that are read take from the measure. -/
theorem pending_skip_lt {f : Frame} {below : List Frame} {n : Nat} (hpos : 0 < n)
    (hn : f.ip + n ≤ f.script.length) :
    pending (rate contracts) limit (f.skip n :: below) <
      pending (rate contracts) limit (f :: below) := by
  have hahead : (f.skip n).ahead.length + 1 < f.ahead.length + 1 := by
    rw [Frame.length_ahead, Frame.length_ahead, Frame.skip_script, Frame.skip_ip]
    omega
  exact Nat.add_lt_add_right
    (Nat.mul_lt_mul_of_pos_right hahead (Nat.pow_pos rate_pos)) _

/-- The bytes of a call are worth more than the script that it loads. -/
theorem pending_enter_lt {f : Frame} {below : List Frame} {n : Nat} {script : Bytes} (hone : 1 < n)
    (hn : f.ip + n ≤ f.script.length) (hscript : script.length < rate contracts)
    (hdepth : below.length + 1 < limit) :
    pending (rate contracts) limit (Frame.start script (below.length + 1) :: f.skip n :: below) <
      pending (rate contracts) limit (f :: below) := by
  have hstart : (Frame.start script (below.length + 1)).ahead.length = script.length :=
    Frame.length_ahead _
  have hskip : (f.skip n).ahead.length + n = f.ahead.length := by
    rw [Frame.length_ahead, Frame.length_ahead, Frame.skip_script, Frame.skip_ip]
    omega
  -- the level of the caller is worth `rate` times the level of what it calls
  obtain ⟨unit, hunit⟩ : ∃ unit, unit = rate contracts ^ (limit - below.length - 1) := ⟨_, rfl⟩
  have hupos : 0 < unit := hunit ▸ Nat.pow_pos rate_pos
  have hlevel : rate contracts ^ (limit - below.length) = rate contracts * unit := by
    rw [hunit, Nat.mul_comm, ← Nat.pow_succ]
    congr 1
    omega
  have hcalled : (script.length + 1) * unit ≤ rate contracts * unit :=
    Nat.mul_le_mul_right _ hscript
  have hcaller : ((f.skip n).ahead.length + 1) * (rate contracts * unit) + rate contracts * unit <
      (f.ahead.length + 1) * (rate contracts * unit) := by
    rw [← Nat.succ_mul]
    exact Nat.mul_lt_mul_of_pos_right (by omega) (Nat.mul_pos rate_pos hupos)
  rw [pending, pending, pending, hstart, List.length_cons, ← Nat.sub_sub, ← hunit, hlevel]
  omega

/-- However a step moves the invocation stack, it takes from the measure. -/
theorem Moves.pending_lt {r : Except Fault Unit} {frames frames' : List Frame}
    (h : Moves contracts limit r frames frames') :
    pending (rate contracts) limit frames' < pending (rate contracts) limit frames := by
  cases h with
  | @leave f =>
    rw [pending]
    exact Nat.lt_add_of_pos_left (Nat.mul_pos (Nat.succ_pos _) (Nat.pow_pos rate_pos))
  | read hpos hn => exact pending_skip_lt hpos hn
  | enter hnext htable hfind hdepth =>
    have hscript := Contracts.length_le_longest hfind
    subst htable
    refine pending_enter_lt ?_ (Frame.fetch_of_next_ok hnext).2 (Nat.lt_succ_of_le hscript) hdepth
    rw [Instruction.size_appCall]
    decide

end Engine

/-! ## Steps -/

namespace Services

open Engine (Request SameSettings)

variable (nesting : Nat)

/-- A step with a frame on the invocation stack takes from the work of the engine, whether it
succeeds or fails. -/
theorem step_work_lt {e : Engine} (hne : e.frames ≠ []) :
    ∃ r e', builtins.step nesting e = some (r, e') ∧ SameSettings e e' ∧ e'.work < e.work := by
  obtain ⟨r, e', hstep, hsame, hmoves⟩ := step_moves nesting hne
  refine ⟨r, e', hstep, hsame, ?_⟩
  have hlt := hmoves.pending_lt
  unfold Engine.work
  rw [hsame.contracts, hsame.limits]
  exact hlt

/-- The ways for a run to end: every frame has returned, or a step has failed. -/
inductive Ended : Except Fault Unit → Engine → Prop where
  | halt {e : Engine} (hframes : e.frames = []) (hstatus : e.status = .halt) : Ended (.ok ()) e
  | fault {e : Engine} {x : Fault} (hstatus : e.status = .fault) : Ended (.error x) e

/-- A step takes from the work of the engine, unless there is none. -/
theorem step_work_le (e : Engine) :
    ∃ r e', builtins.step nesting e = some (r, e') ∧ e'.work ≤ e.work - 1 := by
  by_cases hnil : e.frames = []
  · have hzero := Engine.work_eq_zero_iff.mpr hnil
    exact ⟨_, e, step_of_nil builtins nesting hnil, by omega⟩
  · obtain ⟨r, e', hstep, -, hlt⟩ := step_work_lt nesting hnil
    exact ⟨r, e', hstep, Nat.le_sub_one_of_lt hlt⟩

/-- As many steps as there is work in an engine end its run, which takes from the work as well. -/
theorem steps_end {n : Nat} {e : Engine} (hn : e.work ≤ n) :
    ∃ r e', builtins.steps nesting n e = some (r, e') ∧ Ended r e' ∧ e'.work ≤ e.work - 1 := by
  induction n generalizing e with
  | zero =>
    have hnil := Engine.work_eq_zero_iff.mp (Nat.le_zero.mp hn)
    exact ⟨_, _, steps_of_nil hnil 0, .halt hnil rfl, Nat.le_trans hn (Nat.zero_le _)⟩
  | succ n ih =>
    by_cases hnil : e.frames = []
    · have hle : e.work ≤ e.work - 1 := by
        have hzero := Engine.work_eq_zero_iff.mpr hnil
        omega
      exact ⟨_, _, steps_of_nil hnil _, .halt hnil rfl, hle⟩
    · have hempty : ¬ e.frames.isEmpty = true := fun h => hnil (List.isEmpty_iff.mp h)
      obtain ⟨r, e₁, hstep, -, hlt⟩ := step_work_lt nesting hnil
      rw [steps, if_neg hempty, hstep]
      cases r with
      | error x =>
        exact ⟨.error x, { e₁ with status := .fault }, rfl, .fault rfl, Nat.le_sub_one_of_lt hlt⟩
      | ok =>
        obtain ⟨r, e', hsteps, hended, hless⟩ := ih (e := e₁) (by omega)
        exact ⟨r, e', hsteps, hended, by omega⟩

/-! ## Steps and runs after faults -/

/-- Steps and runs, in any order and whatever they come to, take from the work of an engine until
its invocation stack is empty. -/
theorem serveAll_work_le {qs : List Request} {e : Engine}
    (hqs : ∀ q ∈ qs, q = .step ∨ ∃ n, e.work ≤ n ∧ q = .run n) :
    ∃ e', builtins.serveAll nesting qs e = some e' ∧ e'.work ≤ e.work - qs.length := by
  induction qs generalizing e with
  | nil => exact ⟨e, rfl, Nat.le_refl _⟩
  | cons q qs ih =>
    have hfirst : ∃ r e₁, builtins.serve nesting q e = some (r, e₁) ∧ e₁.work ≤ e.work - 1 := by
      rcases hqs q List.mem_cons_self with rfl | ⟨n, hn, rfl⟩
      · exact step_work_le nesting e
      · obtain ⟨r, e₁, hrun, -, hless⟩ :=
          steps_end nesting (e := { e with status := .none }) hn
        exact ⟨r, e₁, hrun, hless⟩
    obtain ⟨r, e₁, hserve, hless⟩ := hfirst
    -- what was enough for a run at first is more than enough later
    have hrest : ∀ q ∈ qs, q = .step ∨ ∃ n, e₁.work ≤ n ∧ q = .run n := by
      intro q hq
      rcases hqs q (List.mem_cons_of_mem _ hq) with rfl | ⟨n, hn, rfl⟩
      · exact .inl rfl
      · exact .inr ⟨n, by omega, rfl⟩
    obtain ⟨e', hserveAll, hle⟩ := ih hrest
    refine ⟨e', ?_, ?_⟩
    · rw [serveAll_cons hserve, hserveAll]
    · rw [List.length_cons]
      omega

/-- Every execution ends where only the built-in services are registered, whatever the contracts and
however they call each other. A step with a frame on the invocation stack takes from the work of the
engine, which the contracts and the limits and the invocation stack determine; as many steps as
there is work end a run; and as many steps and runs, resumed after every fault, empty the invocation
stack. -/
theorem executions_end (nesting : Nat) (e : Engine) :
    (e.frames ≠ [] →
      ∃ r e', builtins.step nesting e = some (r, e') ∧ SameSettings e e' ∧ e'.work < e.work) ∧
    (∀ n, e.work ≤ n → ∃ r e', builtins.run nesting n e = some (r, e') ∧ Ended r e') ∧
    ∀ qs : List Request, (∀ q ∈ qs, q = .step ∨ ∃ n, e.work ≤ n ∧ q = .run n) →
      e.work ≤ qs.length →
      ∃ e', builtins.serveAll nesting qs e = some e' ∧ e'.frames = [] := by
  refine ⟨step_work_lt nesting, ?_, ?_⟩
  · intro n hn
    obtain ⟨r, e', hrun, hended, -⟩ := steps_end nesting (e := { e with status := .none }) hn
    exact ⟨r, e', hrun, hended⟩
  · intro qs hqs hlength
    obtain ⟨e', hserveAll, hle⟩ := serveAll_work_le nesting hqs
    refine ⟨e', hserveAll, Engine.work_eq_zero_iff.mp ?_⟩
    omega

/-- The code of a contract that does nothing but call itself, where it is kept under zero. -/
def selfCall : Bytes :=
  (Instruction.appCall Hash.zero).encode

/-- An engine about to run a contract that calls itself. -/
def selfCalling : Engine where
  frames := [Frame.start selfCall 0]
  container := ⟨0, Hash.zero, []⟩
  contracts := some { entries := [(Hash.zero, selfCall)] }

/-- A contract that calls itself without end does not keep a run from ending. -/
theorem executions_end_self_call :
    (selfCalling.frames ≠ [] ∧ ∃ r e', builtins.step 0 selfCalling = some (r, e') ∧
      SameSettings selfCalling e' ∧ e'.work < selfCalling.work) ∧
    (∃ r e', builtins.run 0 selfCalling.work selfCalling = some (r, e') ∧ Ended r e') ∧
    ∃ e', builtins.serveAll 0 (.replicate selfCalling.work .step) selfCalling = some e' ∧
      e'.frames = [] := by
  obtain ⟨hstep, hrun, hresumed⟩ := executions_end 0 selfCalling
  refine ⟨⟨nofun, hstep nofun⟩, hrun _ (Nat.le_refl _), hresumed _ ?_ ?_⟩
  · intro q hq
    exact .inl (List.eq_of_mem_replicate hq)
  · exact Nat.le_of_eq List.length_replicate.symm

end Services

end LedgerNode

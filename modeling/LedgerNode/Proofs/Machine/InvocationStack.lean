import LedgerNode.Proofs.Machine.Hosting

/-!
# The shape of the invocation stack

Hosts and handlers may load scripts and let the engine step at any time, a handler also while the
instruction that called it is still under way. Frames come and go, but each is where it says it is.

- `Frame.Stacked`: frames that know their places and have read no further than their scripts go.
  Every move of the invocation stack keeps this (`Frame.Stacked.moves`).
- `Engine.advance_moves`: what an advance does to the invocation stack, whatever the services.
- `Engine.Framed`: the invariant: stacked frames within the limit. Each act keeps it, and so do acts
  one after the other (`Engine.Framed.acts`).
- `Services.Reaches`: the states that an engine comes to, those in the middle of a service call
  included.
- `Services.framed_of_reaches`: the invariant in all of them.
-/

namespace LedgerNode

open Engine (Acts Moves Request)

/-! ## Frames in their places -/

/-- Each frame says rightly how many frames lie below it, and its instruction pointer is within its
script. -/
inductive Frame.Stacked : List Frame → Prop where
  | nil : Stacked []
  | cons {f : Frame} {below : List Frame} (hdepth : f.depth = below.length)
    (hip : f.ip ≤ f.script.length) (hbelow : Stacked below) : Stacked (f :: below)

namespace Frame.Stacked

variable {frames frames' : List Frame}

theorem start (script : Bytes) (h : Stacked frames) :
    Stacked (Frame.start script frames.length :: frames) :=
  .cons rfl (Nat.zero_le _) h

theorem skip {f : Frame} {below : List Frame} (h : Stacked (f :: below)) {n : Nat}
    (hn : f.ip + n ≤ f.script.length) : Stacked (f.skip n :: below) := by
  cases h with
  | cons hdepth _ hbelow => exact .cons hdepth hn hbelow

theorem tail {f : Frame} {below : List Frame} (h : Stacked (f :: below)) : Stacked below := by
  cases h with
  | cons _ _ hbelow => exact hbelow

theorem moves {contracts : Option Contracts} {limit : Nat} {r : Except Fault Unit}
    (hmoves : Moves contracts limit r frames frames') (h : Stacked frames) : Stacked frames' := by
  cases hmoves with
  | leave => exact h.tail
  | read _ hn => exact h.skip hn
  | @enter f below _ _ script hnext => exact (h.skip (Frame.fetch_of_next_ok hnext).2).start script

/-- Counted from the outermost frame on, each frame has its place for its depth. -/
theorem depth_eq (h : Stacked frames) {i : Nat} {f : Frame} (hf : frames.reverse[i]? = some f) :
    f.depth = i := by
  induction h with
  | nil => cases hf
  | @cons top below hdepth _ _ ih =>
    rw [List.reverse_cons, List.getElem?_append, List.length_reverse] at hf
    split at hf
    · exact ih hf
    · -- past the frames below there is only the one on top
      have hi : i - below.length = 0 := by
        have hlt := (List.getElem?_eq_some_iff.mp hf).1
        exact Nat.lt_one_iff.mp hlt
      rw [hi] at hf
      cases hf
      omega

theorem ip_le (h : Stacked frames) {f : Frame} (hf : f ∈ frames) : f.ip ≤ f.script.length := by
  induction h with
  | nil => cases hf
  | cons _ hip _ ih =>
    rcases List.mem_cons.mp hf with rfl | hf
    · exact hip
    · exact ih hf

end Frame.Stacked

namespace Engine

/-- An advance moves the invocation stack as a step does that calls no handler. -/
theorem advance_moves {e : Engine} (hne : e.frames ≠ []) :
    (advance e).2.limits = e.limits ∧
    ∃ r, Moves e.contracts e.limits.maxInvocationDepth r e.frames (advance e).2.frames := by
  obtain ⟨r, e', hstep, hsame, hmoves⟩ := Services.step_moves 0 hne
  -- behind its advance such a step changes at most the evaluation stack
  have hbehind : ∃ stack, e' = { (advance e).2 with stack } := by
    rcases stepWith_cases hstep with rfl | ⟨service, r₁, -, hcall⟩
    · exact ⟨(advance e).2.stack, rfl⟩
    · obtain ⟨r₂, stack, hcall₂⟩ := Services.dispatch_builtins_stack 0 service (advance e).2
      rw [hcall₂] at hcall
      cases hcall
      exact ⟨stack, rfl⟩
  obtain ⟨stack, rfl⟩ := hbehind
  exact ⟨hsame.limits, r, hmoves⟩

/-! ## The invariant -/

/-- The frames of an engine are in their places, and no more of them than its limits allow. -/
structure Framed (limits : Limits) (e : Engine) : Prop where
  limits_eq : e.limits = limits
  depth_le : e.depth ≤ limits.maxInvocationDepth
  stacked : Frame.Stacked e.frames

variable {limits : Limits} {e e' : Engine}

theorem framed_of_frames_eq_nil (he : e.frames = []) : Framed e.limits e where
  limits_eq := rfl
  depth_le := by
    rw [depth, he]
    exact Nat.zero_le _
  stacked := by
    rw [he]
    exact .nil

/-- The contracts have no part in this. -/
theorem Framed.attach (h : Framed limits e) (contracts : Option Contracts) :
    Framed limits { e with contracts } :=
  ⟨h.limits_eq, h.depth_le, h.stacked⟩

theorem Framed.load (script : Bytes) (h : Framed limits e) : Framed limits (load script e).2 := by
  obtain ⟨rfl, hdepth, hstacked⟩ := h
  rcases load_cases script e with ⟨x, hload⟩ | ⟨hroom, hload⟩ <;> rw [hload]
  · exact ⟨rfl, hdepth, hstacked⟩
  · exact ⟨rfl, hroom, hstacked.start script⟩

/-- An advance adds a frame only where there is room for it. -/
theorem Framed.advance (h : Framed limits e) : Framed limits (advance e).2 := by
  by_cases hnil : e.frames = []
  · rw [advance_of_nil hnil]
    exact h
  · obtain ⟨rfl, hdepth, hstacked⟩ := h
    obtain ⟨hlimits, r, hmoves⟩ := advance_moves hnil
    refine ⟨hlimits, ?_, hstacked.moves hmoves⟩
    unfold depth at hdepth ⊢
    generalize e.frames = frames, (Engine.advance e).2.frames = frames' at hmoves hdepth ⊢
    cases hmoves with
    | leave => exact Nat.le_of_succ_le hdepth
    | read => exact hdepth
    | enter _ _ _ hroom => exact hroom

theorem Framed.acts {steps : Prop} (hacts : Acts steps e e') (h : Framed limits e) :
    Framed limits e' := by
  induction hacts with
  | refl => exact h
  | stack _ _ ih => exact ⟨ih.limits_eq, ih.depth_le, ih.stacked⟩
  | mark _ _ ih => exact ⟨ih.limits_eq, ih.depth_le, ih.stacked⟩
  | load script _ ih => exact ih.load script
  | advance _ _ ih => exact ih.advance

end Engine

namespace Services

open Engine (Framed)

variable {services : Services}

/-- The states that an engine comes to from a given one. Requests are served whole; but when a
script calls a service, its handler has the engine in the middle of a step, and then makes requests
of its own. The table of contracts is the host's, who may put another in its place. -/
inductive Reaches (services : Services) (e₀ : Engine) : Engine → Prop where
  | start : Reaches services e₀ e₀
  | serve {nesting : Nat} {q : Request} {e e' : Engine} {r : Except Fault Unit}
    (h : Reaches services e₀ e) (hserve : services.serve nesting q e = some (r, e')) :
    Reaches services e₀ e'
  | calling {service : String} {e e' : Engine} (h : Reaches services e₀ e)
    (hadvance : Engine.advance e = (.ok (.calling service), e')) : Reaches services e₀ e'
  | attach {e : Engine} (contracts : Option Contracts) (h : Reaches services e₀ e) :
    Reaches services e₀ { e with contracts }

/-- Every request keeps the frames in their places, whatever the handlers do. -/
theorem serve_framed {limits : Limits} {nesting : Nat} {q : Request} {e e' : Engine}
    {r : Except Fault Unit} (hserve : services.serve nesting q e = some (r, e'))
    (h : Framed limits e) : Framed limits e' := by
  cases q with
  | deploy script =>
    cases hserve
    exact h.attach _
  | _ =>
    refine h.acts (serve_acts ?_ hserve)
    rintro script ⟨⟩

theorem Reaches.framed {limits : Limits} {e₀ e : Engine} (hreaches : services.Reaches e₀ e)
    (h : Framed limits e₀) : Framed limits e := by
  induction hreaches with
  | start => exact h
  | serve _ hserve ih => exact serve_framed hserve ih
  | calling _ hadvance ih =>
    have hframed := ih.advance
    rw [hadvance] at hframed
    exact hframed
  | attach _ _ ih => exact ih.attach _

/-- Whatever hosts and handlers ask of an engine that began without frames, there are never more
frames than its limits allow; the `i`-th from the outermost one on has depth `i`, and each of them
has its instruction pointer within its script and the hash of this script for its code hash. A
script that cannot be loaded leaves the engine as it is. -/
theorem framed_of_reaches {e₀ e : Engine} (hempty : e₀.frames = [])
    (hreaches : services.Reaches e₀ e) :
    e.depth ≤ e₀.limits.maxInvocationDepth ∧
    (∀ i (f : Frame), e.frames.reverse[i]? = some f → f.depth = i) ∧
    (∀ f ∈ e.frames, f.ip ≤ f.script.length ∧ f.codeHash.get = Hash.digest f.script) ∧
    ∀ script x e', Engine.load script e = (.error x, e') → e' = e := by
  have h : Framed e₀.limits e := hreaches.framed (Engine.framed_of_frames_eq_nil hempty)
  refine ⟨h.depth_le, fun i f => h.stacked.depth_eq, fun f hf => ?_, ?_⟩
  · exact ⟨h.stacked.ip_le hf, f.codeHash_get⟩
  · intro script x e' hload
    rcases Engine.load_cases script e with ⟨x₁, herror⟩ | ⟨-, hok⟩
    · rw [herror] at hload
      cases hload
      rfl
    · rw [hok] at hload
      cases hload

/-- The registered services, one of them with a handler that loads a script and lets the engine step
in it. -/
def withEnter : Services :=
  withHandler "Enter" (.ofTasks [.load Instruction.nop.encode, .step])

/-- A handler loads a script and steps in it, and leaves its frame in the second place. -/
theorem framed_of_reaches_entered :
    ∃ e₀ e : Engine, e₀.frames = [] ∧ withEnter.Reaches e₀ e ∧ e.depth = 2 ∧
      ∀ i (f : Frame), e.frames.reverse[i]? = some f → f.depth = i := by
  let script : Bytes := (Instruction.syscall (Bytes.ofText "Enter")).encode
  let e₀ : Engine := { container := ⟨0, Hash.zero, []⟩ }
  let caller : Frame := Frame.start script 0
  let callee : Frame := Frame.start Instruction.nop.encode 1
  let e (frames : List Frame) : Engine := { e₀ with frames }
  have hload : withEnter.serve 0 (.load script) e₀ = some (.ok (), e [caller]) := rfl
  -- the step that the handler takes carries out the `NOP`
  have hinner : withEnter.step 0 (e [callee, caller.skip 7]) =
      some (.ok (), e [callee.skip 1, caller.skip 7]) :=
    step_of_next_ok withEnter 0 (f := callee) (i := .nop) rfl rfl
  have houter : withEnter.serve 1 .step (e [caller]) =
      some (.ok (), e [callee.skip 1, caller.skip 7]) := by
    refine (step_of_next_ok withEnter 1 rfl (i := .syscall (Bytes.ofText "Enter")) rfl).trans ?_
    rw [effect_syscall, withEnter, dispatch_withHandler (by decide)]
    show Option.map Engine.settle
      ((Handler.ofTasks [.step]).perform (withEnter.dispatch 0) (e [callee, caller.skip 7])) = _
    rw [Handler.ofTasks, Handler.perform_step hinner]
    rfl
  have hreaches : withEnter.Reaches e₀ (e [callee.skip 1, caller.skip 7]) :=
    .serve (.serve .start hload) houter
  exact ⟨e₀, _, rfl, hreaches, rfl, (framed_of_reaches rfl hreaches).2.1⟩

end Services

end LedgerNode

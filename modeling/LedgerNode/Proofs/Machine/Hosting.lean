import LedgerNode.Proofs.Machine.History

/-!
# What hosts and handlers can make of an engine

A handler has the engine to itself in the middle of an instruction: it may load scripts, let the
engine step and call services, whose handlers do the same in turn. Whatever it does, it does by a
few acts, one after the other.

- `Engine.Acts steps`: what acts lead from one engine to another; advances of the engine are among
  them only if `steps` holds. What each act preserves they all preserve, by induction on them.
- `Handler.LetsStep`, `Services.LetsStep`: a handler that is under way, or one in a call of a
  service, lets the engine step. This goes by what happens in the call, not by what else a handler
  may do. The built-in services never do (`Services.not_letsStep_builtins`).
- `Services.dispatch_acts`: a service call comes down to acts, to any nesting, and advances are
  among them only if a handler lets the engine step in it.
- `Services.serve_acts`: so does every request that leaves the contracts alone.
- `Services.withHandler`: one handler beside the built-in services.
- `Services.frames_of_not_letsStep`: a call in which no handler lets the engine step only puts
  frames on top of those there are.
-/

namespace LedgerNode

namespace Engine

/-- What acts of hosts and handlers lead from one engine to another: changes of the evaluation stack
and of the status, loading, and advances if `steps` holds. -/
inductive Acts (steps : Prop) (e₀ : Engine) : Engine → Prop where
  | refl : Acts steps e₀ e₀
  | stack {e : Engine} (stack : List Item) (h : Acts steps e₀ e) : Acts steps e₀ { e with stack }
  | mark {e : Engine} (status : Status) (h : Acts steps e₀ e) : Acts steps e₀ { e with status }
  | load {e : Engine} (script : Bytes) (h : Acts steps e₀ e) : Acts steps e₀ (load script e).2
  | advance {e : Engine} (hsteps : steps) (h : Acts steps e₀ e) : Acts steps e₀ (advance e).2

variable {steps : Prop} {e₀ e e' : Engine}

theorem Acts.trans (h : Acts steps e₀ e) (h' : Acts steps e e') : Acts steps e₀ e' := by
  induction h' with
  | refl => exact h
  | stack stack _ ih => exact ih.stack stack
  | mark status _ ih => exact ih.mark status
  | load script _ ih => exact ih.load script
  | advance hsteps _ ih => exact ih.advance hsteps

/-- What allows more advances allows the same acts. -/
theorem Acts.mono {others : Prop} (h : Acts steps e₀ e) (himp : steps → others) :
    Acts others e₀ e := by
  induction h with
  | refl => exact .refl
  | stack stack _ ih => exact ih.stack stack
  | mark status _ ih => exact ih.mark status
  | load script _ ih => exact ih.load script
  | advance hsteps _ ih => exact ih.advance (himp hsteps)

theorem Acts.push (item : Item) (h : Acts steps e₀ e) : Acts steps e₀ (push item e).2 :=
  h.stack _

theorem Acts.pop (instruction : String) (h : Acts steps e₀ e) :
    Acts steps e₀ (pop instruction e).2 := by
  unfold Engine.pop
  cases e.stack with
  | nil => exact h
  | cons item rest => exact h.stack rest

theorem Acts.invoke (s : Syscall) (h : Acts steps e₀ e) : Acts steps e₀ (s.invoke e).2 := by
  rw [Services.invoke_eq]
  cases s.item e with
  | error x => exact h
  | ok item => exact h.stack _

/-- Whether an instruction leaves too many items behind concerns only its result. -/
theorem eq_of_settle {p : Except Fault Unit × Engine} {r : Except Fault Unit}
    (h : settle p = (r, e')) : p.2 = e' := by
  rw [← Services.settle_snd p.1 p.2]
  exact congrArg Prod.snd h

/-- A step is an advance and then, if it calls a service, what the service does. -/
theorem stepWith_cases {invoke : String → Activity} {r : Except Fault Unit}
    (hstep : stepWith invoke e = some (r, e')) :
    e' = (advance e).2 ∨ ∃ service r₁, (advance e).1 = .ok (.calling service) ∧
      invoke service (advance e).2 = some (r₁, e') := by
  unfold stepWith at hstep
  rcases hadvance : advance e with ⟨x | _ | _ | service, e₁⟩ <;> rw [hadvance] at hstep
  · cases hstep
    exact .inl rfl
  · cases hstep
    exact .inl rfl
  · exact .inl (eq_of_settle (Option.some.inj hstep)).symm
  · obtain ⟨⟨r₁, e₂⟩, hcall, hsettle⟩ := Option.map_eq_some_iff.mp hstep
    obtain rfl := eq_of_settle hsettle
    exact .inr ⟨service, r₁, rfl, hcall⟩

theorem Acts.stepWith {invoke : String → Activity} (hsteps : steps)
    (hinvoke : ∀ service e r e', invoke service e = some (r, e') → Acts steps e e')
    {r : Except Fault Unit} (hstep : stepWith invoke e = some (r, e')) : Acts steps e e' := by
  have hadvance : Acts steps e (Engine.advance e).2 := .advance hsteps .refl
  rcases stepWith_cases hstep with rfl | ⟨service, r₁, -, hcall⟩
  · exact hadvance
  · exact hadvance.trans (hinvoke service _ r₁ _ hcall)

end Engine

open Engine (Acts)

/-! ## Calls in which the engine steps -/

/-- A handler that is under way comes to let the engine step, or a handler that it calls does. The
services that it calls are carried out within a bound on nested calls. -/
inductive Handler.LetsStep (services : Services) : (nesting : Nat) → Handler → Engine → Prop where
  | step {nesting : Nat} {next : Except Fault Unit → Handler} {e : Engine} :
    LetsStep services nesting (step next) e
  | inspect {nesting : Nat} {next : Engine → Handler} {e : Engine}
    (h : LetsStep services nesting (next e) e) : LetsStep services nesting (inspect next) e
  | push {nesting : Nat} {item : Item} {next : Handler} {e : Engine}
    (h : LetsStep services nesting next (Engine.push item e).2) :
    LetsStep services nesting (push item next) e
  | pop {nesting : Nat} {instruction : String} {next : Except Fault Item → Handler} {e : Engine}
    (h : LetsStep services nesting (next (Engine.pop instruction e).1)
      (Engine.pop instruction e).2) :
    LetsStep services nesting (pop instruction next) e
  | load {nesting : Nat} {script : Bytes} {next : Except Fault Unit → Handler} {e : Engine}
    (h : LetsStep services nesting (next (Engine.load script e).1) (Engine.load script e).2) :
    LetsStep services nesting (load script next) e
  | called {nesting : Nat} {service : String} {next : Except Fault Unit → Handler} {e : Engine}
    {handler : Handler} (hfind : services.find? service = some (.extension handler))
    (h : LetsStep services nesting handler e) :
    LetsStep services (nesting + 1) (call service next) e
  | call {nesting : Nat} {service : String} {next : Except Fault Unit → Handler} {e e' : Engine}
    {r : Except Fault Unit} (hcall : services.dispatch nesting service e = some (r, e'))
    (h : LetsStep services nesting (next r) e') : LetsStep services nesting (call service next) e

/-- In this call of a service a handler lets the engine step, the service's own or one that is
called in turn. -/
inductive Services.LetsStep (services : Services) : (nesting : Nat) → String → Engine → Prop where
  | handler {nesting : Nat} {name : String} {e : Engine} {handler : Handler}
    (hfind : services.find? name = some (.extension handler))
    (h : handler.LetsStep services nesting e) : LetsStep services (nesting + 1) name e

/-- A handler that calls a service has the engine step where the call does. -/
theorem Handler.LetsStep.of_call {services : Services} {nesting : Nat} {service : String}
    {next : Except Fault Unit → Handler} {e : Engine} (h : services.LetsStep nesting service e) :
    (Handler.call service next).LetsStep services nesting e := by
  cases h with
  | handler hfind h => exact .called hfind h

theorem Handler.perform_step {invoke : String → Activity} {next : Except Fault Unit → Handler}
    {e e' : Engine} {r : Except Fault Unit} (h : Engine.stepWith invoke e = some (r, e')) :
    (Handler.step next).perform invoke e = (next r).perform invoke e' := by
  rw [perform, h]

/-- What a handler does comes down to acts if what the services do does. It advances the engine only
if it comes to let it step. -/
theorem Handler.perform_acts {services : Services} {nesting : Nat}
    (hdispatch : ∀ service e r e', services.dispatch nesting service e = some (r, e') →
      Acts (services.LetsStep nesting service e) e e')
    {h : Handler} {e e' : Engine} {r : Except Fault Unit}
    (hperform : h.perform (services.dispatch nesting) e = some (r, e')) :
    Acts (h.LetsStep services nesting e) e e' := by
  induction h generalizing e with
  | finish result =>
    cases hperform
    exact .refl
  | inspect next ih => exact (ih e hperform).mono .inspect
  | push item next ih => exact (Acts.refl.push item).trans ((ih hperform).mono .push)
  | pop instruction next ih =>
    exact (Acts.refl.pop instruction).trans ((ih _ hperform).mono .pop)
  | load script next ih => exact (Acts.refl.load script).trans ((ih _ hperform).mono .load)
  | call service next ih =>
    rw [perform] at hperform
    split at hperform
    · cases hperform
    · rename_i result e₁ hcall
      have hcalled : Acts ((Handler.call service next).LetsStep services nesting e) e e₁ :=
        (hdispatch service e result e₁ hcall).mono .of_call
      exact hcalled.trans ((ih _ hperform).mono (.call hcall))
  | step next ih =>
    have hsteps : (Handler.step next).LetsStep services nesting e := .step
    rw [perform] at hperform
    split at hperform
    · cases hperform
    · rename_i result e₁ hstep
      refine (Acts.stepWith hsteps (fun service e₂ r₂ e₃ hcall => ?_) hstep).trans ?_
      · exact (hdispatch service e₂ r₂ e₃ hcall).mono fun _ => hsteps
      · exact (ih _ hperform).mono fun _ => hsteps

/-- So does what a call of a service does. -/
theorem Services.dispatch_acts {services : Services} {nesting : Nat} {name : String}
    {e e' : Engine} {r : Except Fault Unit}
    (h : services.dispatch nesting name e = some (r, e')) :
    Acts (services.LetsStep nesting name e) e e' := by
  induction nesting generalizing name e r e' with
  | zero =>
    unfold dispatch at h
    split at h
    · cases h
      exact .refl
    · rename_i s hfind
      obtain rfl := congrArg Prod.snd (Option.some.inj h)
      exact Acts.refl.invoke s
    · cases h
  | succ nesting ih =>
    unfold dispatch at h
    split at h
    · cases h
      exact .refl
    · rename_i s hfind
      obtain rfl := congrArg Prod.snd (Option.some.inj h)
      exact Acts.refl.invoke s
    · rename_i handler hfind
      exact (Handler.perform_acts (fun _ _ _ _ => ih) h).mono (.handler hfind)

namespace Services

open Engine (Request)

variable {services : Services} {nesting : Nat} {e e' : Engine} {r : Except Fault Unit}

/-! ## Any handlers -/

theorem dispatch_acts_true {name : String}
    (h : services.dispatch nesting name e = some (r, e')) : Acts True e e' :=
  (dispatch_acts h).mono fun _ => trivial

theorem step_acts (h : services.step nesting e = some (r, e')) : Acts True e e' :=
  Acts.stepWith trivial (fun _ _ _ _ => dispatch_acts_true) h

theorem run_acts {n : Nat} (h : services.run nesting n e = some (r, e')) : Acts True e e' := by
  refine run_preserves (P := Acts True e) ?_ ?_ h .refl
  · intro e₁ status hacts
    exact hacts.mark status
  · intro e₁ r₁ e₂ hstep hacts
    exact hacts.trans (step_acts hstep)

/-- Every request that leaves the contracts alone comes down to acts, whatever the handlers are. -/
theorem serve_acts {q : Request} (hq : ∀ script, q ≠ .deploy script)
    (h : services.serve nesting q e = some (r, e')) : Acts True e e' := by
  cases q with
  | deploy script => exact absurd rfl (hq script)
  | load script =>
    obtain rfl := congrArg Prod.snd (Option.some.inj h)
    exact Acts.refl.load script
  | push item =>
    obtain rfl := congrArg Prod.snd (Option.some.inj h)
    exact Acts.refl.push item
  | pop instruction =>
    obtain rfl := congrArg Prod.snd (Option.some.inj h)
    exact Acts.refl.pop instruction
  | mark status =>
    cases h
    exact Acts.refl.mark status
  | call service => exact dispatch_acts_true h
  | step => exact step_acts h
  | run n => exact run_acts h

/-! ## One handler -/

/-- The built-in services, and a handler under a name of its own. -/
def withHandler (name : String) (h : Handler) : Services :=
  builtins.insertNew name (.extension h)

theorem find?_withHandler {name : String} {h : Handler} (hname : Syscall.ofName? name = none) :
    (withHandler name h).find? name = some (.extension h) := by
  rw [withHandler, Table.find?_insertNew, find?_builtins, hname, if_pos rfl]
  rfl

theorem dispatch_withHandler {name : String} {h : Handler} (hname : Syscall.ofName? name = none)
    (nesting : Nat) (e : Engine) :
    (withHandler name h).dispatch (nesting + 1) name e =
      h.perform ((withHandler name h).dispatch nesting) e := by
  rw [dispatch, find?_withHandler hname]

/-! ## Calls in which the engine takes no step -/

/-- The built-in services have no handlers. -/
theorem not_letsStep_builtins (name : String) : ¬ builtins.LetsStep nesting name e := by
  intro h
  cases h with
  | handler hfind =>
    rw [find?_builtins] at hfind
    obtain ⟨s, -, hs⟩ := Option.map_eq_some_iff.mp hfind
    cases hs

/-- Without steps frames are only added on top. -/
theorem frames_of_acts (h : Acts False e e') : ∃ above, e'.frames = above ++ e.frames := by
  induction h with
  | refl => exact ⟨[], rfl⟩
  | stack _ _ ih => exact ih
  | mark _ _ ih => exact ih
  | advance hsteps => exact hsteps.elim
  | @load e₁ script _ ih =>
    obtain ⟨above, habove⟩ := ih
    rcases Engine.load_cases script e₁ with ⟨x, hload⟩ | ⟨-, hload⟩ <;> rw [hload]
    · exact ⟨above, habove⟩
    · exact ⟨Frame.start script e₁.depth :: above, congrArg (_ :: ·) habove⟩

/-- A call of a service in which no handler lets the engine step only adds frames on top. -/
theorem frames_of_not_letsStep {name : String} (hstepless : ¬ services.LetsStep nesting name e)
    (h : services.dispatch nesting name e = some (r, e')) :
    ∃ above, e'.frames = above ++ e.frames :=
  frames_of_acts ((dispatch_acts h).mono hstepless)

end Services

end LedgerNode

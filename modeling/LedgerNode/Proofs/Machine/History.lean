import LedgerNode.Proofs.Machine.Stepping

/-!
# What a host does with an engine

Between its steps an engine is in the hands of its host, who loads scripts, runs them, looks after
the evaluation stack, calls services and deploys contracts, and may go on after any fault.

- `Engine.Request`: the requests of a host; `Services.serve` and `Services.serveAll` serve them.
- `Services.run_eq_serveAll`: a run is its steps between two marks, so that what a run passes
  through is reached by requests as well.
- `Services.run_preserves`, `Services.serveAll_preserves`: what each step or each request preserves,
  a run or a history of requests does.
-/

namespace LedgerNode

/-- What a host can ask of an engine. -/
inductive Engine.Request where
  /-- Load a script. -/
  | load (script : Bytes)
  /-- Push an item. -/
  | push (item : Item)
  /-- Pop an item on behalf of an instruction. -/
  | pop (instruction : String)
  /-- Deploy a contract. -/
  | deploy (script : Bytes)
  /-- Call a service. -/
  | call (service : String)
  /-- Note an outcome, as a run does first and last. -/
  | mark (status : Status)
  /-- Take a step. -/
  | step
  /-- Run within a bound on the steps. -/
  | run (steps : Nat)

/-- The requests that concern neither the invocation stack nor the contracts. -/
def Engine.Request.Passive : Request → Prop
  | push _ | pop _ | call _ | mark _ => True
  | load _ | deploy _ | step | run _ => False

namespace Services

open Engine (Request)

/-- What a request does. -/
def serve (services : Services) (nesting : Nat) : Request → Activity
  | .load script, e => some (Engine.load script e)
  | .push item, e => some (Engine.push item e)
  | .pop instruction, e =>
    let (result, e) := Engine.pop instruction e
    some (result.map fun _ => (), e)
  | .deploy script, e => some (.ok (), e.deploy script)
  | .call service, e => services.dispatch nesting service e
  | .mark status, e => some (.ok (), { e with status })
  | .step, e => services.step nesting e
  | .run steps, e => services.run nesting steps e

/-- The engine after a history of requests, whatever they come to. -/
def serveAll (services : Services) (nesting : Nat) : List Request → Engine → Option Engine
  | [], e => some e
  | q :: qs, e =>
    match services.serve nesting q e with
    | none => none
    | some (_, e) => services.serveAll nesting qs e

variable {services : Services} {nesting : Nat}

theorem serveAll_cons {q : Request} {qs : List Request} {e e' : Engine}
    {r : Except Fault Unit} (h : services.serve nesting q e = some (r, e')) :
    services.serveAll nesting (q :: qs) e = services.serveAll nesting qs e' := by
  rw [serveAll, h]

/-! ## Runs -/

/-- Without a frame a run ends at once. -/
theorem steps_of_nil {e : Engine} (he : e.frames = []) (n : Nat) :
    services.steps nesting n e = some (.ok (), { e with status := .halt }) := by
  cases n <;> rw [steps, he] <;> rfl

/-- Steps up to the end of a run are steps, and a mark at the end. -/
theorem steps_eq_serveAll {n : Nat} {e e' : Engine} {r : Except Fault Unit}
    (h : services.steps nesting n e = some (r, e')) :
    ∃ k ≤ n, ∃ status,
      services.serveAll nesting (.replicate k .step ++ [.mark status]) e = some e' := by
  induction n generalizing e with
  | zero =>
    rw [steps] at h
    split at h
    · cases h
      exact ⟨0, Nat.le_refl _, .halt, rfl⟩
    · cases h
  | succ n ih =>
    rw [steps] at h
    split at h
    · cases h
      exact ⟨0, Nat.zero_le _, .halt, rfl⟩
    · split at h
      · cases h
      · -- the step fails, and so does the run
        rename_i x e₁ hstep
        cases h
        refine ⟨1, Nat.succ_le_succ (Nat.zero_le _), .fault, ?_⟩
        show services.serveAll nesting [.step, .mark .fault] e = _
        rw [serveAll_cons (q := .step) hstep]
        rfl
      · -- the run goes on behind the step
        rename_i e₁ hstep
        obtain ⟨k, hk, status, hserve⟩ := ih h
        refine ⟨k + 1, Nat.succ_le_succ hk, status, ?_⟩
        rw [List.replicate_succ, List.cons_append, serveAll_cons (q := .step) hstep, hserve]

/-- A run is a mark, steps, and a mark. -/
theorem run_eq_serveAll {n : Nat} {e e' : Engine} {r : Except Fault Unit}
    (h : services.run nesting n e = some (r, e')) :
    ∃ k ≤ n, ∃ status, services.serveAll nesting
      (.mark .none :: (.replicate k .step ++ [.mark status])) e = some e' :=
  steps_eq_serveAll h

/-! ## Preservation -/

variable {P : Engine → Prop}

/-- What each request of a history preserves, the history preserves. -/
theorem serveAll_preserves {qs : List Request} {e e' : Engine}
    (hserve : ∀ q ∈ qs, ∀ e r e', services.serve nesting q e = some (r, e') → P e → P e')
    (h : services.serveAll nesting qs e = some e') (hp : P e) : P e' := by
  induction qs generalizing e with
  | nil =>
    cases h
    exact hp
  | cons q qs ih =>
    rw [serveAll] at h
    split at h
    · cases h
    · rename_i r e₁ hq
      refine ih (fun q hmem => hserve q (List.mem_cons_of_mem _ hmem)) h ?_
      exact hserve q List.mem_cons_self e r e₁ hq hp

/-- What steps and marks preserve, a run preserves. -/
theorem run_preserves (hmark : ∀ e status, P e → P { e with status })
    (hstep : ∀ e r e', services.step nesting e = some (r, e') → P e → P e')
    {n : Nat} {e e' : Engine} {r : Except Fault Unit}
    (h : services.run nesting n e = some (r, e')) (hp : P e) : P e' := by
  obtain ⟨k, -, status, hserve⟩ := run_eq_serveAll h
  refine serveAll_preserves (fun q hq e r e' h hp => ?_) hserve hp
  rcases List.mem_cons.mp hq with rfl | hq
  · cases h
    exact hmark _ _ hp
  rcases List.mem_append.mp hq with hq | hq
  · obtain rfl := List.eq_of_mem_replicate hq
    exact hstep e r e' h hp
  · obtain rfl := List.mem_singleton.mp hq
    cases h
    exact hmark _ _ hp

/-! ## Requests to the built-in services -/

/-- A passive request leaves the invocation stack and the contracts as they are. -/
theorem serve_of_passive {q : Request} (hq : q.Passive) {e e' : Engine} {r : Except Fault Unit}
    (h : builtins.serve nesting q e = some (r, e')) :
    e'.frames = e.frames ∧ e'.contracts = e.contracts := by
  cases q with
  | load | deploy | step | run => exact absurd hq id
  | push item =>
    cases h
    exact ⟨rfl, rfl⟩
  | mark status =>
    cases h
    exact ⟨rfl, rfl⟩
  | pop instruction =>
    rw [serve, Engine.pop] at h
    cases hstack : e.stack <;> rw [hstack] at h <;> cases h <;> exact ⟨rfl, rfl⟩
  | call service =>
    obtain ⟨r₁, stack, hcall⟩ := dispatch_builtins_stack nesting service e
    rw [serve, hcall] at h
    cases h
    exact ⟨rfl, rfl⟩

/-- Loading a script puts a frame at its beginning on top, or changes nothing. -/
theorem serve_load {script : Bytes} {e e' : Engine} {r : Except Fault Unit}
    (h : builtins.serve nesting (.load script) e = some (r, e')) :
    e' = e ∨ e' = { e with frames := Frame.start script e.depth :: e.frames } := by
  obtain rfl := congrArg Prod.snd (Option.some.inj h)
  rcases Engine.load_cases script e with ⟨x, hload⟩ | ⟨-, hload⟩
  · exact .inl (congrArg Prod.snd hload)
  · exact .inr (congrArg Prod.snd hload)

end Services

end LedgerNode

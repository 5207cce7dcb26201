import LedgerNode.Proofs.Machine.Course

/-!
# Deploying while scripts run

The table of contracts belongs to the host, who may deploy further contracts at any time, also
between two steps of an engine that calls them. Since a hash that is taken stays with its script, a
step notices only one thing: that a contract it calls is there by now.

- `Contracts.find?_foldl_deploy`: a hash belongs to the first script deployed that has it.
- `Engine.deployAll`: an engine with scripts deployed.
- `Services.outcomes`: what steps come to with scripts deployed before each of them.
- `Services.outcomes_of_deployments`: it is what they come to without, up to a call of a contract
  that is missing there.
-/

namespace LedgerNode

/-- After scripts have been deployed a hash is bound as it was, or else to the first of them that
has it. -/
theorem Contracts.find?_foldl_deploy (contracts : Contracts) (scripts : List Bytes)
    (contract : Hash) :
    (scripts.foldl deploy contracts).find? contract =
      (contracts.find? contract).or
        (scripts.find? fun script => Hash.digest script = contract) := by
  have h := Table.find?_foldl_insertNew_map Hash.digest id scripts contracts contract
  rw [Option.map_id] at h
  exact h

namespace Engine

/-- The engine with scripts deployed one after the other. -/
def deployAll (scripts : List Bytes) (e : Engine) : Engine :=
  scripts.foldl (fun e script => e.deploy script) e

theorem deployAll_eq (scripts : List Bytes) (e : Engine) :
    e.deployAll scripts = { e with
      contracts := e.contracts.map fun contracts => scripts.foldl Contracts.deploy contracts } := by
  induction scripts generalizing e with
  | nil =>
    obtain ⟨frames, stack, container, contracts, limits, status⟩ := e
    cases contracts <;> rfl
  | cons script rest ih =>
    show (e.deploy script).deployAll rest = _
    rw [ih]
    obtain ⟨frames, stack, container, contracts, limits, status⟩ := e
    cases contracts <;> rfl

/-- A call makes the same of the frames when more contracts are deployed, unless its contract was
missing. -/
theorem onFrames_deployAll {contracts : Option Contracts} {limit : Nat} {i : Instruction}
    {frames : List Frame} {r : Except Fault (List Frame)}
    (h : onFrames contracts limit i frames = r)
    (hr : ∀ contract, r ≠ .error (.unknownContract contract)) (scripts : List Bytes) :
    onFrames (contracts.map fun contracts => scripts.foldl Contracts.deploy contracts) limit i
      frames = r := by
  cases i with
  | appCall contract =>
    cases contracts with
    | none => exact h
    | some contracts =>
      dsimp only [onFrames, Option.map] at h ⊢
      rw [Contracts.find?_foldl_deploy]
      cases hfind : contracts.find? contract with
      | none =>
        rw [hfind] at h
        exact absurd h.symm (hr contract)
      | some script =>
        rw [hfind] at h
        exact h
  | _ => exact h

/-- So does every instruction. -/
theorem Carries.deployAll {offset : Nat} {i : Instruction} {e e' : Engine} {r : Except Fault Unit}
    (h : Carries offset i e r e') (hr : ∀ contract, r ≠ .error (.unknownContract contract))
    (scripts : List Bytes) : Carries offset i (e.deployAll scripts) r (e'.deployAll scripts) := by
  have hoffer : (e.deployAll scripts).offer = e.offer := by
    rw [deployAll_eq]
    exact offer_congr rfl rfl
  rw [deployAll_eq] at hoffer ⊢
  rw [deployAll_eq]
  cases h with
  | fail hon => exact .fail (hoffer ▸ hon)
  | stuck hon hframes =>
    have hknown := onFrames_deployAll hframes (fun contract hx => hr contract (by cases hx; rfl))
      scripts
    exact .stuck (hoffer ▸ hon) hknown
  | overflow hon hframes hfull =>
    exact .overflow (hoffer ▸ hon) (onFrames_deployAll hframes nofun scripts) hfull
  | done hon hframes hroom =>
    exact .done (hoffer ▸ hon) (onFrames_deployAll hframes nofun scripts) hroom

end Engine

namespace Services

/-- What a step comes to: its result, and the stacks that it leaves. -/
structure Outcome where
  /-- The result. -/
  result : Except Fault Unit
  /-- The invocation stack. -/
  frames : List Frame
  /-- The evaluation stack. -/
  stack : List Item

/-- What the steps of an engine come to, each of them taken after scripts of its own have been
deployed, and whatever the steps before it have come to. -/
def outcomes (services : Services) (nesting : Nat) :
    (deployments : List (List Bytes)) → Engine → Option (List Outcome)
  | [], _ => some []
  | scripts :: rest, e =>
    match services.step nesting (e.deployAll scripts) with
    | none => none
    | some (r, e) => (services.outcomes nesting rest e).map (⟨r, e.frames, e.stack⟩ :: ·)

variable {nesting : Nat}

/-- An engine with more contracts takes the same steps, until a contract is missing without them. -/
theorem lockstep_deployAll :
    builtins.Lockstep nesting (fun r => ∀ contract, r ≠ .error (.unknownContract contract))
      (fun e₁ e₂ => ∃ scripts, e₂ = e₁.deployAll scripts) := by
  refine lockstep_of_carry nofun ?_ ?_ ?_ ?_
  · rintro e₁ _ ⟨scripts, rfl⟩
    rw [Engine.deployAll_eq]
  · rintro e₁ _ status ⟨scripts, rfl⟩
    refine ⟨scripts, ?_⟩
    rw [Engine.deployAll_eq, Engine.deployAll_eq]
  · rintro e₁ _ frames ⟨scripts, rfl⟩
    refine ⟨scripts, ?_⟩
    rw [Engine.deployAll_eq, Engine.deployAll_eq]
  · rintro offset i e₁ _ e₁' r ⟨scripts, rfl⟩ hr h
    exact ⟨_, h.deployAll hr scripts, scripts, rfl⟩

theorem outcomes_cons {services : Services} {scripts : List Bytes} {rest : List (List Bytes)}
    {e e' : Engine} {r : Except Fault Unit} {os : List Outcome}
    (hstep : services.step nesting (e.deployAll scripts) = some (r, e'))
    (hrest : services.outcomes nesting rest e' = some os) :
    services.outcomes nesting (scripts :: rest) e = some (⟨r, e'.frames, e'.stack⟩ :: os) := by
  rw [outcomes, hstep]
  dsimp only
  rw [hrest]
  rfl

/-- Steps always come to something where only the built-in services are registered. -/
theorem exists_outcomes (nesting : Nat) (deployments : List (List Bytes)) (e : Engine) :
    ∃ os, builtins.outcomes nesting deployments e = some os := by
  induction deployments generalizing e with
  | nil => exact ⟨[], rfl⟩
  | cons scripts rest ih =>
    obtain ⟨r, e', hstep, -⟩ := step_work_le nesting (e.deployAll scripts)
    obtain ⟨os, hos⟩ := ih e'
    exact ⟨_, outcomes_cons hstep hos⟩

/-- Deployments before and between the steps change nothing up to the first step that misses a
contract without them. -/
theorem take_outcomes_eq (scripts : List Bytes) {deployments : List (List Bytes)} {e : Engine}
    {alone amid : List Outcome}
    (halone : builtins.outcomes nesting (deployments.map fun _ => []) e = some alone)
    (hamid : builtins.outcomes nesting deployments (e.deployAll scripts) = some amid) {k : Nat}
    (hk : ∀ o ∈ alone.take k, ∀ contract, o.result ≠ .error (.unknownContract contract)) :
    amid.take k = alone.take k := by
  induction deployments generalizing scripts e alone amid k with
  | nil =>
    cases halone
    cases hamid
    rfl
  | cons new rest ih =>
    cases k with
    | zero => rfl
    | succ k =>
      obtain ⟨r, e₁, hstep, -⟩ := step_work_le nesting e
      obtain ⟨alone', halone'⟩ := exists_outcomes nesting (rest.map fun _ => []) e₁
      have hfirst : builtins.outcomes nesting ([] :: rest.map fun _ => []) e = some _ :=
        outcomes_cons hstep halone'
      rw [List.map_cons, hfirst] at halone
      cases halone
      rw [List.take_succ_cons] at hk
      have hr := hk _ List.mem_cons_self
      -- the scripts deployed so far and those deployed before this step
      have hjoin : (e.deployAll scripts).deployAll new = e.deployAll (scripts ++ new) :=
        List.foldl_append.symm
      obtain ⟨_, hstep', scripts', rfl⟩ := lockstep_deployAll.step ⟨_, hjoin⟩ hr hstep
      obtain ⟨amid', hamid'⟩ := exists_outcomes nesting rest (e₁.deployAll scripts')
      rw [outcomes_cons hstep' hamid'] at hamid
      cases hamid
      have hrest := ih scripts' halone' hamid' fun o ho => hk o (List.mem_cons_of_mem _ ho)
      rw [List.take_succ_cons, List.take_succ_cons, hrest, Engine.deployAll_eq]

/-- Deployments never disturb executions. A hash belongs for good to the first script deployed that
has it; and whatever is deployed before and between the steps of an engine, they have the same
results and leave the same stacks as without it, up to and including the first failure and beyond,
as long as no step without it misses a contract. -/
theorem outcomes_of_deployments (deployed : List Bytes) :
    (∀ contract, (deployed.foldl Contracts.deploy ∅).find? contract =
      deployed.find? fun script => Hash.digest script = contract) ∧
    (∀ later contract script, (deployed.foldl Contracts.deploy ∅).find? contract = some script →
      ((deployed ++ later).foldl Contracts.deploy ∅).find? contract = some script) ∧
    ∀ (nesting : Nat) (e : Engine) (deployments : List (List Bytes)),
      ∃ alone amid, builtins.outcomes nesting (deployments.map fun _ => []) e = some alone ∧
        builtins.outcomes nesting deployments e = some amid ∧
        ∀ k, (∀ o ∈ alone.take k, ∀ contract, o.result ≠ .error (.unknownContract contract)) →
          amid.take k = alone.take k := by
  refine ⟨?_, ?_, ?_⟩
  · intro contract
    rw [Contracts.find?_foldl_deploy, Table.find?_empty, Option.none_or]
  · intro later contract script h
    rw [List.foldl_append, Contracts.find?_foldl_deploy, h, Option.some_or]
  · intro nesting e deployments
    obtain ⟨alone, halone⟩ := exists_outcomes nesting (deployments.map fun _ => []) e
    obtain ⟨amid, hamid⟩ := exists_outcomes nesting deployments e
    exact ⟨alone, amid, halone, hamid, fun k => take_outcomes_eq [] halone hamid⟩

/-- An engine about to call the contract without code, which has been deployed. -/
def callingEmpty : Engine where
  frames := [Frame.start (Instruction.appCall (Hash.digest [])).encode 0]
  container := ⟨0, Hash.zero, []⟩
  contracts := some ([([] : Bytes)].foldl Contracts.deploy ∅)

/-- The call enters its contract also right after another one has been deployed. -/
theorem outcomes_of_deployments_call :
    ([([] : Bytes)].foldl Contracts.deploy ∅).find? (Hash.digest []) = some [] ∧
    ([[], Instruction.ret.encode].foldl Contracts.deploy ∅).find? (Hash.digest []) = some [] ∧
    ∃ amid o, builtins.outcomes 0 [[Instruction.ret.encode]] callingEmpty = some amid ∧
      amid.take 1 = [o] ∧ o.result = .ok () ∧ o.frames.length = 2 := by
  obtain ⟨hfind, hstays, hsteps⟩ := outcomes_of_deployments [[]]
  have hbound : ([([] : Bytes)].foldl Contracts.deploy ∅).find? (Hash.digest []) = some [] := by
    rw [hfind]
    simp
  have hnext : (Frame.start (Instruction.appCall (Hash.digest [])).encode 0).next =
      .ok (.appCall (Hash.digest [])) := by
    have hparse := Instruction.parse_appCall 0 (Hash.digest []) []
    rw [List.append_nil] at hparse
    exact hparse
  have hstep := step_of_call builtins 0 (e := callingEmpty) rfl hnext rfl hbound
    (by decide) (by decide)
  obtain ⟨alone, amid, halone, hamid, hagree⟩ := hsteps 0 callingEmpty [[Instruction.ret.encode]]
  have hfirst : builtins.outcomes 0 [[]] callingEmpty = some [_] := outcomes_cons hstep rfl
  rw [List.map_singleton, hfirst] at halone
  cases halone
  refine ⟨hbound, hstays [Instruction.ret.encode] _ _ hbound, amid, _, hamid, hagree 1 ?_, rfl, rfl⟩
  intro o ho contract
  obtain rfl := List.mem_singleton.mp ho
  exact nofun

end Services

end LedgerNode

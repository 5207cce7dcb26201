import LedgerNode.Proofs.Machine.History

/-!
# Who called whom

A contract decides by the hashes of the scripts around it whether it was called rightly. Each frame
but the entry frame was put where it is by an `APPCALL` of the frame below, whose instruction
pointer is still right behind that instruction; so the bytes there name the contract that was
called.

- `Engine.Called`: a frame waits behind the `APPCALL` that loaded another.
- `Engine.CallChain`: the frames of an invocation stack, each called by the one below, down to the
  entry frame.
- `Engine.Provenance`: the invariant: the chain, and contracts under their own hashes. Every request
  but loading another script preserves it (`Services.serve_provenance`).
- `Services.call_chain`: the chain in every state that a history of requests comes to, and what the
  services that ask for a hash push there.
-/

namespace LedgerNode

/-! ## Contracts under their own hashes -/

/-- Every contract is kept under the hash of its code. -/
def Contracts.Keyed (contracts : Contracts) : Prop :=
  ∀ contract script, contracts.find? contract = some script → contract = Hash.digest script

/-- A contract that can be called stays what it is when another one is deployed. -/
theorem Contracts.find?_deploy {contracts : Contracts} {contract : Hash} {code script : Bytes}
    (h : contracts.find? contract = some code) :
    (contracts.deploy script).find? contract = some code := by
  unfold deploy
  rw [Table.find?_insertNew, h, Option.some_or]

theorem Contracts.keyed_empty : Contracts.Keyed ∅ := by
  intro contract script h
  rw [Table.find?_empty] at h
  cases h

theorem Contracts.keyed_deploy {contracts : Contracts} (h : contracts.Keyed) (script : Bytes) :
    (contracts.deploy script).Keyed := by
  intro contract code hfind
  unfold deploy at hfind
  rw [Table.find?_insertNew] at hfind
  cases hold : contracts.find? contract with
  | some old =>
    rw [hold, Option.some_or] at hfind
    cases hfind
    exact h contract code hold
  | none =>
    rw [hold, Option.none_or] at hfind
    split at hfind
    · rename_i hcontract
      cases hfind
      exact hcontract
    · cases hfind

theorem Contracts.keyed_foldl_deploy {contracts : Contracts} (h : contracts.Keyed)
    (scripts : List Bytes) : Contracts.Keyed (scripts.foldl deploy contracts) := by
  induction scripts generalizing contracts with
  | nil => exact h
  | cons script rest ih => exact ih (keyed_deploy h script)

namespace Engine

/-! ## The chain of calls -/

/-- A frame has just read the `APPCALL` that loaded another: the operand is the hash of the script
that was loaded, and this script is the contract under that hash. -/
structure Called (contracts : Option Contracts) (caller callee : Frame) : Prop where
  size_le_ip : 33 ≤ caller.ip
  opcode_eq : caller.script[caller.ip - 33]? = some 0x31
  operand_eq : (caller.script.drop (caller.ip - 32)).take 32 = (Hash.digest callee.script).bytes
  deployed : ∃ table, contracts = some table ∧
    table.find? (Hash.digest callee.script) = some callee.script

/-- Frames from the current one down to the entry frame, each called by the next. -/
inductive CallChain (contracts : Option Contracts) (entry : Bytes) : List Frame → Prop where
  | nil : CallChain contracts entry []
  | entry {f : Frame} (hscript : f.script = entry) : CallChain contracts entry [f]
  | call {callee caller : Frame} {below : List Frame} (hcalled : Called contracts caller callee)
    (hchain : CallChain contracts entry (caller :: below)) :
    CallChain contracts entry (callee :: caller :: below)

variable {contracts : Option Contracts} {entry : Bytes}

/-- A call in a script that has been read as an instruction. -/
theorem called_of_next {f : Frame} {contract : Hash} {script : Bytes} {table : Contracts}
    (depth : Nat) (hnext : f.next = .ok (.appCall contract)) (htable : contracts = some table)
    (hkeyed : table.Keyed) (hfind : table.find? contract = some script) :
    Called contracts (f.skip (Instruction.appCall contract).size) (Frame.start script depth) := by
  obtain rfl := hkeyed contract script hfind
  -- the bytes of the call stand where the frame was before it read them
  have hcode := Instruction.eq_encode_append hnext
  rw [Instruction.size_appCall]
  refine ⟨Nat.le_add_left _ _, ?_, ?_, table, htable, hfind⟩
  · show f.script[f.ip + 33 - 33]? = _
    rw [Nat.add_sub_cancel, ← List.head?_drop]
    show f.ahead.head? = _
    rw [hcode]
    rfl
  · show (f.script.drop (f.ip + 33 - 32)).take 32 = _
    have hahead : f.script.drop (f.ip + 33 - 32) = f.ahead.drop 1 := by
      rw [Frame.ahead, List.drop_drop]
      rfl
    rw [hahead, hcode]
    exact List.take_left' (Hash.digest script).length_bytes

/-- Only the current frame may move on. -/
theorem CallChain.skip {f : Frame} {below : List Frame} (h : CallChain contracts entry (f :: below))
    (n : Nat) : CallChain contracts entry (f.skip n :: below) := by
  cases h with
  | entry hscript => exact .entry hscript
  | call hcalled hchain => exact .call ⟨hcalled.1, hcalled.2, hcalled.3, hcalled.4⟩ hchain

theorem CallChain.tail {f : Frame} {below : List Frame}
    (h : CallChain contracts entry (f :: below)) : CallChain contracts entry below := by
  cases h with
  | entry => exact .nil
  | call _ hchain => exact hchain

/-- A chain stays one where all contracts stay what they are. -/
theorem CallChain.imp {contracts' : Option Contracts} {frames : List Frame}
    (himp : ∀ caller callee, Called contracts caller callee → Called contracts' caller callee)
    (h : CallChain contracts entry frames) : CallChain contracts' entry frames := by
  induction h with
  | nil => exact .nil
  | entry hscript => exact .entry hscript
  | call hcalled _ ih => exact .call (himp _ _ hcalled) ih

theorem CallChain.entry_eq {frames : List Frame} (h : CallChain contracts entry frames) {f : Frame}
    (hf : frames.getLast? = some f) : f.script = entry := by
  induction h with
  | nil => cases hf
  | entry hscript =>
    cases hf
    exact hscript
  | call _ _ ih =>
    rw [List.getLast?_cons_cons] at hf
    exact ih hf

/-- Counted from the entry frame on, each frame has called the next. -/
theorem CallChain.called {frames : List Frame} (h : CallChain contracts entry frames) {i : Nat}
    {caller callee : Frame} (hcaller : frames.reverse[i]? = some caller)
    (hcallee : frames.reverse[i + 1]? = some callee) : Called contracts caller callee := by
  induction h with
  | nil => cases hcaller
  | entry => cases hcallee
  | @call top next below hcalled _ ih =>
    rw [List.reverse_cons] at hcaller hcallee
    have hlength : (next :: below).reverse.length = below.length + 1 := by simp
    rcases Nat.lt_trichotomy (i + 1) (below.length + 1) with hlt | heq | hgt
    · rw [List.getElem?_append_left (by omega)] at hcaller hcallee
      exact ih hcaller hcallee
    · -- the call that the current frame comes from
      obtain rfl : i = below.length := Nat.succ.inj heq
      rw [List.getElem?_append_left (by omega), List.reverse_cons,
        List.getElem?_append_right (by simp), List.length_reverse, Nat.sub_self] at hcaller
      rw [List.getElem?_append_right (by omega), hlength, Nat.sub_self] at hcallee
      cases hcaller
      cases hcallee
      exact hcalled
    · rw [List.getElem?_eq_none (by simp; omega)] at hcallee
      cases hcallee

/-! ## The invariant -/

/-- What calls and returns keep true of an engine whose contracts have been deployed. -/
structure Provenance (entry : Bytes) (e : Engine) : Prop where
  keyed : ∀ table, e.contracts = some table → Contracts.Keyed table
  chain : CallChain e.contracts entry e.frames

/-- Only the frames and the contracts matter. -/
theorem Provenance.of_eq {e e' : Engine} (h : Provenance entry e) (hframes : e'.frames = e.frames)
    (hcontracts : e'.contracts = e.contracts) : Provenance entry e' := by
  obtain ⟨hkeyed, hchain⟩ := h
  refine ⟨?_, ?_⟩
  · rw [hcontracts]
    exact hkeyed
  · rw [hframes, hcontracts]
    exact hchain

theorem Provenance.skip {e : Engine} (h : Provenance entry e) {f : Frame} {below : List Frame}
    (he : e.frames = f :: below) (n : Nat) :
    Provenance entry { e with frames := f.skip n :: below } := by
  obtain ⟨hkeyed, hchain⟩ := h
  rw [he] at hchain
  exact ⟨hkeyed, hchain.skip n⟩

theorem Provenance.moves {e e' : Engine} {limit : Nat} {r : Except Fault Unit}
    (h : Provenance entry e) (hcontracts : e'.contracts = e.contracts)
    (hmoves : Moves e.contracts limit r e.frames e'.frames) : Provenance entry e' := by
  obtain ⟨frames, stack, container, contracts, limits, status⟩ := e
  obtain ⟨frames', stack', container', contracts', limits', status'⟩ := e'
  subst hcontracts
  cases hmoves with
  | leave => exact ⟨h.keyed, h.chain.tail⟩
  | @read f below n hpos hn => exact (h.skip rfl n).of_eq rfl rfl
  | @enter f below table contract script hnext htable hfind hdepth =>
    have hskip := h.skip rfl (Instruction.appCall contract).size
    have hcalled := called_of_next (below.length + 1) hnext htable (h.keyed table htable) hfind
    exact ⟨h.keyed, .call hcalled hskip.chain⟩

theorem Provenance.deploy {e : Engine} (h : Provenance entry e) (script : Bytes) :
    Provenance entry (e.deploy script) := by
  obtain ⟨hkeyed, hchain⟩ := h
  refine ⟨?_, hchain.imp ?_⟩
  · intro table htable
    obtain ⟨old, hold, rfl⟩ := Option.map_eq_some_iff.mp htable
    exact Contracts.keyed_deploy (hkeyed old hold) script
  · -- under a hash that is taken nothing else is deployed
    rintro caller callee ⟨hsize, hopcode, hoperand, table, htable, hfind⟩
    refine ⟨hsize, hopcode, hoperand, table.deploy script, ?_, Contracts.find?_deploy hfind⟩
    exact congrArg (Option.map fun contracts => contracts.deploy script) htable

/-- Loading a script where there is no frame makes it the entry script. -/
theorem provenance_load {e : Engine} (hempty : e.frames = [])
    (hkeyed : ∀ table, e.contracts = some table → Contracts.Keyed table) :
    Provenance entry { e with frames := Frame.start entry e.depth :: e.frames } := by
  rw [hempty]
  exact ⟨hkeyed, .entry rfl⟩

/-! ## The hashes that scripts ask for -/

theorem executing_item {e : Engine} {f : Frame} {below : List Frame} (he : e.frames = f :: below) :
    Syscall.getExecutingScriptHash.item e = .ok (.ofHash (Hash.digest f.script)) := by
  rw [Syscall.item, current, he, ← f.codeHash_get]
  rfl

theorem calling_item {e : Engine} {f g : Frame} {below : List Frame}
    (he : e.frames = f :: g :: below) :
    Syscall.getCallingScriptHash.item e = .ok (.ofHash (Hash.digest g.script)) := by
  rw [Syscall.item, calling, he, ← g.codeHash_get]
  rfl

theorem Provenance.entry_item {e : Engine} (h : Provenance entry e) {f : Frame}
    {below : List Frame} (he : e.frames = f :: below) :
    Syscall.getEntryScriptHash.item e = .ok (.ofHash (Hash.digest entry)) := by
  obtain ⟨last, hlast⟩ : ∃ last, e.frames.getLast? = some last :=
    ⟨_, List.getLast?_eq_some_getLast (he ▸ List.cons_ne_nil f below)⟩
  rw [Syscall.item, Engine.entry, hlast, ← h.chain.entry_eq hlast, ← last.codeHash_get]
  rfl

end Engine

namespace Services

open Engine (Called Provenance Request)

/-! ## Histories -/

variable {nesting : Nat} {entry : Bytes}

theorem step_provenance {e e' : Engine} {r : Except Fault Unit}
    (hstep : builtins.step nesting e = some (r, e')) (h : Provenance entry e) :
    Provenance entry e' := by
  by_cases hnil : e.frames = []
  · rw [step_of_nil builtins nesting hnil] at hstep
    cases hstep
    exact h
  · obtain ⟨hsame, hmoves⟩ := moves_of_step hnil hstep
    exact h.moves hsame.contracts hmoves

/-- Every request but loading another script preserves the invariant, whatever it comes to. -/
theorem serve_provenance {q : Request} (hq : ∀ script, q ≠ .load script) {e e' : Engine}
    {r : Except Fault Unit} (hserve : builtins.serve nesting q e = some (r, e'))
    (h : Provenance entry e) : Provenance entry e' := by
  have hpassive : q.Passive → Provenance entry e' := by
    intro hq
    obtain ⟨hframes, hcontracts⟩ := serve_of_passive hq hserve
    exact h.of_eq hframes hcontracts
  cases q with
  | load script => exact absurd rfl (hq script)
  | push | pop | call | mark => exact hpassive trivial
  | deploy script =>
    cases hserve
    exact h.deploy script
  | step => exact step_provenance hserve h
  | run n =>
    refine run_preserves ?_ ?_ hserve h
    · intro e status h
      exact h.of_eq rfl rfl
    · intro e r e' hstep h
      exact step_provenance hstep h

/-- The calls behind an invocation stack can be told from it. After any requests to an engine with
one entry script and deployed contracts, the outermost frame holds the entry script and every other
frame has been called by the one below, whose code names it there; and the services that ask for a
hash push what the code says, however far the current script has been read since. -/
theorem call_chain {e₀ e₁ e : Engine} {deployed : List Bytes} {qs : List Request}
    (hempty : e₀.frames = [])
    (hdeployed : e₀.contracts = some (deployed.foldl Contracts.deploy ∅))
    (hload : builtins.serve nesting (.load entry) e₀ = some (.ok (), e₁))
    (hqs : ∀ script, .load script ∉ qs) (hserve : builtins.serveAll nesting qs e₁ = some e) :
    (∀ f, e.frames.reverse[0]? = some f → f.script = entry) ∧
    (∀ i caller callee, e.frames.reverse[i]? = some caller →
      e.frames.reverse[i + 1]? = some callee → Called e.contracts caller callee) ∧
    (∀ callee caller below n, e.frames = callee :: caller :: below →
      let now : Engine := { e with frames := callee.skip n :: caller :: below }
      builtins.dispatch nesting Syscall.getExecutingScriptHash.name now =
        some (.ok (), { now with
          stack := .bytes ((caller.script.drop (caller.ip - 32)).take 32) :: e.stack }) ∧
      builtins.dispatch nesting Syscall.getCallingScriptHash.name now =
        some (.ok (), { now with stack := .ofHash (Hash.digest caller.script) :: e.stack })) ∧
    ∀ f below n, e.frames = f :: below →
      let now : Engine := { e with frames := f.skip n :: below }
      builtins.dispatch nesting Syscall.getEntryScriptHash.name now =
        some (.ok (), { now with stack := .ofHash (Hash.digest entry) :: e.stack }) := by
  have hkeyed : ∀ table, e₀.contracts = some table → Contracts.Keyed table := by
    intro table htable
    rw [hdeployed] at htable
    cases htable
    exact Contracts.keyed_foldl_deploy Contracts.keyed_empty deployed
  have hstart : Provenance entry e₁ := by
    rw [serve, Engine.load] at hload
    split at hload
    · cases hload
    · cases hload
      exact Engine.provenance_load hempty hkeyed
  have h : Provenance entry e := by
    refine serveAll_preserves (fun q hq e r e' hserve h => ?_) hserve hstart
    exact serve_provenance (fun script hscript => hqs script (hscript ▸ hq)) hserve h
  refine ⟨?_, fun i caller callee => h.chain.called, ?_, ?_⟩
  · intro f hf
    rw [← List.head?_eq_getElem?, List.head?_reverse] at hf
    exact h.chain.entry_eq hf
  · intro callee caller below n he
    have hcalled : Called e.contracts caller callee := by
      have hchain := h.chain
      rw [he] at hchain
      cases hchain with
      | call hcalled => exact hcalled
    refine ⟨?_, dispatch_of_item (Engine.calling_item rfl) nesting⟩
    rw [hcalled.operand_eq]
    exact dispatch_of_item (Engine.executing_item (f := callee.skip n) rfl) nesting
  · intro f below n he
    exact dispatch_of_item ((h.skip he n).entry_item rfl) nesting

/-- The code that calls the contract without code. -/
def emptyCall : Bytes :=
  (Instruction.appCall (Hash.digest [])).encode

/-- A step into the contract without code, which then is told who has called it. -/
theorem call_chain_empty_call :
    ∃ e₀ e₁ e : Engine, e₀.frames = [] ∧
      e₀.contracts = some ([([] : Bytes)].foldl Contracts.deploy ∅) ∧
      builtins.serve 0 (.load emptyCall) e₀ = some (.ok (), e₁) ∧
      builtins.serveAll 0 [.step] e₁ = some e ∧
      ∃ callee caller, e.frames = [callee, caller] ∧ Called e.contracts caller callee ∧
        builtins.dispatch 0 Syscall.getCallingScriptHash.name e =
          some (.ok (), { e with stack := [.ofHash (Hash.digest emptyCall)] }) := by
  let e₀ : Engine :=
    { container := ⟨0, Hash.zero, []⟩, contracts := some ([([] : Bytes)].foldl Contracts.deploy ∅) }
  let caller : Frame := Frame.start emptyCall 0
  let e₁ : Engine := { e₀ with frames := [caller] }
  let callee : Frame := Frame.start [] 1
  let e : Engine := { e₀ with frames := [callee, caller.skip 33] }
  have hnext : caller.next = .ok (.appCall (Hash.digest [])) := by
    have hparse := Instruction.parse_appCall 0 (Hash.digest []) []
    rw [List.append_nil] at hparse
    exact hparse
  have hfind : ([([] : Bytes)].foldl Contracts.deploy ∅).find? (Hash.digest []) = some [] := by
    show (Contracts.deploy ∅ []).find? _ = _
    rw [Contracts.deploy, Table.find?_insertNew, if_pos rfl, Table.find?_empty]
    rfl
  have hload : builtins.serve 0 (.load emptyCall) e₀ = some (.ok (), e₁) := rfl
  have he₁ : e₁.frames = [caller] := rfl
  have hstep : builtins.serve 0 .step e₁ = some (.ok (), e) :=
    step_of_call builtins 0 he₁ hnext rfl hfind (by decide) (by decide)
  have hserve : builtins.serveAll 0 [.step] e₁ = some e := serveAll_cons hstep
  obtain ⟨-, hcalled, hcalling, -⟩ := call_chain rfl rfl hload (by simp) hserve
  refine ⟨e₀, e₁, e, rfl, rfl, hload, hserve, callee, caller.skip 33, rfl, ?_, ?_⟩
  · exact hcalled 0 (caller.skip 33) callee rfl rfl
  · exact (hcalling callee (caller.skip 33) [] 0 rfl).2

end Services

end LedgerNode

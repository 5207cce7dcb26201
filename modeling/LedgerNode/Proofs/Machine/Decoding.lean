import LedgerNode.Proofs.Machine.History

/-!
# An engine runs what a listing shows

An engine reads a script an instruction at a time, with whatever its calls do in between, and a
listing reads it at once. Both come to the same offsets and find the same there.

- `Engine.Continues`: the states that an engine comes to while no step has failed and a frame of it
  stays. What runs pass through is among them, since a run is steps between two marks.
- `Engine.Listed`: the invariant: the frame is at a boundary of the listing of its script.
- `Services.runs_as_listed`: on top of the invocation stack the frame is at the end of its script or
  where the listing reads, and a step does what the listing shows there, or fails as it does.
-/

namespace LedgerNode

namespace Engine

open Services (builtins)

/-- The states that an engine comes to while no step fails and more than `level` of its frames
stay. -/
inductive Continues (nesting level : Nat) (e₀ : Engine) : Engine → Prop where
  | refl : Continues nesting level e₀ e₀
  | step {e e' : Engine} (h : Continues nesting level e₀ e)
    (hstep : builtins.step nesting e = some (.ok (), e')) (hdepth : level < e'.depth) :
    Continues nesting level e₀ e'
  | ask {e e' : Engine} {q : Request} {r : Except Fault Unit} (h : Continues nesting level e₀ e)
    (hstep : q ≠ .step) (hrun : ∀ n, q ≠ .run n)
    (hserve : builtins.serve nesting q e = some (r, e')) : Continues nesting level e₀ e'

/-- Over the frames `below` a frame of a script is at a boundary of the script's listing. -/
def Listed (script : Bytes) (below frames : List Frame) : Prop :=
  ∃ above f, frames = above ++ f :: below ∧ f.script = script ∧ Script.IsBoundary script f.ip

variable {script : Bytes} {below frames frames' : List Frame}

theorem Listed.cons (h : Listed script below frames) (f : Frame) :
    Listed script below (f :: frames) := by
  obtain ⟨above, g, rfl, hscript, hboundary⟩ := h
  exact ⟨f :: above, g, rfl, hscript, hboundary⟩

/-- Behind an instruction that the current frame has read lies the next boundary. -/
theorem Listed.skip {f : Frame} {rest : List Frame} (h : Listed script below (f :: rest))
    {n : Nat} (hread : ∃ i, f.next = .ok i ∧ n = i.size) :
    Listed script below (f.skip n :: rest) := by
  obtain ⟨i, hnext, rfl⟩ := hread
  obtain ⟨above, g, hframes, hscript, hboundary⟩ := h
  -- the current frame is the one of the script or lies above it
  cases above with
  | nil =>
    cases hframes
    subst hscript
    exact ⟨[], f.skip i.size, rfl, rfl, hboundary.next hnext⟩
  | cons a above =>
    cases hframes
    exact ⟨f.skip i.size :: above, g, rfl, hscript, hboundary⟩

/-- A step that succeeds keeps the frame at a boundary, unless it leaves the frame. -/
theorem Listed.moves {contracts : Option Contracts} {limit : Nat} (h : Listed script below frames)
    (hmoves : Moves contracts limit (.ok ()) frames frames')
    (hdepth : below.length < frames'.length) : Listed script below frames' := by
  cases hmoves with
  | leave =>
    obtain ⟨above, g, hframes, hscript, hboundary⟩ := h
    cases above with
    | nil =>
      cases hframes
      exact absurd hdepth (Nat.lt_irrefl _)
    | cons a above =>
      cases hframes
      exact ⟨above, g, rfl, hscript, hboundary⟩
  | read hpos hn hread => exact h.skip (hread rfl)
  | enter hnext htable hfind => exact (h.skip ⟨_, hnext, rfl⟩).cons _

variable {nesting : Nat} {e e' : Engine}

theorem Listed.step (h : Listed script below e.frames)
    (hstep : builtins.step nesting e = some (.ok (), e')) (hdepth : below.length < e'.depth) :
    Listed script below e'.frames := by
  have hne : e.frames ≠ [] := by
    obtain ⟨above, g, hframes, -⟩ := h
    rw [hframes]
    exact List.append_ne_nil_of_right_ne_nil _ (List.cons_ne_nil _ _)
  exact h.moves (Services.moves_of_step hne hstep).2 hdepth

/-- Requests other than steps and runs do not touch the frame. -/
theorem Listed.serve {q : Request} {r : Except Fault Unit} (h : Listed script below e.frames)
    (hstep : q ≠ .step) (hrun : ∀ n, q ≠ .run n)
    (hserve : builtins.serve nesting q e = some (r, e')) : Listed script below e'.frames := by
  have hpassive : q.Passive → Listed script below e'.frames := by
    intro hq
    rw [(Services.serve_of_passive hq hserve).1]
    exact h
  cases q with
  | step => exact absurd rfl hstep
  | run n => exact absurd rfl (hrun n)
  | push | pop | call | mark => exact hpassive trivial
  | deploy code =>
    cases hserve
    exact h
  | load code =>
    rcases Services.serve_load hserve with rfl | rfl
    · exact h
    · exact h.cons _

theorem Continues.listed {e₀ : Engine} (h : Continues nesting below.length e₀ e)
    (h₀ : Listed script below e₀.frames) : Listed script below e.frames := by
  induction h with
  | refl => exact h₀
  | step _ hstep hdepth ih => exact ih.step hstep hdepth
  | ask _ hstep hrun hserve ih => exact ih.serve hstep hrun hserve

end Engine

namespace Services

open Engine (Continues Listed)

variable {nesting : Nat}

/-- Listing and running a script decode it alike. A frame that has been loaded is at the end of its
script or where the listing of the script reads whenever it is the current one, as long as no step
has failed. There the step carries out the instruction that the listing shows, or fails with the
fault that the listing is refused with; then the frame never comes to the end of its script. -/
theorem runs_as_listed {e₀ e : Engine} {above below : List Frame} {f : Frame}
    (he₀ : e₀.frames = above ++ f :: below) (hip : f.ip = 0)
    (h : Continues nesting below.length e₀ e) :
    (disassemble f.script = ((Script.readings f.script).mapM Script.located).map fun is =>
      String.join (is.map fun (offset, i) => Listing.line offset i)) ∧
    (∀ x, disassemble f.script = .error x ↔ ∃ o, (o, .error x) ∈ Script.readings f.script) ∧
    ∃ above g, e.frames = above ++ g :: below ∧ g.script = f.script ∧ (above = [] →
      (g.ip = f.script.length ∨ ∃ r, (g.ip, r) ∈ Script.readings f.script) ∧
      (∀ i, (g.ip, .ok i) ∈ Script.readings f.script →
        (f.script.drop g.ip).take i.size = i.encode ∧
        builtins.step nesting e = (builtins.effect nesting g.ip i
          { e with frames := g.skip i.size :: below }).map Engine.settle) ∧
      ∀ o x, (o, .error x) ∈ Script.readings f.script → g.ip < f.script.length ∧
        (g.ip = o → ∃ e', builtins.step nesting e = some (.error x, e'))) := by
  refine ⟨Script.disassemble_eq f.script, fun x => Script.disassemble_eq_error_iff, ?_⟩
  have h₀ : Listed f.script below e₀.frames :=
    ⟨above, f, he₀, rfl, hip ▸ Script.isBoundary_zero f.script⟩
  obtain ⟨above, g, he, hscript, hboundary⟩ := h.listed h₀
  refine ⟨above, g, he, hscript, ?_⟩
  rintro rfl
  -- what the listing finds at the offset is what the frame has next
  have hnext {r : Except Fault Instruction} (hr : (g.ip, r) ∈ Script.readings f.script) :
      g.next = r := by
    rw [Script.eq_parse_of_mem_readings hr, ← hscript]
    rfl
  refine ⟨?_, ?_, ?_⟩
  · rcases Nat.eq_or_lt_of_le hboundary.le_length with hend | hlt
    · exact .inl hend
    · exact .inr ⟨_, hboundary.mem_readings hlt⟩
  · intro i hi
    refine ⟨?_, step_of_next_ok builtins nesting he (hnext hi)⟩
    have hcode := Instruction.eq_encode_append (hnext hi)
    rw [← hscript]
    show g.ahead.take i.size = i.encode
    rw [hcode]
    exact List.take_left' i.length_encode
  · intro o x hx
    have hlt := hboundary.lt_length hx
    refine ⟨hlt, ?_⟩
    rintro rfl
    have hend : g.atEnd = false := by
      unfold Frame.atEnd
      rw [hscript]
      exact decide_eq_false (Nat.not_le_of_lt hlt)
    obtain ⟨n, -, -, hstep⟩ := step_of_next_error builtins nesting he hend (hnext hx)
    exact ⟨_, hstep⟩

/-- A byte string that is cut short behind an instruction that is whole. -/
def cutShort : Bytes :=
  [0x00, 0x01, 0x02, 0xff]

/-- A listing that is refused, and a run that fails where the listing does. -/
theorem runs_as_listed_cut_short :
    disassemble cutShort = .error (.unexpectedEnd 3 2 1) ∧
    ∃ e₀ e e' : Engine, e₀.frames = [Frame.start cutShort 0] ∧ Continues 0 0 e₀ e ∧
      builtins.step 0 e = some (.error (.unexpectedEnd 3 2 1), e') := by
  let e₀ : Engine := { frames := [Frame.start cutShort 0], container := ⟨0, Hash.zero, []⟩ }
  let e : Engine := { e₀ with frames := [(Frame.start cutShort 0).skip 1] }
  have hreading : (1, .error (.unexpectedEnd 3 2 1)) ∈ Script.readings cutShort := by
    have hrest : Script.readingsFrom 1 [0x01, 0x02, 0xff] = [(1, .error (.unexpectedEnd 3 2 1))] :=
      Script.readingsFrom_of_error nofun rfl
    rw [Script.readings, Script.readingsFrom_of_ok (i := .nop) rfl]
    exact List.mem_cons_of_mem _ (hrest ▸ List.mem_singleton_self _)
  have hcontinues : Continues 0 0 e₀ e := .step .refl rfl (by decide)
  have he₀ : e₀.frames = [] ++ Frame.start cutShort 0 :: [] := rfl
  obtain ⟨-, hrefused, above, g, he, -, hlisted⟩ := runs_as_listed he₀ rfl hcontinues
  refine ⟨(hrefused _).mpr ⟨1, hreading⟩, e₀, e, ?_⟩
  cases above with
  | nil =>
    obtain ⟨rfl, -⟩ := List.cons.inj he
    obtain ⟨-, -, hfault⟩ := hlisted rfl
    obtain ⟨e', hstep⟩ := (hfault 1 _ hreading).2 rfl
    exact ⟨e', rfl, hcontinues, hstep⟩
  | cons a above =>
    cases above <;> cases he

end Services

end LedgerNode

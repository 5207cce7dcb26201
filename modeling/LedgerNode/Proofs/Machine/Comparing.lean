import LedgerNode.Proofs.Machine.Course

/-!
# Integers that scripts compare

A script that pushes two constants and compares them gets to know whether their byte views are the
same. An integer is viewed as its shortest spelling, and there is just one of these, so that two
integers compare as equal only if they are, and an integer and a byte string only if this is the
integer's shortest spelling and not another one.

- `Item.key_integer_eq_iff`, `Item.key_integer_eq_bytes_iff`: what an integer is equal to.
- `Instruction.constant?`: the item that an instruction pushes without a look at the engine.
- `Services.step_of_constant`, `Services.step_of_equal`: the two kinds of steps in a comparison.
- `Instruction.Compares`: what two constants and `EQUAL` behind them do, wherever they stand
  (`Instruction.compares_of_constant`).
- `Instruction.integers_compared`: shortest spellings, and integers that are compared by them.
-/

namespace LedgerNode

namespace Item

variable {v w : Int64}

/-- Two integers are equal to scripts only if they are equal. -/
theorem key_integer_eq_iff : (integer v).key = (integer w).key ↔ v = w := by
  constructor
  · intro h
    exact Bytes.ofInteger_inj (Sum.inr.inj h)
  · rintro rfl
    rfl

/-- An integer and a byte string are equal to scripts if this is how the integer is spelled. -/
theorem key_integer_eq_bytes_iff {b : Bytes} :
    (integer v).key = (bytes b).key ↔ b = Bytes.ofInteger v := by
  show (.inr (Bytes.ofInteger v) : Nat ⊕ Bytes) = .inr b ↔ _
  rw [Sum.inr.injEq, eq_comm]

end Item

/-- The item that an instruction pushes whatever the engine is like. -/
def Instruction.constant? : Instruction → Option Item
  | pushData data => some (.bytes data)
  | pushInt value => some (.integer value)
  | _ => none

/-- Where the code ahead starts with an instruction, that is read next, with the rest behind it. -/
theorem Frame.next_of_ahead {f : Frame} {i : Instruction} {code : Bytes}
    (h : f.ahead = i.encode ++ code) (hfits : i.inlineLength ≤ maxInlineLength) :
    f.next = .ok i ∧ (f.skip i.size).ahead = code := by
  constructor
  · rw [next, h]
    exact Instruction.parse_encode_append f.ip hfits code
  · rw [ahead_skip, h, ← Instruction.length_encode, List.drop_left]

namespace Services

variable {services : Services} {nesting : Nat} {e e' : Engine} {f : Frame} {below : List Frame}

/-- A step that has read an instruction succeeds just when the evaluation stack is within its limit
behind the effect of the instruction. -/
theorem step_eq_ok_iff {i : Instruction} {e₁ : Engine} (he : e.frames = f :: below)
    (hnext : f.next = .ok i)
    (heffect : services.effect nesting f.ip i { e with frames := f.skip i.size :: below } =
      some (.ok (), e₁)) :
    services.step nesting e = some (.ok (), e') ↔
      e₁.stack.length ≤ e₁.limits.maxStackSize ∧ e' = e₁ := by
  rw [step_of_next_ok services nesting he hnext, heffect, Option.map_some, Engine.settle_ok]
  by_cases hfull : e₁.limits.maxStackSize < e₁.stack.length
  · rw [if_pos hfull]
    constructor
    · intro h
      cases h
    · rintro ⟨hroom, -⟩
      omega
  · rw [if_neg hfull]
    constructor
    · rintro ⟨⟩
      exact ⟨Nat.le_of_not_lt hfull, rfl⟩
    · rintro ⟨-, rfl⟩
      rfl

/-- A constant is pushed if there is room for it. -/
theorem step_of_constant {i : Instruction} {item : Item} (he : e.frames = f :: below)
    (hnext : f.next = .ok i) (hi : i.constant? = some item) :
    services.step nesting e = some (.ok (), e') ↔ e.stack.length < e.limits.maxStackSize ∧
      e' = { e with frames := f.skip i.size :: below, stack := item :: e.stack } := by
  have heffect (offset : Nat) (e : Engine) : services.effect nesting offset i e =
      some (.ok (), { e with stack := item :: e.stack }) := by
    cases i with
    | pushData data =>
      cases hi
      rw [effect, Engine.execute_pushData]
    | pushInt value =>
      cases hi
      rw [effect, Engine.execute_pushInt]
    | _ => cases hi
  exact step_eq_ok_iff he hnext (heffect _ _)

/-- Two items give way to whether they have one key. -/
theorem step_of_equal {b a : Item} {rest : List Item} (he : e.frames = f :: below)
    (hnext : f.next = .ok .equal) (hstack : e.stack = b :: a :: rest) :
    services.step nesting e = some (.ok (), e') ↔ rest.length < e.limits.maxStackSize ∧
      e' = { e with
        frames := f.skip 1 :: below
        stack := .boolean (decide (a.key = b.key)) :: rest } := by
  have heffect (offset : Nat) (frames : List Frame) :
      services.effect nesting offset .equal { e with frames } =
        some (.ok (), { e with frames, stack := .boolean (decide (a.key = b.key)) :: rest }) := by
    rw [effect, Item.execute_equal_eq (e := { e with frames }) offset hstack]
  exact step_eq_ok_iff he hnext (heffect _ _)

end Services

namespace Instruction

/-- Two instructions and `EQUAL` behind them push a truth value, in three steps that succeed just
when there is room for two items, and leave all else as it was. They may stand anywhere in a script,
and whatever services there are does not matter. -/
def Compares (first second : Instruction) (same : Bool) : Prop :=
  ∀ (services : Services) (nesting : Nat) (e e' : Engine) (f : Frame) (below : List Frame)
    (code : Bytes), e.frames = f :: below →
    f.ahead = first.encode ++ (second.encode ++ (equal.encode ++ code)) →
      (services.Course nesting 3 e e' ↔ e.stack.length + 2 ≤ e.limits.maxStackSize ∧
        e' = { e with
          frames := f.skip (first.size + second.size + 1) :: below
          stack := .boolean same :: e.stack })

/-- Constants that fit their length bytes are compared by their keys. -/
theorem compares_of_constant {first second : Instruction} {a b : Item}
    (hfirst : first.constant? = some a) (hsecond : second.constant? = some b)
    (hfits₁ : first.inlineLength ≤ maxInlineLength)
    (hfits₂ : second.inlineLength ≤ maxInlineLength) :
    Compares first second (decide (a.key = b.key)) := by
  intro services nesting e e' f below code he hahead
  obtain ⟨hnext₁, hahead₁⟩ := Frame.next_of_ahead hahead hfits₁
  obtain ⟨hnext₂, hahead₂⟩ := Frame.next_of_ahead hahead₁ hfits₂
  obtain ⟨hnext₃, -⟩ := Frame.next_of_ahead hahead₂ (Nat.zero_le _)
  have hskip : ((f.skip first.size).skip second.size).skip 1 =
      f.skip (first.size + second.size + 1) := by
    rw [Frame.skip_skip, Frame.skip_skip, Nat.add_assoc]
  rw [← hskip]
  constructor
  · intro h
    obtain ⟨e₁, hstep₁, h⟩ := Services.course_succ_iff.mp h
    obtain ⟨-, rfl⟩ := (Services.step_of_constant he hnext₁ hfirst).mp hstep₁
    obtain ⟨e₂, hstep₂, h⟩ := Services.course_succ_iff.mp h
    obtain ⟨hroom, rfl⟩ := (Services.step_of_constant rfl hnext₂ hsecond).mp hstep₂
    obtain ⟨e₃, hstep₃, h⟩ := Services.course_succ_iff.mp h
    obtain ⟨-, rfl⟩ := (Services.step_of_equal rfl hnext₃ rfl).mp hstep₃
    exact ⟨hroom, Services.course_zero_iff.mp h⟩
  · rintro ⟨hroom, rfl⟩
    have hroom₁ : e.stack.length < e.limits.maxStackSize := by omega
    exact .step ((Services.step_of_constant he hnext₁ hfirst).mpr ⟨hroom₁, rfl⟩)
      (.step ((Services.step_of_constant rfl hnext₂ hsecond).mpr ⟨hroom, rfl⟩)
        (.step ((Services.step_of_equal rfl hnext₃ rfl).mpr ⟨hroom₁, rfl⟩) .refl))

/-- The byte view of an integer spells it in eight bytes at most, and every other byte string that
spells it is longer. So a script that compares two integers gets to know whether they are one, and
one that compares an integer and a byte string whether this is that shortest spelling. -/
theorem integers_compared (v : Int64) :
    ((Bytes.ofInteger v).toIntLE = v.toInt ∧ (Bytes.ofInteger v).length ≤ 8 ∧
      ∀ bs : Bytes, bs.toIntLE = v.toInt → bs ≠ Bytes.ofInteger v →
        (Bytes.ofInteger v).length < bs.length) ∧
    (∀ w, Compares (pushInt v) (pushInt w) (decide (v = w))) ∧
    ∀ b : Bytes, b.length ≤ 255 →
      Compares (pushInt v) (pushData b) (decide (b = Bytes.ofInteger v)) := by
  refine ⟨⟨Bytes.toIntLE_ofInteger v, Bytes.length_ofInteger_le v,
    fun bs => Bytes.length_ofInteger_lt⟩, fun w => ?_, fun b hb => ?_⟩
  · have hcompares : Compares (pushInt v) (pushInt w)
        (decide ((Item.integer v).key = (Item.integer w).key)) :=
      compares_of_constant rfl rfl (Nat.zero_le _) (Nat.zero_le _)
    simpa only [Item.key_integer_eq_iff] using hcompares
  · have hcompares : Compares (pushInt v) (pushData b)
        (decide ((Item.integer v).key = (Item.bytes b).key)) :=
      compares_of_constant rfl rfl (Nat.zero_le _) hb
    simpa only [Item.key_integer_eq_bytes_iff] using hcompares

/-- Minus 129 is spelled by two bytes. A third one that repeats the sign makes another byte string
to scripts. -/
theorem integers_compared_minus_129 :
    Compares (pushInt (-129)) (pushData [0x7f, 0xff]) true ∧
      Compares (pushInt (-129)) (pushData [0x7f, 0xff, 0xff]) false := by
  have hbytes : Bytes.ofInteger (-129) = [0x7f, 0xff] := by decide
  have hcompares := (integers_compared (-129)).2.2
  rw [hbytes] at hcompares
  exact ⟨hcompares _ (by decide), hcompares _ (by decide)⟩

end Instruction

end LedgerNode

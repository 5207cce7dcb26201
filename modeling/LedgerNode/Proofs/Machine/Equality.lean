import LedgerNode.Proofs.Machine.Stepping
import LedgerNode.Proofs.Number.TwosComplement
import LedgerNode.Proofs.Script.Assembling
import Mathlib.Data.List.Basic

/-!
# What scripts take for equal

`EQUAL` compares items of any types: primitive items by their byte views, so that an integer equals
the byte string that spells it, and host objects by identity. Each item has a key for this, and two
items are equal to scripts if their keys are. An assertion looks at the type of its item but comes
to what the key says, since the shortest form of an integer other than zero has a byte other than
zero in it.

- `Item.key`: what `EQUAL` compares (`Item.equalTo_eq`).
- `Item.Alike`: two items for which `EQUAL` pushes true; `Item.alike_iff` says that their keys are
  equal.
- `Item.truth_iff`: an assertion on a primitive item looks for a byte other than zero.
- `Item.alike_sound`: what scripts take for equal is an equivalence that assertions respect.
-/

namespace LedgerNode

/-! ## The bytes of an integer -/

/-- The form of an integer has a byte other than zero, unless the integer is zero. -/
theorem Bytes.exists_ne_zero_ofInteger (value : Int64) :
    (∃ b ∈ ofInteger value, b ≠ 0) ↔ value ≠ 0 := by
  constructor
  · rintro ⟨b, hb, -⟩ rfl
    cases hb
  · intro hne
    by_contra hnone
    have hzero : ∀ b ∈ ofInteger value, b = 0 := by
      intro b hb
      by_contra h
      exact hnone ⟨b, hb, h⟩
    have hvalue : (ofInteger value).toIntLE = 0 := toIntLE_eq_zero hzero
    rw [toIntLE_ofInteger] at hvalue
    exact hne (Int64.toInt_inj.mp hvalue)

namespace Item

/-! ## Keys -/

/-- What items are compared by: the identity of a host object, the byte view of anything else. -/
def key : Item → Nat ⊕ Bytes
  | bytes data => .inr data
  | integer value => .inr (Bytes.ofInteger value)
  | boolean value => .inr (if value then [1] else [])
  | interop object => .inl object.identity

variable {a b : Item}

/-- The key of a primitive item is its byte view. -/
theorem key_eq_inr_iff {data : Bytes} : a.key = .inr data ↔ a.bytes? = some data := by
  rcases a with _ | _ | (_ | _) | _ <;> simp [key, bytes?]

/-- The key of a host object is its identity. -/
theorem key_eq_inl_iff {identity : Nat} :
    a.key = .inl identity ↔
      ∃ object : Container, a = interop object ∧ object.identity = identity := by
  cases a <;> simp [key]

/-- Primitive items are compared by their byte views. -/
theorem equalTo_of_bytes (instruction : String) {x y : Bytes} (ha : a.bytes? = some x)
    (hb : b.bytes? = some y) : a.equalTo instruction b = .ok (decide (x = y)) := by
  unfold equalTo
  split
  · cases ha
  · cases hb
  · unfold toBytes
    rw [ha, hb]
    rfl

/-- Comparing two items always has an outcome, which is whether their keys are equal. -/
theorem equalTo_eq (instruction : String) (a b : Item) :
    a.equalTo instruction b = .ok (decide (a.key = b.key)) := by
  cases ha : a.key with
  | inl identity =>
    obtain ⟨object, rfl, rfl⟩ := key_eq_inl_iff.mp ha
    cases b <;> simp [equalTo, same, key]
  | inr x =>
    cases hb : b.key with
    | inl identity =>
      obtain ⟨object, rfl, rfl⟩ := key_eq_inl_iff.mp hb
      cases a with
      | interop => cases ha
      | bytes | integer | boolean => simp [equalTo, same]
    | inr y =>
      rw [equalTo_of_bytes instruction (key_eq_inr_iff.mp ha) (key_eq_inr_iff.mp hb)]
      simp only [Sum.inr.injEq]

/-- Items of one type with equal contents have equal keys. -/
theorem key_eq_of_same (h : a.same b = true) : a.key = b.key := by
  cases a <;> cases b <;> simp_all [same, key]

/-- Whether an assertion on a primitive item passes can be told from its byte view. -/
theorem truth_iff {data : Bytes} (h : a.bytes? = some data) :
    a.truth = true ↔ ∃ b ∈ data, b ≠ 0 := by
  cases a with
  | bytes data' =>
    cases h
    simp [truth]
  | integer value =>
    cases h
    rw [Bytes.exists_ne_zero_ofInteger]
    simp [truth]
  | boolean value => cases value <;> cases h <;> simp [truth]
  | interop => cases h

/-- Items of equal keys are both true or both false. -/
theorem truth_eq_of_key_eq (h : a.key = b.key) : a.truth = b.truth := by
  cases hb : b.key with
  | inl identity =>
    obtain ⟨object, rfl, -⟩ := key_eq_inl_iff.mp hb
    obtain ⟨object', rfl, -⟩ := key_eq_inl_iff.mp (h.trans hb)
    rfl
  | inr data =>
    rw [Bool.eq_iff_iff, truth_iff (key_eq_inr_iff.mp (h.trans hb)),
      truth_iff (key_eq_inr_iff.mp hb)]

/-! ## Equality -/

/-- Two items are alike to scripts: whatever lies below them, `EQUAL` replaces them by true. -/
def Alike (a b : Item) : Prop :=
  ∀ (offset : Nat) (e : Engine) (rest : List Item), e.stack = b :: a :: rest →
    Engine.execute offset .equal e = (.ok .executed, { e with stack := .boolean true :: rest })

/-- `EQUAL` replaces two items by whether their keys are equal. -/
theorem execute_equal_eq (offset : Nat) {e : Engine} {rest : List Item}
    (he : e.stack = b :: a :: rest) :
    Engine.execute offset .equal e =
      (.ok .executed, { e with stack := .boolean (decide (a.key = b.key)) :: rest }) := by
  rw [Engine.execute_equal, he]
  dsimp only
  rw [equalTo_eq]

theorem alike_iff : Alike a b ↔ a.key = b.key := by
  constructor
  · intro h
    let e : Engine := { stack := [b, a], container := ⟨0, Hash.zero, []⟩ }
    have hpushed := (execute_equal_eq 0 (e := e) rfl).symm.trans (h 0 e [] rfl)
    have hstack := congrArg (fun outcome => outcome.2.stack) hpushed
    simpa [e] using hstack
  · intro h offset e rest he
    rw [execute_equal_eq offset he, decide_eq_true h]

/-- What `EQUAL` takes for equal is an equivalence. `EQUAL` has an outcome for any two items, which
does not depend on what lies below them; two items of one type with equal contents are alike; a host
object is alike to itself alone; and since the byte view of a primitive item has a byte other than
zero just when the item is true, assertions do not tell alike items from each other. -/
theorem alike_sound :
    (∀ a b : Item, ∃ same, ∀ (offset : Nat) (e : Engine) (rest : List Item),
      e.stack = b :: a :: rest → Engine.execute offset .equal e =
        (.ok .executed, { e with stack := .boolean same :: rest })) ∧
    Equivalence Alike ∧
    (∀ a b : Item, a.same b = true → Alike a b) ∧
    (∀ object other : Container,
      Alike (.interop object) (.interop other) → object.identity = other.identity) ∧
    (∀ (object : Container) (a : Item), a.container? = none →
      ¬ Alike (.interop object) a ∧ ¬ Alike a (.interop object)) ∧
    (∀ a : Item, a.container? = none →
      ∃ data, a.bytes? = some data ∧ (a.truth = true ↔ ∃ b ∈ data, b ≠ 0)) ∧
    ∀ a b : Item, Alike a b → ∀ (offset : Nat) (e : Engine) (rest : List Item),
      Engine.execute offset .throwIfNot { e with stack := a :: rest } =
        Engine.execute offset .throwIfNot { e with stack := b :: rest } := by
  refine ⟨?_, ?_, ?_, ?_, ?_, ?_, ?_⟩
  · intro a b
    exact ⟨decide (a.key = b.key), fun offset e rest he => execute_equal_eq offset he⟩
  · refine ⟨fun a => alike_iff.mpr rfl, fun h => ?_, fun hab hbc => ?_⟩
    · exact alike_iff.mpr (alike_iff.mp h).symm
    · exact alike_iff.mpr ((alike_iff.mp hab).trans (alike_iff.mp hbc))
  · exact fun a b h => alike_iff.mpr (key_eq_of_same h)
  · exact fun object other h => Sum.inl.inj (alike_iff.mp h)
  · intro object a ha
    have hne : (interop object).key ≠ a.key := by
      intro h
      obtain ⟨other, rfl, -⟩ := key_eq_inl_iff.mp h.symm
      cases ha
    exact ⟨fun h => hne (alike_iff.mp h), fun h => hne (alike_iff.mp h).symm⟩
  · intro a ha
    cases hkey : a.key with
    | inl identity =>
      obtain ⟨object, rfl, -⟩ := key_eq_inl_iff.mp hkey
      cases ha
    | inr data => exact ⟨data, key_eq_inr_iff.mp hkey, truth_iff (key_eq_inr_iff.mp hkey)⟩
  · intro a b h offset e rest
    rw [Engine.execute_throwIfNot, Engine.execute_throwIfNot]
    dsimp only
    rw [truth_eq_of_key_eq (alike_iff.mp h)]

end Item

end LedgerNode

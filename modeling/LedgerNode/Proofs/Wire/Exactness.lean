import LedgerNode.Proofs.Wire.Layout

/-!
# Reading accepts exactly what writing produces

A reader that takes one value off the front of its input must take what the writer put there, and
nothing else: then reading undoes writing, and no value has a second form.

- `Codec.Exact c fits`: the reader of `c` accepts the encodings of the values that fit, each
  followed by anything, and no other input.
- One lemma for each way to build a codec, with `exact` in its name.
- `Format.exact_codec`: every codec of the format is exact for the values within limits.
- `decode_eq_ok_iff`: the same of `Codec.decode`. `Codec.Exact.ofBytes_eq_ok_iff` is about reading
  all of an input.
-/

namespace LedgerNode.Wire

open LedgerNode

namespace Reader

variable {α β : Type}

/-- Of two readers in a row the second goes on with what the first leaves. -/
theorem bind_apply (x : Reader α) (f : α → Reader β) (input : Bytes) :
    (x >>= f) input = match x input with
      | .ok (a, middle) => f a middle
      | .error e => .error e := by
  show ((x input) >>= fun p => f p.1 p.2) = _
  cases x input <;> rfl

/-- They succeed when both do. -/
theorem bind_eq_ok_iff {x : Reader α} {f : α → Reader β} {input rest : Bytes} {b : β} :
    (x >>= f) input = .ok (b, rest) ↔
      ∃ a middle, x input = .ok (a, middle) ∧ f a middle = .ok (b, rest) := by
  rw [bind_apply]
  cases x input with
  | error e => simp
  | ok p =>
    obtain ⟨a, middle⟩ := p
    constructor
    · intro h
      exact ⟨a, middle, rfl, h⟩
    · rintro ⟨_, _, ⟨⟩, h⟩
      exact h

@[simp] theorem pure_eq_ok_iff {a b : α} {input rest : Bytes} :
    (pure a : Reader α) input = .ok (b, rest) ↔ a = b ∧ input = rest := by
  show Except.ok (a, input) = .ok (b, rest) ↔ _
  rw [Except.ok.injEq, Prod.mk.injEq]

@[simp] theorem throw_ne_ok {e : DecodeError} {input : Bytes} {p : α × Bytes} :
    (throw e : Reader α) input ≠ .ok p :=
  fun h => nomatch h

/-- Taking bytes succeeds exactly when they stand at the front. -/
theorem take_eq_ok_iff {n : Nat} {input front rest : Bytes} :
    take n input = .ok (front, rest) ↔ front.length = n ∧ input = front ++ rest := by
  unfold take
  rw [List.splitAt_eq]
  dsimp only
  constructor
  · intro h
    split at h
    · cases h
      exact ⟨‹_›, (List.take_append_drop n input).symm⟩
    · cases h
  · rintro ⟨rfl, rfl⟩
    rw [List.take_left, List.drop_left, if_pos rfl]

theorem require_eq_ok_iff {o : Option α} {a : α} {input rest : Bytes} :
    require o input = .ok (a, rest) ↔ o = some a ∧ input = rest := by
  cases o with
  | none => simp [require]
  | some b => simp [require]

end Reader

namespace Codec

variable {α β : Type} {c : Codec α} {d : Codec β} {fits : α → Prop} {fits' : β → Prop}

/-- The reader accepts the encodings of the values that fit, followed by anything, and nothing else.
-/
structure Exact (c : Codec α) (fits : α → Prop) : Prop where
  writes : c.Writes c.encode
  read_eq_ok_iff : ∀ {input : Bytes} {v : α} {rest : Bytes},
    c.read input = .ok (v, rest) ↔ input = c.encode v ++ rest ∧ fits v

theorem Exact.read_encode (h : c.Exact fits) {v : α} (hv : fits v) (rest : Bytes) :
    c.read (c.encode v ++ rest) = .ok (v, rest) :=
  h.read_eq_ok_iff.mpr ⟨rfl, hv⟩

/-- A codec that is exact for some values is exact for the same values told otherwise. -/
theorem Exact.congr {fits₂ : α → Prop} (h : c.Exact fits) (hfits : ∀ v, fits v ↔ fits₂ v) :
    c.Exact fits₂ where
  writes := h.writes
  read_eq_ok_iff := by
    intro input v rest
    rw [h.read_eq_ok_iff, hfits]

/-- Reading all of an input accepts the encodings of the values that fit, and nothing else. -/
theorem Exact.ofBytes_eq_ok_iff (h : c.Exact fits) {input : Bytes} {v : α} :
    c.ofBytes input = .ok v ↔ input = c.encode v ∧ fits v := by
  have hread : c.ofBytes input = .ok v ↔ c.decode input = .ok (v, []) := by
    unfold ofBytes
    rcases c.decode input with e | ⟨value, _ | ⟨b, rest⟩⟩ <;> simp
  refine hread.trans (h.read_eq_ok_iff.trans ?_)
  rw [List.append_nil]

/-! ## Numbers and tags -/

/-- Numbers are exact when the type stands for all numbers of `width` bytes. -/
theorem exact_number {width : Nat} {toNat : α → Nat} {ofNat : Nat → α}
    (toNat_lt : ∀ v, toNat v < Nat.pow 256 width) (ofNat_toNat : ∀ v, ofNat (toNat v) = v)
    (toNat_ofNat : ∀ n, n < Nat.pow 256 width → toNat (ofNat n) = n) :
    (number width toNat ofNat).Exact fun _ => True where
  writes := (writes_number width toNat ofNat).writes_encode
  read_eq_ok_iff := by
    intro input v rest
    rw [(writes_number width toNat ofNat).encode_eq, and_true]
    show ((Reader.take width >>= fun bs => pure (ofNat bs.toNatLE)) : Reader α) input = _ ↔ _
    rw [Reader.bind_eq_ok_iff]
    constructor
    · rintro ⟨bs, middle, htake, hpure⟩
      obtain ⟨rfl, rfl⟩ := Reader.take_eq_ok_iff.mp htake
      obtain ⟨rfl, rfl⟩ := Reader.pure_eq_ok_iff.mp hpure
      rw [toNat_ofNat _ (Bytes.toNatLE_lt bs), Bytes.ofNatLE_toNatLE]
    · rintro rfl
      refine ⟨Bytes.ofNatLE width (toNat v), rest, ?_, ?_⟩
      · exact Reader.take_eq_ok_iff.mpr ⟨Bytes.length_ofNatLE _ _, rfl⟩
      · rw [Bytes.toNatLE_ofNatLE, Nat.mod_eq_of_lt (toNat_lt v), ofNat_toNat]
        rfl

theorem exact_uint8 : uint8.Exact fun _ => True :=
  exact_number UInt8.toNat_lt (fun _ => UInt8.ofNat_toNat)
    (fun _ h => UInt8.toNat_ofNat_of_lt' h)

theorem exact_uint16 : uint16.Exact fun _ => True :=
  exact_number UInt16.toNat_lt (fun _ => UInt16.ofNat_toNat)
    (fun _ h => UInt16.toNat_ofNat_of_lt' h)

theorem exact_uint32 : uint32.Exact fun _ => True :=
  exact_number UInt32.toNat_lt (fun _ => UInt32.ofNat_toNat)
    (fun _ h => UInt32.toNat_ofNat_of_lt' h)

theorem exact_uint64 : uint64.Exact fun _ => True :=
  exact_number UInt64.toNat_lt (fun _ => UInt64.ofNat_toNat)
    (fun _ h => UInt64.toNat_ofNat_of_lt' h)

theorem exact_int64 : int64.Exact fun _ => True :=
  exact_number (fun v => v.toUInt64.toNat_lt)
    (fun v => by rw [UInt64.ofNat_toNat, Int64.toInt64_toUInt64])
    (fun n h => by rw [UInt64.toUInt64_toInt64, UInt64.toNat_ofNat_of_lt' h])

/-- Tags are exact when each value has one code and each code stands for one value at most. -/
theorem exact_tagged {code : α → UInt8} {ofCode? : UInt8 → Option α}
    (ofCode?_eq_some_iff : ∀ b v, ofCode? b = some v ↔ b = code v) :
    (tagged code ofCode?).Exact fun _ => True where
  writes := (writes_tagged code ofCode?).writes_encode
  read_eq_ok_iff := by
    intro input v rest
    rw [(writes_tagged code ofCode?).encode_eq, and_true]
    show ((uint8.read >>= fun b => Reader.require (ofCode? b)) : Reader α) input = _ ↔ _
    simp only [Reader.bind_eq_ok_iff, Reader.require_eq_ok_iff, exact_uint8.read_eq_ok_iff,
      writes_uint8.encode_eq, ofCode?_eq_some_iff]
    constructor
    · rintro ⟨_, _, ⟨hinput, -⟩, rfl, rfl⟩
      exact hinput
    · rintro rfl
      exact ⟨code v, rest, ⟨rfl, trivial⟩, rfl, rfl⟩

theorem exact_bool : bool.Exact fun _ => True := by
  refine exact_tagged fun b v => ?_
  cases v <;> grind

/-! ## Sequences -/

theorem exact_length : length.Exact (· ≤ maxLength) where
  writes := writes_length.writes_encode
  read_eq_ok_iff := by
    intro input n rest
    rw [writes_length.encode_eq]
    show ((Reader.take 8 >>= fun bs =>
      if bs.toNatLE ≤ maxLength then pure bs.toNatLE else throw .lengthOverflow) : Reader Nat) input
        = _ ↔ _
    rw [Reader.bind_eq_ok_iff]
    constructor
    · rintro ⟨bs, middle, htake, hcheck⟩
      obtain ⟨hlength, rfl⟩ := Reader.take_eq_ok_iff.mp htake
      split at hcheck
      · obtain ⟨rfl, rfl⟩ := Reader.pure_eq_ok_iff.mp hcheck
        rw [← hlength, Bytes.ofNatLE_toNatLE]
        exact ⟨rfl, ‹_›⟩
      · exact absurd hcheck Reader.throw_ne_ok
    · rintro ⟨rfl, hn⟩
      refine ⟨Bytes.ofNatLE 8 n, rest, ?_, ?_⟩
      · exact Reader.take_eq_ok_iff.mpr ⟨Bytes.length_ofNatLE _ _, rfl⟩
      · -- the limit lies far below the numbers that eight bytes hold
        have hlt : n < Nat.pow 256 8 := Nat.lt_of_le_of_lt hn (by decide)
        rw [Bytes.toNatLE_ofNatLE, Nat.mod_eq_of_lt hlt, if_pos hn]
        rfl

theorem exact_bytes : bytes.Exact fun bs => bs.length ≤ maxLength where
  writes := writes_bytes.writes_encode
  read_eq_ok_iff := by
    intro input bs rest
    show ((length.read >>= Reader.take) : Reader Bytes) input = _ ↔ _
    simp only [Reader.bind_eq_ok_iff, exact_length.read_eq_ok_iff, Reader.take_eq_ok_iff,
      writes_length.encode_eq, writes_bytes.encode_eq, List.append_assoc]
    constructor
    · rintro ⟨_, _, ⟨rfl, hle⟩, rfl, rfl⟩
      exact ⟨rfl, hle⟩
    · rintro ⟨rfl, hle⟩
      exact ⟨bs.length, bs ++ rest, ⟨rfl, hle⟩, rfl, rfl⟩

theorem exact_text : text.Exact fun t => (Bytes.ofText t).length ≤ maxLength where
  writes := writes_text.writes_encode
  read_eq_ok_iff := by
    intro input t rest
    show ((bytes.read >>= fun bs => Reader.require bs.text?) : Reader String) input = _ ↔ _
    simp only [Reader.bind_eq_ok_iff, exact_bytes.read_eq_ok_iff, Reader.require_eq_ok_iff,
      Bytes.text?_eq_some_iff, writes_text.encode_eq]
    constructor
    · rintro ⟨_, _, ⟨rfl, hle⟩, rfl, rfl⟩
      exact ⟨rfl, hle⟩
    · rintro ⟨rfl, hle⟩
      exact ⟨_, rest, ⟨rfl, hle⟩, rfl, rfl⟩

theorem exact_hash : hash.Exact fun _ => True where
  writes := writes_hash.writes_encode
  read_eq_ok_iff := by
    intro input h rest
    show ((Reader.take Hash.size >>= fun bs => Reader.require (Hash.ofBytes? bs)) : Reader Hash)
      input = _ ↔ _
    simp only [Reader.bind_eq_ok_iff, Reader.take_eq_ok_iff, Reader.require_eq_ok_iff,
      Hash.ofBytes?_eq_some_iff, writes_hash.encode_eq, and_true]
    constructor
    · rintro ⟨_, _, ⟨-, rfl⟩, rfl, rfl⟩
      rfl
    · rintro rfl
      exact ⟨h.bytes, rest, ⟨h.length_bytes, rfl⟩, rfl, rfl⟩

/-- Reading `n` values one after another accepts exactly `n` encodings in a row. -/
theorem Exact.mapM_read (h : c.Exact fits) (n : Nat) {input : Bytes} {vs : List α} {rest : Bytes} :
    ((List.replicate n ()).mapM fun _ => c.read : Reader (List α)) input = .ok (vs, rest) ↔
      vs.length = n ∧ input = vs.flatMap c.encode ++ rest ∧ ∀ v ∈ vs, fits v := by
  -- each value that is read leaves other input for those behind it
  induction n generalizing input vs rest with
  | zero =>
    rw [List.replicate_zero, List.mapM_nil, Reader.pure_eq_ok_iff, List.length_eq_zero_iff]
    constructor
    · rintro ⟨rfl, rfl⟩
      simp
    · rintro ⟨rfl, rfl, -⟩
      exact ⟨rfl, rfl⟩
  | succ n ih =>
    rw [List.replicate_succ, List.mapM_cons]
    simp only [Reader.bind_eq_ok_iff, Reader.pure_eq_ok_iff, h.read_eq_ok_iff, ih]
    constructor
    · rintro ⟨v, _, ⟨rfl, hv⟩, vs, _, ⟨rfl, rfl, hvs⟩, rfl, rfl⟩
      exact ⟨rfl, by simp, by simpa using ⟨hv, hvs⟩⟩
    · rintro ⟨hlength, rfl, hall⟩
      obtain ⟨v, vs, rfl⟩ := List.exists_cons_of_length_eq_add_one hlength
      rw [List.forall_mem_cons] at hall
      exact ⟨v, vs.flatMap c.encode ++ rest, ⟨by simp, hall.1⟩, vs, rest,
        ⟨Nat.succ.inj hlength, rfl, hall.2⟩, rfl, rfl⟩

theorem Exact.list (h : c.Exact fits) :
    c.list.Exact fun vs => vs.length ≤ maxLength ∧ ∀ v ∈ vs, fits v where
  writes := h.writes.list.writes_encode
  read_eq_ok_iff := by
    intro input vs rest
    show ((length.read >>= fun n => (List.replicate n ()).mapM fun _ => c.read) :
      Reader (List α)) input = _ ↔ _
    simp only [Reader.bind_eq_ok_iff, exact_length.read_eq_ok_iff, h.mapM_read,
      writes_length.encode_eq, h.writes.list.encode_eq, List.append_assoc]
    constructor
    · rintro ⟨_, _, ⟨rfl, hle⟩, rfl, rfl, hall⟩
      exact ⟨rfl, hle, hall⟩
    · rintro ⟨rfl, hle, hall⟩
      exact ⟨_, _, ⟨rfl, hle⟩, rfl, rfl, hall⟩

theorem Exact.optional (h : c.Exact fits) : c.optional.Exact fun v => ∀ w ∈ v, fits w where
  writes := h.writes.optional.writes_encode
  read_eq_ok_iff := by
    intro input v rest
    refine Reader.bind_eq_ok_iff.trans ?_
    simp only [exact_uint8.read_eq_ok_iff, writes_uint8.encode_eq, h.writes.optional.encode_eq,
      and_true]
    constructor
    · rintro ⟨b, middle, rfl, hread⟩
      split at hread
      · obtain ⟨rfl, rfl⟩ := Reader.pure_eq_ok_iff.mp hread
        exact ⟨rfl, by simp⟩
      · obtain ⟨w, _, hw, hpure⟩ := Reader.bind_eq_ok_iff.mp hread
        obtain ⟨rfl, rfl⟩ := Reader.pure_eq_ok_iff.mp hpure
        obtain ⟨rfl, hfits⟩ := h.read_eq_ok_iff.mp hw
        exact ⟨rfl, by simpa using hfits⟩
      · -- any other tag is turned away
        exact absurd hread Reader.throw_ne_ok
    · rintro ⟨rfl, hfits⟩
      cases v with
      | none => exact ⟨0, rest, rfl, rfl⟩
      | some w =>
        refine ⟨1, c.encode w ++ rest, rfl, Reader.bind_eq_ok_iff.mpr ⟨w, rest, ?_, rfl⟩⟩
        exact h.read_encode (hfits w rfl) rest

/-! ## Composition -/

theorem Exact.pair (hc : c.Exact fits) (hd : d.Exact fits') :
    (c.pair d).Exact fun v => fits v.1 ∧ fits' v.2 where
  writes := (hc.writes.pair hd.writes).writes_encode
  read_eq_ok_iff := by
    intro input v rest
    show ((c.read >>= fun a => d.read >>= fun b => pure (a, b)) : Reader (α × β)) input = _ ↔ _
    simp only [Reader.bind_eq_ok_iff, Reader.pure_eq_ok_iff, hc.read_eq_ok_iff, hd.read_eq_ok_iff,
      (hc.writes.pair hd.writes).encode_eq, List.append_assoc]
    constructor
    · rintro ⟨a, _, ⟨rfl, ha⟩, b, _, ⟨rfl, hb⟩, rfl, rfl⟩
      exact ⟨rfl, ha, hb⟩
    · rintro ⟨rfl, ha, hb⟩
      exact ⟨v.1, _, ⟨rfl, ha⟩, v.2, _, ⟨rfl, hb⟩, rfl, rfl⟩

/-- Standing for other values one to one keeps a codec exact. -/
theorem Exact.map (h : c.Exact fits) {toPlain : β → α} {ofPlain : α → β}
    (ofPlain_toPlain : ∀ b, ofPlain (toPlain b) = b)
    (toPlain_ofPlain : ∀ a, toPlain (ofPlain a) = a) :
    (c.map toPlain ofPlain).Exact fun b => fits (toPlain b) where
  writes := (h.writes.map toPlain ofPlain).writes_encode
  read_eq_ok_iff := by
    intro input b rest
    show ((c.read >>= fun a => pure (ofPlain a)) : Reader β) input = _ ↔ _
    simp only [Reader.bind_eq_ok_iff, Reader.pure_eq_ok_iff, h.read_eq_ok_iff,
      (h.writes.map toPlain ofPlain).encode_eq]
    constructor
    · rintro ⟨a, _, hread, rfl, rfl⟩
      rw [toPlain_ofPlain]
      exact hread
    · rintro hread
      exact ⟨toPlain b, rest, hread, ofPlain_toPlain b, rfl⟩

end Codec

/-! ## Transactions -/

open Codec

theorem exact_kind : Transaction.Kind.codec.Exact fun _ => True := by
  refine exact_tagged fun b k => ?_
  constructor
  · intro h
    unfold Transaction.Kind.ofCode? at h
    split at h <;> cases h <;> rfl
  · rintro rfl
    exact Transaction.Kind.ofCode?_code k

theorem exact_usage : Transaction.Usage.codec.Exact fun _ => True := by
  refine exact_tagged fun b u => ?_
  constructor
  · intro h
    unfold Transaction.Usage.ofCode? at h
    split at h <;> cases h
    rfl
  · rintro rfl
    exact Transaction.Usage.ofCode?_code u

theorem exact_attribute :
    Transaction.Attribute.codec.Exact fun a => a.data.length ≤ maxLength :=
  ((exact_usage.pair exact_bytes).map (fun _ => rfl) (fun _ => rfl)).congr
    fun _ => ⟨And.right, And.intro trivial⟩

theorem exact_payload : Transaction.Payload.codec.Exact fun p =>
    (Bytes.ofText p.recordType).length ≤ maxLength ∧ p.data.length ≤ maxLength :=
  (exact_text.pair exact_bytes).map (fun _ => rfl) (fun _ => rfl)

theorem exact_transaction : Transaction.codec.Exact (Format.transaction.InLimits) :=
  ((exact_kind.pair (exact_attribute.list.pair exact_payload.optional)).map
    (fun _ => rfl) (fun _ => rfl)).congr fun tx => by
      simp only [Format.InLimits, true_and, and_assoc]

/-! ## All types -/

/-- Every codec of the format is exact for the values within limits. -/
theorem Format.exact_codec : (f : Format) → f.codec.Exact f.InLimits
  | uint8 => exact_uint8
  | uint16 => exact_uint16
  | uint32 => exact_uint32
  | uint64 => exact_uint64
  | int64 => exact_int64
  | size => exact_uint64
  | bool => exact_bool
  | text => exact_text
  | bytes => exact_bytes
  | hash => exact_hash
  | transactionKind => exact_kind
  | transactionAttribute => exact_attribute
  | transactionPayload => exact_payload
  | transaction => exact_transaction
  | list item => item.exact_codec.list
  | optional item => item.exact_codec.optional

/-- Decoding succeeds with a value and a rest exactly when the input is the value's encoding with
the rest behind it and no length within the value exceeds the limit. -/
theorem decode_eq_ok_iff (f : Format) (data : Bytes) (v : f.Value) (rest : Bytes) :
    f.codec.decode data = .ok (v, rest) ↔ data = f.codec.encode v ++ rest ∧ f.InLimits v :=
  f.exact_codec.read_eq_ok_iff

end LedgerNode.Wire

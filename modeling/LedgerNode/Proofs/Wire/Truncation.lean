import LedgerNode.Proofs.Wire.Exactness

/-!
# Input that is cut off or goes on

Input that ends within a value is told from input that spells no value. A reader checks what it has
taken only once all of it is there, so that the front of an encoding has nothing wrong with it but
its end: wherever the cut falls, in a length, a tag, a text or an item of a list, the reader runs
out of input before a check can fail. Input that goes on behind a value is refused for that.

- `Reader.RunsOut x front`: on whatever is cut off `front`, the reader misses the rest.
- `Reader.RunsOut.bind`, `Reader.RunsOut.followed`: sequences of readers. The second one starts only
  if the cut falls behind all that the first one takes.
- `Codec.NeedsAll c fits`: the reader of `c` runs out on encodings of values that fit.
- `needsAll_number`, `NeedsAll.list` and the like: one lemma for each way to build a codec.
- `Format.needsAll_codec`: the readers of the format all do.
- `Format.ofBytes_cut_or_extended`: what reading all of an input says of an encoding of the wrong
  length.
-/

namespace LedgerNode.Wire

namespace Reader

variable {α β : Type} {x : Reader α} {f : α → Reader β}

/-- Taking more bytes than there are finds the end of the input. -/
theorem take_of_length_lt {n : Nat} {input : Bytes} (h : input.length < n) :
    take n input = .error .unexpectedEnd := by
  unfold take
  rw [List.splitAt_eq]
  have hshort : (input.take n).length ≠ n := by
    rw [List.length_take]
    omega
  exact if_neg hshort

/-- On what is left of `front` when its end is cut off, the reader finds the end of the input. -/
def RunsOut (x : Reader α) (front : Bytes) : Prop :=
  ∀ input missing : Bytes, missing ≠ [] → front = input ++ missing →
    x input = .error .unexpectedEnd

theorem runsOut_take {n : Nat} {front : Bytes} (h : front.length ≤ n) :
    (take n).RunsOut front := by
  intro input missing hmissing hfront
  refine take_of_length_lt ?_
  have hpos : 0 < missing.length := List.length_pos_iff.mpr hmissing
  rw [hfront, List.length_append] at h
  omega

/-- Whatever is to follow a reader that runs out is never started. -/
theorem RunsOut.followed {front : Bytes} (h : x.RunsOut front) (f : α → Reader β) :
    (x >>= f).RunsOut front :=
  fun input missing hmissing hfront => by rw [bind_apply, h input missing hmissing hfront]

/-- Two readers run out one behind the other, if the first takes its part whenever that is there. -/
theorem RunsOut.bind {front back : Bytes} {a : α} (hx : x.RunsOut front)
    (htakes : ∀ rest, x (front ++ rest) = .ok (a, rest)) (hf : (f a).RunsOut back) :
    (x >>= f).RunsOut (front ++ back) := by
  intro input missing hmissing heq
  obtain ⟨middle, rfl, hback⟩ | ⟨cut, hfront, rfl⟩ := List.append_eq_append_iff.mp heq
  · -- the first part is all there, and the cut lies in the second one
    rw [bind_apply, htakes middle]
    exact hf middle missing hmissing hback
  · by_cases hcut : cut = []
    · -- the cut lies just between the two
      subst hcut
      rw [List.append_nil] at hfront
      subst hfront
      have hwhole : x front = .ok (a, []) := by simpa using htakes []
      rw [bind_apply, hwhole]
      exact hf [] back hmissing rfl
    · rw [bind_apply, hx input cut hcut hfront]

end Reader

namespace Codec

variable {α β : Type} {c : Codec α} {d : Codec β} {fits : α → Prop} {fits' : β → Prop}

/-- The reader takes back the values that fit, and misses whatever their encodings are cut short by.
-/
structure NeedsAll (c : Codec α) (fits : α → Prop) : Prop where
  exact : c.Exact fits
  runsOut : ∀ v, fits v → c.read.RunsOut (c.encode v)

theorem NeedsAll.congr {fits₂ : α → Prop} (h : c.NeedsAll fits) (hfits : ∀ v, fits v ↔ fits₂ v) :
    c.NeedsAll fits₂ where
  exact := h.exact.congr hfits
  runsOut v hv := h.runsOut v ((hfits v).mpr hv)

/-! ## Numbers and tags -/

theorem needsAll_number {width : Nat} {toNat : α → Nat} {ofNat : Nat → α}
    (h : (number width toNat ofNat).Exact fits) : (number width toNat ofNat).NeedsAll fits where
  exact := h
  runsOut v _ := by
    rw [(writes_number width toNat ofNat).encode_eq]
    exact (Reader.runsOut_take (Nat.le_of_eq (Bytes.length_ofNatLE _ _))).followed _

theorem needsAll_tagged {code : α → UInt8} {ofCode? : UInt8 → Option α}
    (h : (tagged code ofCode?).Exact fits) : (tagged code ofCode?).NeedsAll fits where
  exact := h
  runsOut v _ := by
    rw [(writes_tagged code ofCode?).encode_eq, ← writes_uint8.encode_eq]
    exact ((needsAll_number exact_uint8).runsOut (code v) trivial).followed _

/-! ## Sequences -/

/-- A length is checked against the limit only when its eight bytes are there. -/
theorem needsAll_length : length.NeedsAll (· ≤ maxLength) where
  exact := exact_length
  runsOut n _ := by
    rw [writes_length.encode_eq]
    exact (Reader.runsOut_take (Nat.le_of_eq (Bytes.length_ofNatLE _ _))).followed _

theorem needsAll_bytes : bytes.NeedsAll fun bs => bs.length ≤ maxLength where
  exact := exact_bytes
  runsOut bs hbs := by
    rw [writes_bytes.encode_eq, ← writes_length.encode_eq]
    exact (needsAll_length.runsOut bs.length hbs).bind (exact_length.read_encode hbs)
      (Reader.runsOut_take (Nat.le_refl _))

/-- A text that is cut within a character is cut short before it is no text. -/
theorem needsAll_text : text.NeedsAll fun t => (Bytes.ofText t).length ≤ maxLength where
  exact := exact_text
  runsOut t ht := by
    rw [writes_text.encode_eq]
    exact (needsAll_bytes.runsOut (Bytes.ofText t) ht).followed _

theorem needsAll_hash : hash.NeedsAll fun _ => True where
  exact := exact_hash
  runsOut h _ := by
    rw [writes_hash.encode_eq]
    exact (Reader.runsOut_take (Nat.le_of_eq h.length_bytes)).followed _

/-- Reading values one after another runs out in the one that the cut falls in. -/
theorem NeedsAll.mapM_read (h : c.NeedsAll fits) (vs : List α) (hvs : ∀ v ∈ vs, fits v) :
    ((List.replicate vs.length ()).mapM fun _ => c.read : Reader (List α)).RunsOut
      (vs.flatMap c.encode) := by
  -- the first value is either cut itself or taken off, and then those behind it are
  induction vs with
  | nil =>
    intro input missing hmissing hfront
    exact absurd (List.append_eq_nil_iff.mp hfront.symm).2 hmissing
  | cons v vs ih =>
    rw [List.forall_mem_cons] at hvs
    rw [List.length_cons, List.replicate_succ, List.mapM_cons, List.flatMap_cons]
    exact (h.runsOut v hvs.1).bind (h.exact.read_encode hvs.1) ((ih hvs.2).followed _)

theorem NeedsAll.list (h : c.NeedsAll fits) :
    c.list.NeedsAll fun vs => vs.length ≤ maxLength ∧ ∀ v ∈ vs, fits v where
  exact := h.exact.list
  runsOut vs hvs := by
    rw [h.exact.writes.list.encode_eq, ← writes_length.encode_eq]
    exact (needsAll_length.runsOut vs.length hvs.1).bind (exact_length.read_encode hvs.1)
      (h.mapM_read vs hvs.2)

theorem NeedsAll.optional (h : c.NeedsAll fits) :
    c.optional.NeedsAll fun v => ∀ w ∈ v, fits w where
  exact := h.exact.optional
  runsOut v hv := by
    have htag (b : UInt8) : uint8.read.RunsOut (uint8.encode b) :=
      (needsAll_number exact_uint8).runsOut b trivial
    rw [h.exact.writes.optional.encode_eq]
    cases v with
    | none =>
      show c.optional.read.RunsOut [0]
      rw [← writes_uint8.encode_eq 0]
      exact (htag 0).followed _
    | some w =>
      show c.optional.read.RunsOut ([1] ++ c.encode w)
      rw [← writes_uint8.encode_eq 1]
      exact (htag 1).bind (exact_uint8.read_encode trivial)
        ((h.runsOut w (hv w rfl)).followed _)

/-! ## Composition -/

theorem NeedsAll.pair (hc : c.NeedsAll fits) (hd : d.NeedsAll fits') :
    (c.pair d).NeedsAll fun v => fits v.1 ∧ fits' v.2 where
  exact := hc.exact.pair hd.exact
  runsOut v hv := by
    rw [(hc.exact.writes.pair hd.exact.writes).encode_eq]
    exact (hc.runsOut v.1 hv.1).bind (hc.exact.read_encode hv.1)
      ((hd.runsOut v.2 hv.2).followed _)

theorem NeedsAll.map (h : c.NeedsAll fits) {toPlain : β → α} {ofPlain : α → β}
    (ofPlain_toPlain : ∀ b, ofPlain (toPlain b) = b)
    (toPlain_ofPlain : ∀ a, toPlain (ofPlain a) = a) :
    (c.map toPlain ofPlain).NeedsAll fun b => fits (toPlain b) where
  exact := h.exact.map ofPlain_toPlain toPlain_ofPlain
  runsOut b hb := by
    rw [(h.exact.writes.map toPlain ofPlain).encode_eq]
    exact (h.runsOut (toPlain b) hb).followed _

/-! ## Reading all of an input -/

/-- An encoding that is cut short lacks its end, and one that goes on is refused. -/
theorem NeedsAll.ofBytes_eq_error (h : c.NeedsAll fits) {v : α} (hv : fits v) :
    (∀ input, input <+: c.encode v → input ≠ c.encode v →
      c.ofBytes input = .error .unexpectedEnd) ∧
      ∀ rest, rest ≠ [] → c.ofBytes (c.encode v ++ rest) = .error .invalidValue := by
  constructor
  · rintro input ⟨missing, hmissing⟩ hne
    have hsome : missing ≠ [] := by
      rintro rfl
      exact hne (by rw [← hmissing, List.append_nil])
    have hread : c.decode input = .error .unexpectedEnd :=
      h.runsOut v hv input missing hsome hmissing.symm
    unfold ofBytes
    rw [hread]
  · intro rest hrest
    have hread : c.decode (c.encode v ++ rest) = .ok (v, rest) := h.exact.read_encode hv rest
    unfold ofBytes
    rw [hread]
    cases rest with
    | nil => exact absurd rfl hrest
    | cons b rest => rfl

end Codec

/-! ## Transactions -/

open Codec

theorem needsAll_attribute :
    Transaction.Attribute.codec.NeedsAll fun a => a.data.length ≤ maxLength :=
  (((needsAll_tagged exact_usage).pair needsAll_bytes).map (fun _ => rfl) (fun _ => rfl)).congr
    fun _ => ⟨And.right, And.intro trivial⟩

theorem needsAll_payload : Transaction.Payload.codec.NeedsAll fun p =>
    (Bytes.ofText p.recordType).length ≤ maxLength ∧ p.data.length ≤ maxLength :=
  (needsAll_text.pair needsAll_bytes).map (fun _ => rfl) (fun _ => rfl)

theorem needsAll_transaction : Transaction.codec.NeedsAll Format.transaction.InLimits :=
  (((needsAll_tagged exact_kind).pair (needsAll_attribute.list.pair needsAll_payload.optional)).map
    (fun _ => rfl) (fun _ => rfl)).congr fun tx => by
      simp only [Format.InLimits, true_and, and_assoc]

/-! ## All types -/

namespace Format

/-- Every reader of the format needs all of an encoding within limits. -/
theorem needsAll_codec : (f : Format) → f.codec.NeedsAll f.InLimits
  | uint8 => needsAll_number exact_uint8
  | uint16 => needsAll_number exact_uint16
  | uint32 => needsAll_number exact_uint32
  | uint64 => needsAll_number exact_uint64
  | int64 => needsAll_number exact_int64
  | size => needsAll_number exact_uint64
  | bool => needsAll_tagged exact_bool
  | text => needsAll_text
  | bytes => needsAll_bytes
  | hash => needsAll_hash
  | transactionKind => needsAll_tagged exact_kind
  | transactionAttribute => needsAll_attribute
  | transactionPayload => needsAll_payload
  | transaction => needsAll_transaction
  | list item => item.needsAll_codec.list
  | optional item => item.needsAll_codec.optional

/-- Whatever is cut off the encoding of a value within limits is missed, and whatever is put behind
it is too much. -/
theorem ofBytes_cut_or_extended (f : Format) (v : f.Value) (hv : f.InLimits v) :
    (∀ input, input <+: f.codec.encode v → input ≠ f.codec.encode v →
      f.codec.ofBytes input = .error .unexpectedEnd) ∧
      ∀ rest, rest ≠ [] → f.codec.ofBytes (f.codec.encode v ++ rest) = .error .invalidValue :=
  f.needsAll_codec.ofBytes_eq_error hv

/-- A text in a list that is cut within a character lacks its end, and a byte behind the list is too
much. -/
theorem ofBytes_cut_or_extended_character :
    (list (optional text)).InLimits [some "é", none] ∧
      (list (optional text)).codec.ofBytes
        [2, 0, 0, 0, 0, 0, 0, 0, 1, 2, 0, 0, 0, 0, 0, 0, 0, 0xc3] = .error .unexpectedEnd ∧
      (list (optional text)).codec.ofBytes
        [2, 0, 0, 0, 0, 0, 0, 0, 1, 2, 0, 0, 0, 0, 0, 0, 0, 0xc3, 0xa9, 0, 0] =
          .error .invalidValue := by
  have hlimits : (list (optional text)).InLimits [some "é", none] := by
    have htext : (Bytes.ofText "é").length ≤ maxLength := by decide
    have hitems : ∀ v ∈ [some "é", none], ∀ w ∈ v, (Bytes.ofText w).length ≤ maxLength := by
      simpa using htext
    exact ⟨by decide, hitems⟩
  have hencode : (list (optional text)).codec.encode [some "é", none] =
      [2, 0, 0, 0, 0, 0, 0, 0, 1, 2, 0, 0, 0, 0, 0, 0, 0, 0xc3, 0xa9, 0] := by
    decide +kernel
  have h := ofBytes_cut_or_extended (list (optional text)) [some "é", none] hlimits
  rw [hencode] at h
  exact ⟨hlimits, h.1 _ ⟨[0xa9, 0], rfl⟩ (by decide), h.2 [0] (by decide)⟩

end Format

end LedgerNode.Wire

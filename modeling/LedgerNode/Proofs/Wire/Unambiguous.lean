import LedgerNode.Proofs.Wire.Exactness

/-!
# Encodings tell values apart

A reader turns away what is longer than a limit, but longer values are written, and hashed, all the
same. What is written still tells any two values apart: as long as a length fits in the eight bytes
that it is written in, no encoding is the front of another one.

- `Codec.PrefixFree c fits`: encodings of values that fit, with anything behind them, are equal only
  if the values are and what stands behind them is.
- `Codec.Exact.prefixFree`, `Codec.prefixFree_bytes`, `Codec.PrefixFree.pair` and the like: the
  codecs that a transaction is made of.
- `Transaction.append_inj`: the front of two transactions. The tags around the attributes tell where
  these end, so that their number plays no part.
- `Transaction.message_append_inj`: whole transactions, and what is hashed of them.
- `Transaction.message_inj`: with nothing behind it, the length of a payload plays no part either.
-/

namespace LedgerNode

namespace Wire.Codec

variable {α β : Type} {c : Codec α} {d : Codec β} {fits : α → Prop} {fits' : β → Prop}

/-- Encodings of values that fit are told apart whatever stands behind them. -/
structure PrefixFree (c : Codec α) (fits : α → Prop) : Prop where
  writes : c.Writes c.encode
  append_inj : ∀ {v w : α} {r s : Bytes}, fits v → fits w →
    c.encode v ++ r = c.encode w ++ s → v = w ∧ r = s

/-- What is read back is told apart. -/
theorem Exact.prefixFree (h : c.Exact fits) : c.PrefixFree fits where
  writes := h.writes
  append_inj := by
    intro v w r s hv hw heq
    have hread : c.read (c.encode v ++ r) = .ok (v, r) := h.read_encode hv r
    have hread' : c.read (c.encode w ++ s) = .ok (w, s) := h.read_encode hw s
    rw [← heq, hread] at hread'
    cases hread'
    exact ⟨rfl, rfl⟩

/-! ## Sequences -/

/-- Two lengths that fit in eight bytes are told apart by them. -/
theorem length_append_inj {m n : Nat} {r s : Bytes} (hm : m < UInt64.size) (hn : n < UInt64.size)
    (h : Bytes.ofNatLE 8 m ++ r = Bytes.ofNatLE 8 n ++ s) : m = n ∧ r = s := by
  obtain ⟨hlength, hrest⟩ := List.append_inj h (by simp)
  refine ⟨?_, hrest⟩
  have hmod : m % Nat.pow 256 8 = n % Nat.pow 256 8 := by
    rw [← Bytes.toNatLE_ofNatLE, ← Bytes.toNatLE_ofNatLE, hlength]
  have hsize : Nat.pow 256 8 = UInt64.size := by decide
  rwa [hsize, Nat.mod_eq_of_lt hm, Nat.mod_eq_of_lt hn] at hmod

theorem prefixFree_bytes : bytes.PrefixFree fun bs => bs.length < UInt64.size where
  writes := writes_bytes.writes_encode
  append_inj := by
    intro v w r s hv hw h
    simp only [writes_bytes.encode_eq, List.append_assoc] at h
    obtain ⟨hlength, hrest⟩ := length_append_inj hv hw h
    exact List.append_inj hrest hlength

theorem prefixFree_text : text.PrefixFree fun t => (Bytes.ofText t).length < UInt64.size where
  writes := writes_text.writes_encode
  append_inj := by
    intro v w r s hv hw h
    simp only [writes_text.encode_eq] at h
    obtain ⟨htext, hrest⟩ := prefixFree_bytes.append_inj hv hw h
    exact ⟨Bytes.ofText_inj htext, hrest⟩

theorem PrefixFree.optional (h : c.PrefixFree fits) :
    c.optional.PrefixFree fun v => ∀ w ∈ v, fits w where
  writes := h.writes.optional.writes_encode
  append_inj := by
    intro v w r s hv hw heq
    simp only [h.writes.optional.encode_eq] at heq
    cases v with
    | none =>
      cases w with
      | none => exact ⟨rfl, List.append_cancel_left heq⟩
      | some b => cases heq
    | some a =>
      cases w with
      | none => cases heq
      | some b =>
        obtain ⟨rfl, hrest⟩ := h.append_inj (hv a rfl) (hw b rfl) (List.tail_eq_of_cons_eq heq)
        exact ⟨rfl, hrest⟩

/-! ## Composition -/

theorem PrefixFree.pair (hc : c.PrefixFree fits) (hd : d.PrefixFree fits') :
    (c.pair d).PrefixFree fun v => fits v.1 ∧ fits' v.2 where
  writes := (hc.writes.pair hd.writes).writes_encode
  append_inj := by
    intro v w r s hv hw h
    simp only [(hc.writes.pair hd.writes).encode_eq, List.append_assoc] at h
    obtain ⟨hfirst, hrest⟩ := hc.append_inj hv.1 hw.1 h
    obtain ⟨hsecond, hrest⟩ := hd.append_inj hv.2 hw.2 hrest
    exact ⟨Prod.ext hfirst hsecond, hrest⟩

/-- Standing for other values keeps a codec prefix-free when no two values stand for one. -/
theorem PrefixFree.map (h : c.PrefixFree fits) {toPlain : β → α} {ofPlain : α → β}
    (ofPlain_toPlain : ∀ b, ofPlain (toPlain b) = b) :
    (c.map toPlain ofPlain).PrefixFree fun b => fits (toPlain b) where
  writes := (h.writes.map toPlain ofPlain).writes_encode
  append_inj := by
    intro v w r s hv hw heq
    simp only [(h.writes.map toPlain ofPlain).encode_eq] at heq
    obtain ⟨hplain, hrest⟩ := h.append_inj hv hw heq
    refine ⟨?_, hrest⟩
    rw [← ofPlain_toPlain v, hplain, ofPlain_toPlain]

end Wire.Codec

namespace Transaction

open Wire Wire.Codec

/-! ## Parts of transactions -/

theorem prefixFree_attribute :
    Attribute.codec.PrefixFree fun a => True ∧ a.data.length < UInt64.size :=
  (exact_usage.prefixFree.pair prefixFree_bytes).map fun _ => rfl

theorem prefixFree_payload : Payload.codec.PrefixFree fun p =>
    (Bytes.ofText p.recordType).length < UInt64.size ∧ p.data.length < UInt64.size :=
  (prefixFree_text.pair prefixFree_bytes).map fun _ => rfl

/-- An attribute starts with the tag of its usage. -/
theorem encode_attribute (a : Attribute) :
    Attribute.codec.encode a = Usage.code .description :: bytes.encode a.data := by
  obtain ⟨⟨⟩, data⟩ := a
  exact (((writes_tagged Usage.code Usage.ofCode?).pair writes_bytes.writes_encode).map
    _ _).encode_eq _

theorem encode_payload (p : Payload) :
    Payload.codec.encode p = text.encode p.recordType ++ bytes.encode p.data :=
  ((writes_text.writes_encode.pair writes_bytes.writes_encode).map _ _).encode_eq p

/-- A transaction without a payload ends with one tag, and a payload stands behind another. -/
theorem encode_optional_payload (p : Option Payload) :
    Payload.codec.optional.encode p = p.elim [0] fun q => 1 :: Payload.codec.encode q :=
  exact_payload.writes.optional.encode_eq p

/-- The kind, the number of attributes, the attributes and the payload. -/
theorem message_eq (tx : Transaction) :
    tx.message = tx.kind.code :: (Bytes.ofNatLE 8 tx.attributes.length ++
      (tx.attributes.flatMap Attribute.codec.encode ++
        Payload.codec.optional.encode tx.payload)) := by
  have h : tx.message = _ := (((writes_tagged Kind.code Kind.ofCode?).pair
    (exact_attribute.writes.list.pair exact_payload.writes.optional.writes_encode)).map
      _ _).encode_eq tx
  rw [h, List.append_assoc]
  rfl

/-! ## Whole transactions -/

variable {t u : Transaction} {r s : Bytes}

/-- Attributes and a tag other than theirs behind them tell themselves apart. -/
theorem attributes_append_inj {as bs : List Attribute} {x y : UInt8}
    (has : ∀ a ∈ as, a.data.length < UInt64.size) (hbs : ∀ b ∈ bs, b.data.length < UInt64.size)
    (hx : x ≠ Usage.code .description) (hy : y ≠ Usage.code .description)
    (h : as.flatMap Attribute.codec.encode ++ x :: r =
      bs.flatMap Attribute.codec.encode ++ y :: s) : as = bs ∧ x :: r = y :: s := by
  -- both lists are taken apart together, since an attribute never stands where another tag does
  induction as generalizing bs with
  | nil =>
    cases bs with
    | nil => exact ⟨rfl, h⟩
    | cons b bs =>
      rw [List.flatMap_cons, encode_attribute] at h
      exact absurd (List.head_eq_of_cons_eq h) hx
  | cons a as ih =>
    cases bs with
    | nil =>
      rw [List.flatMap_cons, encode_attribute] at h
      exact absurd (List.head_eq_of_cons_eq h).symm hy
    | cons b bs =>
      rw [List.forall_mem_cons] at has hbs
      rw [List.flatMap_cons, List.flatMap_cons, List.append_assoc, List.append_assoc] at h
      obtain ⟨rfl, hrest⟩ :=
        prefixFree_attribute.append_inj ⟨trivial, has.1⟩ ⟨trivial, hbs.1⟩ h
      obtain ⟨rfl, htail⟩ := ih has.2 hbs.2 hrest
      exact ⟨rfl, htail⟩

/-- The encoding of an optional payload starts with a tag that no attribute has. -/
theorem exists_encode_optional_payload (p : Option Payload) :
    ∃ (x : UInt8) (r : Bytes), x ≠ Usage.code .description ∧
      Payload.codec.optional.encode p = x :: r := by
  rw [encode_optional_payload]
  cases p with
  | none => exact ⟨0, [], by decide, rfl⟩
  | some q => exact ⟨1, Payload.codec.encode q, by decide, rfl⟩

/-- Kind and attributes are told apart whatever stands behind the payload. -/
theorem append_inj (ht : ∀ a ∈ t.attributes, a.data.length < UInt64.size)
    (hu : ∀ a ∈ u.attributes, a.data.length < UInt64.size)
    (h : t.message ++ r = u.message ++ s) :
    t.kind = u.kind ∧ t.attributes = u.attributes ∧
      Payload.codec.optional.encode t.payload ++ r =
        Payload.codec.optional.encode u.payload ++ s := by
  simp only [message_eq, List.cons_append, List.append_assoc] at h
  obtain ⟨hcode, hrest⟩ := List.cons_eq_cons.mp h
  -- the number of attributes takes eight bytes, whatever it is
  obtain ⟨-, hrest⟩ := List.append_inj hrest (by simp)
  obtain ⟨x, p, hx, hp⟩ := exists_encode_optional_payload t.payload
  obtain ⟨y, q, hy, hq⟩ := exists_encode_optional_payload u.payload
  rw [hp, hq] at hrest
  obtain ⟨hattributes, hpayload⟩ := attributes_append_inj ht hu hx hy hrest
  refine ⟨?_, hattributes, ?_⟩
  · exact Option.some.inj (by rw [← Kind.ofCode?_code, hcode, Kind.ofCode?_code])
  · rw [hp, hq]
    exact hpayload

/-- The length of every byte string within a transaction fits in the eight bytes that it is written
in. -/
structure Sized (tx : Transaction) : Prop where
  attributes : ∀ a ∈ tx.attributes, a.data.length < UInt64.size
  payload : ∀ p ∈ tx.payload,
    (Bytes.ofText p.recordType).length < UInt64.size ∧ p.data.length < UInt64.size

/-- What is hashed of a transaction. -/
def preimage (tx : Transaction) : Bytes :=
  domainTag ++ tx.message

theorem hash_eq_digest (tx : Transaction) : tx.hash = Hash.digest tx.preimage := by
  unfold hash Hash.digest preimage
  rw [exact_transaction.writes.write_eq]
  show Hash.ofHasher ((({} : Digest.Hasher).absorb domainTag).absorb tx.message) = _
  rw [Digest.Hasher.absorb_append]

/-- Two transactions with anything behind their encodings are told apart by these. The hash is the
digest of a domain tag and the encoding, and no two transactions have the same bytes hashed. -/
theorem message_append_inj (ht : t.Sized) (hu : u.Sized) :
    (∀ r s : Bytes, t.message ++ r = u.message ++ s → t = u ∧ r = s) ∧
      t.hash = Hash.digest t.preimage ∧ u.hash = Hash.digest u.preimage ∧
      (t ≠ u → t.preimage ≠ u.preimage) := by
  have hinj : ∀ r s : Bytes, t.message ++ r = u.message ++ s → t = u ∧ r = s := by
    intro r s h
    obtain ⟨hkind, hattributes, hrest⟩ := append_inj ht.attributes hu.attributes h
    obtain ⟨hpayload, hrs⟩ :=
      prefixFree_payload.optional.append_inj ht.payload hu.payload hrest
    cases t
    cases u
    subst hkind hattributes hpayload
    exact ⟨rfl, hrs⟩
  refine ⟨hinj, hash_eq_digest t, hash_eq_digest u, fun hne heq => hne ?_⟩
  have hmessage : t.message ++ [] = u.message ++ [] :=
    congrArg (· ++ []) (List.append_cancel_left heq)
  exact (hinj [] [] hmessage).1

/-- Two records are told apart though type and data, one behind the other, read the same. -/
theorem message_append_inj_shifted :
    (recording "ab" [0x63]).Sized ∧ (recording "a" [0x62, 0x63]).Sized ∧
      (recording "ab" [0x63]).preimage ≠ (recording "a" [0x62, 0x63]).preimage := by
  have ht : (recording "ab" [0x63]).Sized := ⟨by rintro a ⟨⟩, by rintro p ⟨⟩; decide⟩
  have hu : (recording "a" [0x62, 0x63]).Sized := ⟨by rintro a ⟨⟩, by rintro p ⟨⟩; decide⟩
  exact ⟨ht, hu, (message_append_inj ht hu).2.2.2 (by decide)⟩

/-- Whole encodings tell transactions apart even when a payload's data is too long for eight bytes
to say how long it is. -/
theorem message_inj (ht : ∀ a ∈ t.attributes, a.data.length < UInt64.size)
    (hu : ∀ a ∈ u.attributes, a.data.length < UInt64.size)
    (htype : ∀ p ∈ t.payload, (Bytes.ofText p.recordType).length < UInt64.size)
    (utype : ∀ p ∈ u.payload, (Bytes.ofText p.recordType).length < UInt64.size)
    (h : t.message = u.message) : t = u := by
  obtain ⟨hkind, hattributes, hrest⟩ := append_inj ht hu (congrArg (· ++ []) h)
  rw [List.append_nil, List.append_nil, encode_optional_payload, encode_optional_payload] at hrest
  obtain ⟨kind, attributes, p⟩ := t
  obtain ⟨kind', attributes', q⟩ := u
  dsimp only at hkind hattributes hrest htype utype
  subst hkind hattributes
  cases p with
  | none =>
    cases q with
    | none => rfl
    | some q => cases hrest
  | some p =>
    cases q with
    | none => cases hrest
    | some q =>
      have hpayload : Payload.codec.encode p = Payload.codec.encode q :=
        List.tail_eq_of_cons_eq hrest
      rw [encode_payload, encode_payload] at hpayload
      obtain ⟨htype, hdata⟩ := prefixFree_text.append_inj (htype p rfl) (utype q rfl) hpayload
      rw [writes_bytes.encode_eq, writes_bytes.encode_eq] at hdata
      -- nothing stands behind the data, so that it is all that follows its length
      obtain ⟨-, hdata⟩ := List.append_inj hdata (by simp)
      cases p
      cases q
      subst htype hdata
      rfl

end Transaction

end LedgerNode

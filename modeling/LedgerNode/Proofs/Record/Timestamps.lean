import LedgerNode.Proofs.Number.Rounding
import LedgerNode.Proofs.Record.Acceptance

/-!
# Whole points in time as they are written

A point in time is held as a floating-point number, also when a request gives it as an integer. The
integer that is nearest to it among the floating-point numbers is written in its digits, so that
integers of 53 bits stay what they are and others do not. The last integers of 64 bits with a sign
are rounded to a number that needs one bit more, and this one is written with an exponent.

- `Record.written`: the written form of a record around a text for its point in time.
- `Record.render_numberJson_ofInt`, `Record.render_numberJson_ofInt_of_ge`: that text for an
  integer.
- `Record.whole_timestamp_kept_iff`: what is written for the whole point in time of a request.
-/

namespace LedgerNode.Record

/-! ## The text of a record -/

/-- The written form of a record with the given text for its point in time. -/
def written (r : Record) (time : String) : String :=
  "\x7b\"CAkey\":" ++ (Json.text r.key).render ++ ",\"Data\":" ++ r.content.toJson.render ++
    ",\"SeqNo\":" ++ (Json.text r.sequence).render ++ ",\"Timestamp\":" ++ time ++ "\x7d"

theorem render_toJson (r : Record) :
    r.toJson.render = r.written (numberJson r.timestamp).render := by
  have hkey : Json.writeText "CAkey" = "\"CAkey\"".toList := by decide
  have hdata : Json.writeText "Data" = "\"Data\"".toList := by decide
  have hsequence : Json.writeText "SeqNo" = "\"SeqNo\"".toList := by decide
  have htime : Json.writeText "Timestamp" = "\"Timestamp\"".toList := by decide
  refine String.toList_inj.mp ?_
  unfold written Json.render toJson
  simp only [String.toList_append, String.toList_ofList, Json.write, Json.writeMembers, hkey, hdata,
    hsequence, htime]
  simp

/-! ## The text of an integer -/

/-- The text for an integer is that of the nearest floating-point number. -/
theorem render_numberJson_ofInt {n : Int} (hlow : -0x8000000000000000 ≤ n)
    (hhigh : n < 0x7ffffffffffffe00) :
    (numberJson (.ofInt n)).render = Text.integer (Binary64.nearestInt n) := by
  have hmin : Int64.minValue.toInt = -0x8000000000000000 := by decide
  have hmax : Int64.maxValue.toInt = 0x7fffffffffffffff := by decide
  have hfits := Binary64.nearestInt_fits hlow hhigh
  have hjson : numberJson (.ofInt n) = .integer (Binary64.nearestInt n) := by
    unfold numberJson
    rw [Binary64.whole?_ofInt_eq]
    dsimp only
    rw [if_pos (by omega)]
  rw [hjson]
  exact String.ofList_toList

/-- The last integers of 64 bits with a sign all have one text. -/
theorem render_numberJson_ofInt_of_ge {n : Int} (hlow : 0x7ffffffffffffe00 ≤ n)
    (hhigh : n < 0x8000000000000000) :
    (numberJson (.ofInt n)).render = "9.223372036854776e+18" := by
  rw [Binary64.ofInt_of_ge hlow hhigh]
  decide +kernel

/-- No integer is written with a point. -/
theorem point_not_mem_integer (n : Int) : '.' ∉ (Text.integer n).toList := by
  have hdigits : '.' ∉ Nat.toDigits 10 n.natAbs := by
    intro h
    have hdigit : Char.isDigit '.' = true :=
      Nat.isDigit_of_mem_toDigits (by decide) (by decide) h
    exact absurd hdigit (by decide)
  rw [Json.toList_integer]
  split
  · simpa using hdigits
  · exact hdigits

/-- An integer is written in its own digits exactly if it is a floating-point number. -/
theorem render_numberJson_ofInt_eq_integer_iff {n : Int} (hlow : -0x8000000000000000 ≤ n)
    (hhigh : n < 0x8000000000000000) :
    (numberJson (.ofInt n)).render = Text.integer n ↔ Binary64.HasBits 53 n.natAbs := by
  rw [← Binary64.nearestInt_eq_self_iff]
  rcases Int.lt_or_le n 0x7ffffffffffffe00 with hlt | hge
  · rw [render_numberJson_ofInt hlow hlt]
    exact ⟨Text.integer_inj, congrArg Text.integer⟩
  · rw [render_numberJson_ofInt_of_ge hge hhigh]
    constructor
    · intro h
      refine absurd ?_ (point_not_mem_integer n)
      rw [← h]
      decide
    · intro h
      -- such an integer is rounded to the power of two, and lies below it
      have hwhole := Binary64.whole?_ofInt_eq n
      rw [Binary64.ofInt_of_ge hge hhigh, h] at hwhole
      have heq : n = 0x8000000000000000 := (Option.some.inj hwhole).symm
      omega

/-! ## The point in time of a request -/

/-- The bytes of a structured request are those of a record, with the point in time that the request
gives. -/
theorem exists_written {request : Json} {bytes : Bytes} {n : Int} (hraw : isRaw request = false)
    (hdata : data request = .ok bytes)
    (hfield : field request "Timestamp" = some (.integer n)) :
    ∃ record : Record, bytes = Bytes.ofText (record.written (numberJson (.ofInt n)).render) := by
  obtain ⟨members, key, hmembers, -, -, rfl⟩ := data_structured_eq_ok hraw hdata
  unfold field at hfield
  rw [bind_members?_eq_some_iff.mpr hmembers, Option.bind_some] at hfield
  rw [hfield]
  exact ⟨_, congrArg Bytes.ofText (render_toJson _)⟩

/-- A request that gives its point in time as an integer of 64 bits with a sign is kept with a text
for it. This is the digits of the integer, with a minus sign if it is negative, exactly if the
integer is one of 53 bits, zeros at the end aside. In general it is the digits of the nearest
integer of 53 bits. Only the last 512 integers, to which the nearest one does not fit in 64 bits,
are written with a point and an exponent. -/
theorem whole_timestamp_kept_iff {request : Json} {bytes : Bytes} {n : Int}
    (hraw : isRaw request = false) (hdata : data request = .ok bytes)
    (hfield : field request "Timestamp" = some (.integer n))
    (hlow : -0x8000000000000000 ≤ n) (hhigh : n < 0x8000000000000000) :
    ∃ (record : Record) (time : String), bytes = Bytes.ofText (record.written time) ∧
      (time = Text.integer n ↔ Binary64.HasBits 53 n.natAbs) ∧
      (n < 0x7ffffffffffffe00 → ∃ r, Binary64.IsNearest n r ∧ time = Text.integer r) ∧
      (0x7ffffffffffffe00 ≤ n → time = "9.223372036854776e+18") := by
  obtain ⟨record, hbytes⟩ := exists_written hraw hdata hfield
  refine ⟨record, _, hbytes, render_numberJson_ofInt_eq_integer_iff hlow hhigh, ?_, ?_⟩
  · intro hlt
    exact ⟨_, Binary64.isNearest_nearestInt n, render_numberJson_ofInt hlow hlt⟩
  · intro hge
    exact render_numberJson_ofInt_of_ge hge hhigh

/-- A negative integer halfway between two of 53 bits, of which the one further from zero has an
even significand. -/
theorem whole_timestamp_kept_iff_halfway :
    let request := Json.object [("CAkey", .text "k"), ("RecordData", .object [
      ("CAkey", .null), ("Data", .null), ("SeqNo", .null),
      ("Timestamp", .integer (-0x20000000000003))])]
    ∃ bytes, data request = .ok bytes ∧
      ∃ (record : Record) (time : String), bytes = Bytes.ofText (record.written time) ∧
        time ≠ "-9007199254740995" ∧
        ∃ r, Binary64.IsNearest (-0x20000000000003) r ∧ time = Text.integer r := by
  intro request
  have hraw : isRaw request = false := by rfl
  have hfield : field request "Timestamp" = some (.integer (-0x20000000000003)) := by rfl
  have hrecord : ofRequest request =
      .ok { key := "k", timestamp := .ofInt (-0x20000000000003) } := by rfl
  have hdata := data_of_not_isRaw hraw
  rw [hrecord] at hdata
  obtain ⟨kept, time, hbytes, hown, hnearest, -⟩ :=
    whole_timestamp_kept_iff hraw hdata hfield (by decide) (by decide)
  refine ⟨_, hdata, kept, time, hbytes, fun htime => ?_, hnearest (by decide)⟩
  have hbits := hown.mp (htime.trans (by decide))
  rw [← Binary64.nearestInt_eq_self_iff] at hbits
  exact absurd hbits (by decide)

/-- What stands at the end of a record's text. -/
theorem exists_reverse_written (r : Record) (time : String) :
    ∃ front, (r.written time).toList.reverse = '\x7d' :: (time.toList.reverse ++ front) := by
  unfold written
  exact ⟨_, by simp only [String.toList_append, List.reverse_append]; rfl⟩

/-- The first integer above zero that takes more than 53 bits is not written in its own digits. -/
theorem timestamp_loses_last_bit :
    let request := Json.object [("CAkey", .text "k"), ("RecordData", .object [
      ("CAkey", .null), ("Data", .null), ("SeqNo", .null),
      ("Timestamp", .integer 0x20000000000001)])]
    isRaw request = false ∧ field request "Timestamp" = some (.integer 0x20000000000001) ∧
      ∃ bytes, data request = .ok bytes ∧
        ∀ record : Record, bytes ≠ Bytes.ofText (record.written "9007199254740993") := by
  intro request
  have hraw : isRaw request = false := by rfl
  have hfield : field request "Timestamp" = some (.integer 0x20000000000001) := by rfl
  have hrecord : ofRequest request = .ok { key := "k", timestamp := .ofInt 0x20000000000001 } := by
    rfl
  have hdata := data_of_not_isRaw hraw
  rw [hrecord] at hdata
  have htime : (numberJson (.ofInt 0x20000000000001)).render = "9007199254740992" := by
    rw [render_numberJson_ofInt (by decide) (by decide)]
    decide
  obtain ⟨kept, hkept⟩ := exists_written hraw hdata hfield
  rw [htime] at hkept
  refine ⟨hraw, hfield, _, hdata, fun other hother => ?_⟩
  have htext := congrArg (·.toList.reverse) (Bytes.ofText_inj (hkept.symm.trans hother))
  obtain ⟨front, hfront⟩ := exists_reverse_written kept "9007199254740992"
  obtain ⟨front', hfront'⟩ := exists_reverse_written other "9007199254740993"
  rw [hfront, hfront'] at htext
  cases List.head_eq_of_cons_eq (List.tail_eq_of_cons_eq htext)

end LedgerNode.Record

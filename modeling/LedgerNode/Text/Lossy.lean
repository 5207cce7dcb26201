import LedgerNode.Bytes.Basic

/-!
# Lossy UTF-8

A byte string that is no valid UTF-8 is shown by putting the replacement character U+FFFD for each
maximal part that cannot be continued to a character.

- `Text.ofBytesLossy`: the text of a byte string, exact where it is valid UTF-8
  (`Text.ofBytesLossy_ofText`).
-/

namespace LedgerNode.Text

/-- What a first byte calls for: how many bytes follow it, and the range of the first of these. -/
def continuation? (lead : UInt8) : Option (Nat × UInt8 × UInt8) :=
  if lead < 0x80 then some (0, 0x80, 0xbf)
  else if lead < 0xc2 then none
  else if lead < 0xe0 then some (1, 0x80, 0xbf)
  else if lead = 0xe0 then some (2, 0xa0, 0xbf)
  else if lead = 0xed then some (2, 0x80, 0x9f)
  else if lead < 0xf0 then some (2, 0x80, 0xbf)
  else if lead = 0xf0 then some (3, 0x90, 0xbf)
  else if lead < 0xf4 then some (3, 0x80, 0xbf)
  else if lead = 0xf4 then some (3, 0x80, 0x8f)
  else none

/-- The bytes, at most `count` of them, that can follow a first byte. -/
def takeContinuation : (count : Nat) → (low high : UInt8) → Bytes → Bytes
  | count + 1, low, high, b :: bs =>
    if low ≤ b ∧ b ≤ high then b :: takeContinuation count 0x80 0xbf bs else []
  | _, _, _, _ => []

/-- The character spelled by a first byte and all the bytes that it calls for. -/
def joinContinuation (lead : UInt8) (bs : Bytes) : Char :=
  let bits := if bs = [] then lead.toNat else lead.toNat % (64 >>> bs.length)
  Char.ofNat (bs.foldl (fun n b => 64 * n + b.toNat % 64) bits)

/-- The characters of a byte string with replacements for its invalid parts. -/
def lossyChars : Bytes → List Char
  | [] => []
  | lead :: rest =>
    match continuation? lead with
    | none => '\ufffd' :: lossyChars rest
    | some (count, low, high) =>
      let bs := takeContinuation count low high rest
      let c := if bs.length = count then joinContinuation lead bs else '\ufffd'
      c :: lossyChars (rest.drop bs.length)
termination_by bs => bs.length
decreasing_by
  all_goals simp only [List.length_drop, List.length_cons]
  all_goals omega

/-- The text of a byte string; its invalid parts are replaced. -/
def ofBytesLossy (bs : Bytes) : String :=
  match bs.text? with
  | some s => s
  | none => String.ofList (lossyChars bs)

@[simp] theorem ofBytesLossy_ofText (s : String) : ofBytesLossy (Bytes.ofText s) = s := by
  simp [ofBytesLossy]

/-- Byte strings that are text are told apart by it. -/
theorem ofBytesLossy_inj {a b : Bytes} {s t : String} (ha : a.text? = some s)
    (hb : b.text? = some t) (h : ofBytesLossy a = ofBytesLossy b) : a = b := by
  rw [Bytes.text?_eq_some_iff] at ha hb
  rw [ha, hb, ofBytesLossy_ofText, ofBytesLossy_ofText] at h
  rw [ha, hb, h]

end LedgerNode.Text

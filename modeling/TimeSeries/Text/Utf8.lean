/-!
UTF-8 read byte by byte. A run of bytes that starts a character and breaks off is one fault, and so
is every byte that can start none; the byte that breaks a run off is looked at anew.
-/
namespace TimeSeries.Text

/-- A character that has begun: how many bytes are still to come, between which bounds the next one
must lie, and the bits so far. -/
structure PartialChar where
  missing : Nat
  low : Nat
  high : Nat
  bits : Nat

/-- What a byte is at the start of a character: a whole character or a fault, or a beginning. -/
def leadByte (b : Nat) : Option Char ⊕ PartialChar :=
  if b < 0x80 then .inl (some (Char.ofNat b))
  else if 0xc2 ≤ b ∧ b ≤ 0xdf then .inr ⟨1, 0x80, 0xbf, b - 0xc0⟩
  else if b = 0xe0 then .inr ⟨2, 0xa0, 0xbf, 0⟩
  else if b = 0xed then .inr ⟨2, 0x80, 0x9f, 0xd⟩
  else if 0xe1 ≤ b ∧ b ≤ 0xef then .inr ⟨2, 0x80, 0xbf, b - 0xe0⟩
  else if b = 0xf0 then .inr ⟨3, 0x90, 0xbf, 0⟩
  else if 0xf1 ≤ b ∧ b ≤ 0xf3 then .inr ⟨3, 0x80, 0xbf, b - 0xf0⟩
  else if b = 0xf4 then .inr ⟨3, 0x80, 0x8f, 4⟩
  else .inl none

/-- The characters of some bytes, a fault being none, after a character that has perhaps begun. -/
def decodeAfter : Option PartialChar → List UInt8 → List (Option Char)
  | none, [] => []
  | some _, [] => [none]
  | begun, byte :: rest =>
    let b := byte.toNat
    let afresh := match leadByte b with
      | .inl c => c :: decodeAfter none rest
      | .inr p => decodeAfter (some p) rest
    match begun with
    | none => afresh
    | some p =>
      let bits := p.bits * 64 + (b - 0x80)
      if p.low ≤ b ∧ b ≤ p.high then
        if p.missing = 1 then some (Char.ofNat bits) :: decodeAfter none rest
        else decodeAfter (some ⟨p.missing - 1, 0x80, 0xbf, bits⟩) rest
      else none :: afresh

def encodeUtf8 (s : String) : List UInt8 := s.toList.flatMap String.utf8EncodeChar

/-- The text of some bytes, when they are UTF-8 throughout. -/
def decodeUtf8? (bytes : List UInt8) : Option String :=
  ((decodeAfter none bytes).mapM fun c => c).map String.ofList

/-- The text of some bytes, with a replacement character for each fault. -/
def decodeUtf8Lossy (bytes : List UInt8) : String :=
  String.ofList ((decodeAfter none bytes).map (·.getD '\ufffd'))

example : decodeUtf8? (encodeUtf8 "aé日😀") = some "aé日😀" := by decide +kernel
example : decodeUtf8Lossy [0x61, 0xe6, 0x97, 0x62, 0xff] = "a\ufffdb\ufffd" := by decide +kernel
example : decodeUtf8? [0xed, 0xa0, 0x80] = none := by decide +kernel

end TimeSeries.Text

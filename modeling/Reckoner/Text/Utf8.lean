import Reckoner.Text.Basic

/-! UTF-8.  The form of a character is one to four bytes.  The first byte tells how many, and
within what bounds the second lies, which rules out long forms, surrogates and values that are too
large. -/

namespace Reckoner.Utf8

/-- A sequence of bytes. -/
abbrev Bytes := List UInt8

/-- The form of one character. -/
def encodeChar (c : Char) : Bytes :=
  let n := c.toNat
  if n < 0x80 then [n.toUInt8]
  else if n < 0x800 then [(0xc0 + n / 64).toUInt8, (0x80 + n % 64).toUInt8]
  else if n < 0x10000 then
    [(0xe0 + n / 4096).toUInt8, (0x80 + n / 64 % 64).toUInt8, (0x80 + n % 64).toUInt8]
  else
    [(0xf0 + n / 262144).toUInt8, (0x80 + n / 4096 % 64).toUInt8, (0x80 + n / 64 % 64).toUInt8,
      (0x80 + n % 64).toUInt8]

/-- The bytes of a text. -/
def encode (s : Text) : Bytes := s.flatMap encodeChar

/-- Why bytes are no text. -/
inductive Reason
  /-- No character starts with this byte. -/
  | start
  /-- A byte within a character is out of bounds. -/
  | continuation
  /-- The bytes end within a character. -/
  | ending
  deriving DecidableEq, Repr

/-- Bytes that are no text: where the first bad form starts, its bytes that were read, and why it is
bad. -/
structure Fault where
  position : Nat
  bytes : Bytes
  reason : Reason
  deriving DecidableEq, Repr

/-- The reason in words. -/
def Reason.message : Reason → Text
  | .start => "invalid start byte"
  | .continuation => "invalid continuation byte"
  | .ending => "unexpected end of data"

/-- The fault in words: the byte if the bad form has only one, and otherwise the first and the last
of its positions. -/
def Fault.message (fault : Fault) : Text :=
  let place : Text :=
    match fault.bytes with
    | [byte] =>
      let digits := Nat.toDigits 16 byte.toNat
      " byte 0x" ++ List.replicate (2 - digits.length) '0' ++ digits ++ " in position " ++
        Text.ofNat fault.position
    | bytes =>
      " bytes in position " ++ Text.ofNat fault.position ++ "-" ++
        Text.ofNat (fault.position + bytes.length - 1)
  "'utf-8' codec can't decode" ++ place ++ ": " ++ fault.reason.message

/-- How many bytes follow a first byte, and the bounds of the second byte. -/
def following? (first : UInt8) : Option (Nat × UInt8 × UInt8) :=
  if first < 0x80 then some (0, 0x80, 0xbf)
  else if first < 0xc2 then none
  else if first < 0xe0 then some (1, 0x80, 0xbf)
  else if first = 0xe0 then some (2, 0xa0, 0xbf)
  else if first = 0xed then some (2, 0x80, 0x9f)
  else if first < 0xf0 then some (2, 0x80, 0xbf)
  else if first = 0xf0 then some (3, 0x90, 0xbf)
  else if first < 0xf4 then some (3, 0x80, 0xbf)
  else if first = 0xf4 then some (3, 0x80, 0x8f)
  else none

/-- The bytes within a character that are in bounds, up to `count` of them: the second byte is
between `low` and `high`, every later one between `80` and `bf`. -/
def continuation (count : Nat) (low high : UInt8) : Bytes → Bytes
  | [] => []
  | b :: bytes =>
    match count with
    | 0 => []
    | count + 1 => if low ≤ b && b ≤ high then b :: continuation count 0x80 0xbf bytes else []

/-- The code point that `first` and the bytes after it stand for. -/
def codePoint (first : UInt8) (more : Bytes) : Nat :=
  let lead :=
    match more.length with
    | 0 => first.toNat
    | 1 => first.toNat - 0xc0
    | 2 => first.toNat - 0xe0
    | _ => first.toNat - 0xf0
  more.foldl (fun n b => n * 64 + (b.toNat - 0x80)) lead

/-- The first character, or the bytes read and the reason why there is none, and the bytes left. -/
def next (first : UInt8) (bytes : Bytes) : Except (Bytes × Reason) Char × Bytes :=
  match following? first with
  | none => (.error ([first], .start), bytes)
  | some (count, low, high) =>
    let more := continuation count low high bytes
    let left := bytes.drop more.length
    if more.length = count then (.ok (Char.ofNat (codePoint first more)), left)
    else (.error (first :: more, if left.isEmpty then .ending else .continuation), left)

theorem length_next_le (first : UInt8) (bytes : Bytes) :
    (next first bytes).2.length ≤ bytes.length := by
  unfold next
  split
  · exact Nat.le_refl _
  · dsimp only
    split <;> simp

/-- The text of the bytes from `position` on. -/
def decodeFrom (position : Nat) : Bytes → Except Fault Text
  | [] => .ok []
  | first :: bytes =>
    match _ : next first bytes with
    | (.error (read, reason), _) => .error ⟨position, read, reason⟩
    | (.ok c, left) => (decodeFrom (position + (encodeChar c).length) left).map (c :: ·)
  termination_by bytes => bytes.length
  decreasing_by
    rename_i step
    have shorter := length_next_le first bytes
    simp only [step] at shorter
    simp only [List.length_cons]
    omega

/-- The text that the bytes stand for. -/
def decode (bytes : Bytes) : Except Fault Text := decodeFrom 0 bytes

/-- The text that the bytes stand for, with the replacement character for each bad form. -/
def decodeLossy : Bytes → Text
  | [] => []
  | first :: bytes =>
    match _ : next first bytes with
    | (.error _, left) => Char.ofNat 0xfffd :: decodeLossy left
    | (.ok c, left) => c :: decodeLossy left
  termination_by bytes => bytes.length
  decreasing_by
    all_goals
      rename_i step
      have shorter := length_next_le first bytes
      simp only [step] at shorter
      simp only [List.length_cons]
      omega

end Reckoner.Utf8

import SwitchLexicon.Text.Digit
import SwitchLexicon.Text.Surrogate

/-!
Strict UTF-8. A failure names the bytes that could not be read: a byte that starts no character, a
start whose next bytes do not continue it, or a start that the data ends in.
-/
namespace SwitchLexicon.Text

inductive Utf8Reason where
  | invalidStart
  | invalidContinuation
  | unexpectedEnd
deriving DecidableEq, Repr

structure Utf8Error where
  position : Nat
  count : Nat
  firstByte : Nat
  reason : Utf8Reason
deriving DecidableEq, Repr

def Utf8Reason.message : Utf8Reason → String
  | .invalidStart => "invalid start byte"
  | .invalidContinuation => "invalid continuation byte"
  | .unexpectedEnd => "unexpected end of data"

def Utf8Error.message (e : Utf8Error) : String :=
  let place :=
    if e.count = 1 then
      "byte 0x" ++ String.ofList (hexDigits 2 e.firstByte) ++ " in position " ++ toString e.position
    else
      "bytes in position " ++ toString e.position ++ "-" ++ toString (e.position + e.count - 1)
  "'utf-8' codec can't decode " ++ place ++ ": " ++ e.reason.message

def continues (b : UInt8) : Bool :=
  decide (0x80 ≤ b.toNat) && decide (b.toNat ≤ 0xBF)

/-- The second byte that may follow a start of three or four bytes: no overlong form, no half of a
surrogate pair, nothing past the last code point. -/
def secondFits (a b : UInt8) : Bool :=
  continues b && !(a.toNat == 0xE0 && decide (b.toNat < 0xA0)) &&
    !(a.toNat == 0xED && decide (0xA0 ≤ b.toNat)) &&
    !(a.toNat == 0xF0 && decide (b.toNat < 0x90)) &&
    !(a.toNat == 0xF4 && decide (0x90 ≤ b.toNat))

def low6 (b : UInt8) : Nat :=
  b.toNat % 64

/-- Reads from `position` on; `acc` holds the characters before it, last first. -/
def decodeFrom (position : Nat) (acc : List Char) : List UInt8 → Except Utf8Error (List Char)
  | [] => .ok acc.reverse
  | a :: rest =>
    let n := a.toNat
    if n < 0x80 then decodeFrom (position + 1) (Char.ofNat n :: acc) rest
    else if n < 0xC2 ∨ 0xF5 ≤ n then .error ⟨position, 1, n, .invalidStart⟩
    else
      match rest with
      | [] => .error ⟨position, 1, n, .unexpectedEnd⟩
      | b :: rest =>
        if !secondFits a b then .error ⟨position, 1, n, .invalidContinuation⟩
        else if n < 0xE0 then
          decodeFrom (position + 2) (Char.ofNat (n % 32 * 64 + low6 b) :: acc) rest
        else
          match rest with
          | [] => .error ⟨position, 2, n, .unexpectedEnd⟩
          | c :: rest =>
            if !continues c then .error ⟨position, 2, n, .invalidContinuation⟩
            else if n < 0xF0 then
              decodeFrom (position + 3)
                (Char.ofNat ((n % 16 * 64 + low6 b) * 64 + low6 c) :: acc) rest
            else
              match rest with
              | [] => .error ⟨position, 3, n, .unexpectedEnd⟩
              | d :: rest =>
                if !continues d then .error ⟨position, 3, n, .invalidContinuation⟩
                else
                  decodeFrom (position + 4)
                    (Char.ofNat (((n % 8 * 64 + low6 b) * 64 + low6 c) * 64 + low6 d) :: acc) rest

def decodeUtf8 (bytes : List UInt8) : Except Utf8Error String :=
  (decodeFrom 0 [] bytes).map String.ofList

def encodeChar (c : Char) : List UInt8 :=
  let n := c.toNat
  if n < 0x80 then [n.toUInt8]
  else if n < 0x800 then [(0xC0 + n / 64).toUInt8, (0x80 + n % 64).toUInt8]
  else if n < 0x10000 then
    [(0xE0 + n / 4096).toUInt8, (0x80 + n / 64 % 64).toUInt8, (0x80 + n % 64).toUInt8]
  else
    [(0xF0 + n / 262144).toUInt8, (0x80 + n / 4096 % 64).toUInt8, (0x80 + n / 64 % 64).toUInt8,
      (0x80 + n % 64).toUInt8]

def encodeUtf8? (s : String) : Option (List UInt8) :=
  if s.toList.any fun c => (surrogate? c).isSome then none else some (s.toList.flatMap encodeChar)

def encodeUtf8 (s : String) : List UInt8 :=
  s.toList.flatMap encodeChar

end SwitchLexicon.Text

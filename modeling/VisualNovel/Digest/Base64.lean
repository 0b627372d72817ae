/-!
# Bytes as text

Six bits go into each character. The last group of three bytes may be incomplete; equals signs then
fill its place.
-/

namespace VisualNovel.Digest

/-- The character for six bits. -/
def base64Char (n : Nat) : Char :=
  if n < 26 then Char.ofNat (65 + n)
  else if n < 52 then Char.ofNat (71 + n)
  else if n < 62 then Char.ofNat (n - 4)
  else if n = 62 then '+'
  else '/'

/-- Bytes as text. -/
def base64 : List UInt8 → List Char
  | [] => []
  | [a] =>
    let n := a.toNat * 16
    [base64Char (n / 64), base64Char (n % 64), '=', '=']
  | [a, b] =>
    let n := a.toNat * 1024 + b.toNat * 4
    [base64Char (n / 4096), base64Char (n / 64 % 64), base64Char (n % 64), '=']
  | a :: b :: c :: rest =>
    let n := a.toNat * 65536 + b.toNat * 256 + c.toNat
    base64Char (n / 262144) :: base64Char (n / 4096 % 64) :: base64Char (n / 64 % 64) ::
      base64Char (n % 64) :: base64 rest

/-- The value of a character that stands for six bits. -/
def base64Value? (c : Char) : Option Nat :=
  if 'A' ≤ c ∧ c ≤ 'Z' then some (c.toNat - 65)
  else if 'a' ≤ c ∧ c ≤ 'z' then some (c.toNat - 71)
  else if '0' ≤ c ∧ c ≤ '9' then some (c.toNat + 4)
  else if c = '+' then some 62
  else if c = '/' then some 63
  else none

/-- The bytes of a text. -/
def readBase64? : List Char → Option (List UInt8)
  | [] => some []
  | [a, b, '=', '='] => do
    return [UInt8.ofNat ((← base64Value? a) * 4 + (← base64Value? b) / 16)]
  | [a, b, c, '='] => do
    let n := (← base64Value? a) * 4096 + (← base64Value? b) * 64 + (← base64Value? c)
    return [UInt8.ofNat (n / 1024), UInt8.ofNat (n / 4)]
  | a :: b :: c :: d :: rest => do
    let n := (← base64Value? a) * 262144 + (← base64Value? b) * 4096 + (← base64Value? c) * 64 +
      (← base64Value? d)
    return UInt8.ofNat (n / 65536) :: UInt8.ofNat (n / 256) :: UInt8.ofNat n ::
      (← readBase64? rest)
  | _ => none

end VisualNovel.Digest

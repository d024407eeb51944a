/-!
# Base64

The standard alphabet with padding. Reading accepts exactly what writing produces: a length that is
a multiple of four, padding at the end only, and no stray bits in a padded group.
-/

namespace EventWorker.Text.Base64

def digitOf (n : Nat) : Char :=
  if n < 26 then Char.ofNat (n + 65)
  else if n < 52 then Char.ofNat (n - 26 + 97)
  else if n < 62 then Char.ofNat (n - 52 + 48)
  else if n = 62 then '+'
  else '/'

def valueOf? (c : Char) : Option Nat :=
  if 'A' ≤ c ∧ c ≤ 'Z' then some (c.toNat - 65)
  else if 'a' ≤ c ∧ c ≤ 'z' then some (c.toNat - 97 + 26)
  else if '0' ≤ c ∧ c ≤ '9' then some (c.toNat - 48 + 52)
  else if c = '+' then some 62
  else if c = '/' then some 63
  else none

def encodeChars : List UInt8 → List Char
  | [] => []
  | [a] =>
    let n := a.toNat * 16
    [digitOf (n / 64), digitOf (n % 64), '=', '=']
  | [a, b] =>
    let n := (a.toNat * 256 + b.toNat) * 4
    [digitOf (n / 4096), digitOf (n / 64 % 64), digitOf (n % 64), '=']
  | a :: b :: c :: rest =>
    let n := (a.toNat * 256 + b.toNat) * 256 + c.toNat
    digitOf (n / 262144) :: digitOf (n / 4096 % 64) :: digitOf (n / 64 % 64) :: digitOf (n % 64) ::
      encodeChars rest

def encode (bytes : List UInt8) : String :=
  String.ofList (encodeChars bytes)

def decodeChars : List Char → Option (List UInt8)
  | [] => some []
  | [w, x, '=', '='] => do
    let n := (← valueOf? w) * 64 + (← valueOf? x)
    if n % 16 = 0 then some [UInt8.ofNat (n / 16)] else none
  | [w, x, y, '='] => do
    let n := ((← valueOf? w) * 64 + (← valueOf? x)) * 64 + (← valueOf? y)
    if n % 4 = 0 then some [UInt8.ofNat (n / 1024), UInt8.ofNat (n / 4 % 256)] else none
  | w :: x :: y :: z :: rest => do
    let n := (((← valueOf? w) * 64 + (← valueOf? x)) * 64 + (← valueOf? y)) * 64 + (← valueOf? z)
    let tail ← decodeChars rest
    some (UInt8.ofNat (n / 65536) :: UInt8.ofNat (n / 256 % 256) :: UInt8.ofNat (n % 256) :: tail)
  | _ => none

def decode? (s : String) : Option (List UInt8) :=
  decodeChars s.toList

end EventWorker.Text.Base64

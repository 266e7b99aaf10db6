import MultiDevice.Bytes.Endian

/-!
# Byte strings as text

Two written forms of a byte string: two lower-case hexadecimal digits a byte (`hex`), and four
characters for every three bytes, padded with `=` (`base64`).
-/

namespace MultiDevice.Bytes

/-- The digit of a number below sixteen. -/
def hexDigit (n : Nat) : Char := "0123456789abcdef".toList.getD n '0'

/-- Two lower-case hexadecimal digits for every byte. -/
def hex (bs : Bytes) : String :=
  String.ofList (bs.flatMap fun b => [hexDigit (b.toNat / 16), hexDigit (b.toNat % 16)])

/-- The character of a number below sixty-four. -/
def base64Digit (n : Nat) : Char :=
  "ABCDEFGHIJKLMNOPQRSTUVWXYZabcdefghijklmnopqrstuvwxyz0123456789+/".toList.getD n 'A'

/-- The characters of `base64`: each group of three bytes is cut into four numbers of six bits; a
last group of one or two bytes is filled up with zero bits and padded with `=`. -/
def base64Chars : Bytes → List Char
  | [] => []
  | [a] =>
    let n := a.toNat * 16
    [base64Digit (n / 64), base64Digit (n % 64), '=', '=']
  | [a, b] =>
    let n := (a.toNat * 256 + b.toNat) * 4
    [base64Digit (n / 4096), base64Digit (n / 64 % 64), base64Digit (n % 64), '=']
  | a :: b :: c :: rest =>
    let n := (a.toNat * 256 + b.toNat) * 256 + c.toNat
    base64Digit (n / 262144) :: base64Digit (n / 4096 % 64) :: base64Digit (n / 64 % 64) ::
      base64Digit (n % 64) :: base64Chars rest

/-- Four characters for every three bytes, padded with `=`. -/
def base64 (bs : Bytes) : String := String.ofList (base64Chars bs)

end MultiDevice.Bytes

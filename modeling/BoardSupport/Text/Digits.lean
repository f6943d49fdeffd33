/-! Numbers as text: decimal, and lower-case hexadecimal. -/
namespace BoardSupport.Text

/-- The lower-case hexadecimal digit of value `d`, for `d` below 16. -/
def hexDigit (d : Nat) : Char := Char.ofNat (if d < 10 then 48 + d else 87 + d)

/-- The digits of `n`, without leading zeros; zero has one digit. -/
def hex (n : Nat) : String := String.ofList (Nat.toDigits 16 n)

/-- The digits of `n`, with zeros in front to make at least `width`. -/
def hexPadded (width n : Nat) : String :=
  let digits := Nat.toDigits 16 n
  String.ofList (List.replicate (width - digits.length) '0' ++ digits)

/-- The digits of `n` after a `0x`. -/
def hexMarked (n : Nat) : String := "0x" ++ hex n

/-- Two digits for each byte, without separators. -/
def hexBytes (bytes : List UInt8) : String :=
  String.ofList (bytes.flatMap fun b => [hexDigit (b.toNat / 16), hexDigit (b.toNat % 16)])

/-- The UTF-8 bytes of a text. -/
def bytes (s : String) : List UInt8 := s.toByteArray.data.toList

end BoardSupport.Text

import BoardSupport.Text.Quoted

/-! Bytes read as UTF-8, with the bytes that spell no character kept apart. -/
namespace BoardSupport.Text.Utf8

/-- A part of decoded bytes. -/
inductive Piece
  | char (c : Char)
  /-- Bytes that start no character, or one that is not finished as it should be. -/
  | stray (bytes : List UInt8)
  deriving DecidableEq, Repr

/-- A character of which some bytes have come: those bytes, what they stand for, how many more are
needed, and the range that the next must lie in. -/
structure Partial where
  seen : List UInt8
  value : Nat
  missing : Nat
  low : UInt8
  high : UInt8

/-- What the first byte of a character leads to. -/
def lead (b : UInt8) : Piece ⊕ Partial :=
  let n := b.toNat
  if n < 0x80 then .inl (.char (Char.ofNat n))
  else if 0xC2 ≤ n ∧ n ≤ 0xDF then .inr ⟨[b], n % 32, 1, 0x80, 0xBF⟩
  else if n = 0xE0 then .inr ⟨[b], 0, 2, 0xA0, 0xBF⟩
  else if n = 0xED then .inr ⟨[b], 13, 2, 0x80, 0x9F⟩
  else if 0xE1 ≤ n ∧ n ≤ 0xEF then .inr ⟨[b], n % 16, 2, 0x80, 0xBF⟩
  else if n = 0xF0 then .inr ⟨[b], 0, 3, 0x90, 0xBF⟩
  else if n = 0xF4 then .inr ⟨[b], 4, 3, 0x80, 0x8F⟩
  else if 0xF1 ≤ n ∧ n ≤ 0xF3 then .inr ⟨[b], n % 8, 3, 0x80, 0xBF⟩
  else .inl (.stray [b])

/-- Takes the next byte of a character, if it can be one. -/
def Partial.extend (p : Partial) (b : UInt8) : Option (Piece ⊕ Partial) :=
  if p.low ≤ b ∧ b ≤ p.high then
    let value := p.value * 64 + b.toNat % 64
    if p.missing ≤ 1 then some (.inl (.char (Char.ofNat value)))
    else some (.inr ⟨p.seen ++ [b], value, p.missing - 1, 0x80, 0xBF⟩)
  else none

/-- Decodes bytes after the start of a character, if one was left open. -/
def decodeAfter : Option Partial → List UInt8 → List Piece
  | none, [] => []
  | some p, [] => [.stray p.seen]
  | none, b :: rest =>
    match lead b with
    | .inl piece => piece :: decodeAfter none rest
    | .inr p => decodeAfter (some p) rest
  | some p, b :: rest =>
    match p.extend b with
    | some (.inl piece) => piece :: decodeAfter none rest
    | some (.inr p) => decodeAfter (some p) rest
    | none =>
      .stray p.seen :: match lead b with
        | .inl piece => piece :: decodeAfter none rest
        | .inr p => decodeAfter (some p) rest

def decode (bytes : List UInt8) : List Piece := decodeAfter none bytes

/-- The text that bytes spell, if they spell one. -/
def read? (bytes : List UInt8) : Option String :=
  String.fromUTF8? ⟨bytes.toArray⟩

/-- The text that bytes spell, with a replacement character for each run that spells none. -/
def readLossy (bytes : List UInt8) : String :=
  let shown : Piece → Char
    | .char c => c
    | .stray _ => '\ufffd'
  String.ofList ((decode bytes).map shown)

/-- Bytes between double quotes. What spells no character appears as numbers. -/
def quoted (bytes : List UInt8) : String :=
  let piece : Piece → String
    | .char c => escape c
    | .stray bytes => String.join (bytes.map fun b => "\\x" ++ (hexPadded 2 b.toNat).toUpper)
  "\"" ++ String.join ((decode bytes).map piece) ++ "\""

end BoardSupport.Text.Utf8

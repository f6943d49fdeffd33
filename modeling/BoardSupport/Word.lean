/-! Single bits of 32-bit words, and words as four bytes in either order. -/
namespace BoardSupport.Word

/-- Bit `n` of `word` as 0 or 1. Bits past the top are 0. -/
def bit (word n : UInt32) : UInt32 := if n < 32 then (word >>> n) &&& 1 else 0

/-- The four bytes of a word, least significant first. -/
def toLittleEndian (word : UInt32) : List UInt8 :=
  [word.toUInt8, (word >>> 8).toUInt8, (word >>> 16).toUInt8, (word >>> 24).toUInt8]

/-- The four bytes of a word, most significant first. -/
def toBigEndian (word : UInt32) : List UInt8 := (toLittleEndian word).reverse

/-- The word whose bytes are `b0` to `b3`, least significant first. -/
def ofLittleEndian (b0 b1 b2 b3 : UInt8) : UInt32 :=
  b0.toUInt32 ||| b1.toUInt32 <<< 8 ||| b2.toUInt32 <<< 16 ||| b3.toUInt32 <<< 24

/-- The word whose bytes are `b0` to `b3`, most significant first. -/
def ofBigEndian (b0 b1 b2 b3 : UInt8) : UInt32 := ofLittleEndian b3 b2 b1 b0

end BoardSupport.Word

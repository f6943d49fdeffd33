/-! Glyphs of five columns by seven rows for the printable ASCII characters, stored by column
with the top pixel in bit 0. -/
namespace BoardSupport.Font

/-- The columns of each printable character, from the space to the tilde. -/
def strokes : Vector (Vector UInt8 5) 95 := #v[
  #v[0x00, 0x00, 0x00, 0x00, 0x00],  -- space
  #v[0x00, 0x00, 0x5F, 0x00, 0x00],  -- !
  #v[0x00, 0x07, 0x00, 0x07, 0x00],  -- "
  #v[0x14, 0x7F, 0x14, 0x7F, 0x14],  -- #
  #v[0x24, 0x2A, 0x7F, 0x2A, 0x12],  -- $
  #v[0x23, 0x13, 0x08, 0x64, 0x62],  -- %
  #v[0x36, 0x49, 0x55, 0x22, 0x50],  -- &
  #v[0x00, 0x05, 0x03, 0x00, 0x00],  -- '
  #v[0x00, 0x1C, 0x22, 0x41, 0x00],  -- (
  #v[0x00, 0x41, 0x22, 0x1C, 0x00],  -- )
  #v[0x08, 0x2A, 0x1C, 0x2A, 0x08],  -- *
  #v[0x08, 0x08, 0x3E, 0x08, 0x08],  -- +
  #v[0x00, 0x50, 0x30, 0x00, 0x00],  -- ,
  #v[0x08, 0x08, 0x08, 0x08, 0x08],  -- -
  #v[0x00, 0x60, 0x60, 0x00, 0x00],  -- .
  #v[0x20, 0x10, 0x08, 0x04, 0x02],  -- /
  #v[0x3E, 0x51, 0x49, 0x45, 0x3E],  -- 0
  #v[0x00, 0x42, 0x7F, 0x40, 0x00],  -- 1
  #v[0x42, 0x61, 0x51, 0x49, 0x46],  -- 2
  #v[0x21, 0x41, 0x45, 0x4B, 0x31],  -- 3
  #v[0x18, 0x14, 0x12, 0x7F, 0x10],  -- 4
  #v[0x27, 0x45, 0x45, 0x45, 0x39],  -- 5
  #v[0x3C, 0x4A, 0x49, 0x49, 0x30],  -- 6
  #v[0x01, 0x71, 0x09, 0x05, 0x03],  -- 7
  #v[0x36, 0x49, 0x49, 0x49, 0x36],  -- 8
  #v[0x06, 0x49, 0x49, 0x29, 0x1E],  -- 9
  #v[0x00, 0x36, 0x36, 0x00, 0x00],  -- :
  #v[0x00, 0x56, 0x36, 0x00, 0x00],  -- ;
  #v[0x00, 0x08, 0x14, 0x22, 0x41],  -- <
  #v[0x14, 0x14, 0x14, 0x14, 0x14],  -- =
  #v[0x41, 0x22, 0x14, 0x08, 0x00],  -- >
  #v[0x02, 0x01, 0x51, 0x09, 0x06],  -- ?
  #v[0x32, 0x49, 0x79, 0x41, 0x3E],  -- @
  #v[0x7E, 0x11, 0x11, 0x11, 0x7E],  -- A
  #v[0x7F, 0x49, 0x49, 0x49, 0x36],  -- B
  #v[0x3E, 0x41, 0x41, 0x41, 0x22],  -- C
  #v[0x7F, 0x41, 0x41, 0x22, 0x1C],  -- D
  #v[0x7F, 0x49, 0x49, 0x49, 0x41],  -- E
  #v[0x7F, 0x09, 0x09, 0x01, 0x01],  -- F
  #v[0x3E, 0x41, 0x41, 0x51, 0x32],  -- G
  #v[0x7F, 0x08, 0x08, 0x08, 0x7F],  -- H
  #v[0x00, 0x41, 0x7F, 0x41, 0x00],  -- I
  #v[0x20, 0x40, 0x41, 0x3F, 0x01],  -- J
  #v[0x7F, 0x08, 0x14, 0x22, 0x41],  -- K
  #v[0x7F, 0x40, 0x40, 0x40, 0x40],  -- L
  #v[0x7F, 0x02, 0x04, 0x02, 0x7F],  -- M
  #v[0x7F, 0x04, 0x08, 0x10, 0x7F],  -- N
  #v[0x3E, 0x41, 0x41, 0x41, 0x3E],  -- O
  #v[0x7F, 0x09, 0x09, 0x09, 0x06],  -- P
  #v[0x3E, 0x41, 0x51, 0x21, 0x5E],  -- Q
  #v[0x7F, 0x09, 0x19, 0x29, 0x46],  -- R
  #v[0x46, 0x49, 0x49, 0x49, 0x31],  -- S
  #v[0x01, 0x01, 0x7F, 0x01, 0x01],  -- T
  #v[0x3F, 0x40, 0x40, 0x40, 0x3F],  -- U
  #v[0x1F, 0x20, 0x40, 0x20, 0x1F],  -- V
  #v[0x7F, 0x20, 0x18, 0x20, 0x7F],  -- W
  #v[0x63, 0x14, 0x08, 0x14, 0x63],  -- X
  #v[0x03, 0x04, 0x78, 0x04, 0x03],  -- Y
  #v[0x61, 0x51, 0x49, 0x45, 0x43],  -- Z
  #v[0x00, 0x00, 0x7F, 0x41, 0x41],  -- [
  #v[0x02, 0x04, 0x08, 0x10, 0x20],  -- \
  #v[0x41, 0x41, 0x7F, 0x00, 0x00],  -- ]
  #v[0x04, 0x02, 0x01, 0x02, 0x04],  -- ^
  #v[0x40, 0x40, 0x40, 0x40, 0x40],  -- _
  #v[0x00, 0x01, 0x02, 0x04, 0x00],  -- `
  #v[0x20, 0x54, 0x54, 0x54, 0x78],  -- a
  #v[0x7F, 0x48, 0x44, 0x44, 0x38],  -- b
  #v[0x38, 0x44, 0x44, 0x44, 0x20],  -- c
  #v[0x38, 0x44, 0x44, 0x48, 0x7F],  -- d
  #v[0x38, 0x54, 0x54, 0x54, 0x18],  -- e
  #v[0x08, 0x7E, 0x09, 0x01, 0x02],  -- f
  #v[0x08, 0x14, 0x54, 0x54, 0x3C],  -- g
  #v[0x7F, 0x08, 0x04, 0x04, 0x78],  -- h
  #v[0x00, 0x44, 0x7D, 0x40, 0x00],  -- i
  #v[0x20, 0x40, 0x44, 0x3D, 0x00],  -- j
  #v[0x00, 0x7F, 0x10, 0x28, 0x44],  -- k
  #v[0x00, 0x41, 0x7F, 0x40, 0x00],  -- l
  #v[0x7C, 0x04, 0x18, 0x04, 0x78],  -- m
  #v[0x7C, 0x08, 0x04, 0x04, 0x78],  -- n
  #v[0x38, 0x44, 0x44, 0x44, 0x38],  -- o
  #v[0x7C, 0x14, 0x14, 0x14, 0x08],  -- p
  #v[0x08, 0x14, 0x14, 0x18, 0x7C],  -- q
  #v[0x7C, 0x08, 0x04, 0x04, 0x08],  -- r
  #v[0x48, 0x54, 0x54, 0x54, 0x20],  -- s
  #v[0x04, 0x3F, 0x44, 0x40, 0x20],  -- t
  #v[0x3C, 0x40, 0x40, 0x20, 0x7C],  -- u
  #v[0x1C, 0x20, 0x40, 0x20, 0x1C],  -- v
  #v[0x3C, 0x40, 0x30, 0x40, 0x3C],  -- w
  #v[0x44, 0x28, 0x10, 0x28, 0x44],  -- x
  #v[0x0C, 0x50, 0x50, 0x50, 0x3C],  -- y
  #v[0x44, 0x64, 0x54, 0x4C, 0x44],  -- z
  #v[0x00, 0x08, 0x36, 0x41, 0x00],  -- {
  #v[0x00, 0x00, 0x7F, 0x00, 0x00],  -- |
  #v[0x00, 0x41, 0x36, 0x08, 0x00],  -- }
  #v[0x08, 0x04, 0x08, 0x10, 0x08]  -- ~
]

def blank : Vector UInt8 8 := #v[0, 0, 0, 0, 0, 0, 0, 0]

def solid : Vector UInt8 8 := #v[0xFF, 0xFF, 0xFF, 0xFF, 0xFF, 0xFF, 0xFF, 0xFF]

/-- The cell of a character: its strokes with one dark column before and two after. Zero, which
a cleared terminal holds, is blank, and a character without strokes is solid. -/
def glyph (c : UInt8) : Vector UInt8 8 :=
  if c = 0 then blank
  else if h : 32 ≤ c.toNat ∧ c.toNat ≤ 126 then
    let s := strokes[c.toNat - 32]
    #v[0, s[0], s[1], s[2], s[3], s[4], 0, 0]
  else solid

end BoardSupport.Font

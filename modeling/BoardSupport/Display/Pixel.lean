import BoardSupport.Bus

/-! The framebuffer of 640 by 480 pixels. Each pixel is a word of 24-bit colour, and rows are padded
to 4096 bytes so that an address takes a shift rather than a product. -/
namespace BoardSupport

/-- A framebuffer that starts at `base`. -/
structure PixelDisplay where
  base : Address

namespace PixelDisplay

def width : Nat := 640

def height : Nat := 480

/-- The byte offset of a pixel from the start of the framebuffer. Products and sums past 64 bits
are refused; row bits shifted past the top are dropped. -/
def offset (x y : Nat) : Except Fault Nat :=
  if UInt64.size ≤ x * 4 then .error .mulOverflow
  else
    let sum := x * 4 + y <<< 12 % UInt64.size
    if UInt64.size ≤ sum then .error .addOverflow else .ok sum

/-- The address of a pixel, unless it lies past the last one. -/
def address (d : PixelDisplay) (x y : Nat) : Except Fault Address := do
  let sum := d.base.toNat + (← offset x y)
  if UInt64.size ≤ sum then .error .addOverflow else .ok (UInt64.ofNat sum)

/-- Sets one pixel. A place off the screen is ignored. -/
def set (d : PixelDisplay) (x y : Nat) (colour : UInt32) : Program Bus Unit :=
  if x < width ∧ y < height then do
    Bus.store (← Program.ofExcept (d.address x y)) colour
  else return ()

/-- Sets each pixel to what `colour` says of its column, row by row. -/
def paint (d : PixelDisplay) (colour : Nat → UInt32) : Program Bus Unit :=
  (List.range height).forM fun y => (List.range width).forM fun x => d.set x y (colour x)

def clear (d : PixelDisplay) (colour : UInt32) : Program Bus Unit := d.paint fun _ => colour

end PixelDisplay

end BoardSupport

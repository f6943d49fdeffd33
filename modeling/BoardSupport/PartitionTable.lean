import BoardSupport.Text.Described
import BoardSupport.Word

/-! The partition table in block 0 of a card. -/
namespace BoardSupport

/-- The block does not end with `55 AA`. -/
inductive PartitionError
  | badSignature (found : UInt16)
  deriving DecidableEq, Repr

instance : Text.Describe PartitionError where
  describe
    | .badSignature found => .fields "BadSignature" [("found", .number found.toNat)]

structure Partition where
  /-- `0x80` on the partition to start from. -/
  status : UInt8
  /-- What the partition holds; zero in an unused slot. -/
  kind : UInt8
  firstBlock : UInt32
  blocks : UInt32
  deriving DecidableEq, Repr

namespace Partition

/-- A slot that is not used. -/
def blank : Partition := ⟨0, 0, 0, 0⟩

def isUsed (p : Partition) : Bool := p.kind != 0

def isBootable (p : Partition) : Bool := p.status &&& 0x80 != 0

/-- One of the kinds of FAT partition. -/
def isFat (p : Partition) : Bool := p.kind ∈ [0x01, 0x04, 0x06, 0x0B, 0x0C, 0x0E]

instance : Text.Describe Partition where
  describe p := .fields "Partition" [("status", .number p.status.toNat),
    ("kind", .number p.kind.toNat), ("first_lba", .number p.firstBlock.toNat),
    ("sectors", .number p.blocks.toNat)]

end Partition

/-- A slot as it lies in memory. The two words are there as their bytes. -/
structure RawPartition where
  status : UInt8
  /-- Cylinder, head and sector of its first block and, further on, of its last; nothing reads them. -/
  chsFirst : Vector UInt8 3
  kind : UInt8
  chsLast : Vector UInt8 3
  firstBlock : Vector UInt8 4
  blocks : Vector UInt8 4

namespace RawPartition

def size : Nat := 16

/-- The fields follow each other in this order, without a gap. -/
def bytes (r : RawPartition) : List UInt8 :=
  [r.status] ++ r.chsFirst.toList ++ [r.kind] ++ r.chsLast.toList ++ r.firstBlock.toList ++ r.blocks.toList

end RawPartition

namespace PartitionTable

/-- How bytes are looked at without being copied. -/
structure View where
  /-- Bytes as slots one after the other, if they make up some. -/
  slots : List UInt8 → Option (List RawPartition)
  /-- The word that four bytes stand for. -/
  word : Vector UInt8 4 → UInt32

namespace View

/-- What a slot holds. -/
def partition (v : View) (r : RawPartition) : Partition where
  status := r.status
  kind := r.kind
  firstBlock := v.word r.firstBlock
  blocks := v.word r.blocks

/-- Bytes as slots, sixteen for each. -/
def packedSlots : List UInt8 → Option (List RawPartition)
  | [] => some []
  | status :: f0 :: f1 :: f2 :: kind :: l0 :: l1 :: l2 :: a0 :: a1 :: a2 :: a3 :: b0 :: b1 :: b2 :: b3 :: rest =>
    (packedSlots rest).map
      (⟨status, #v[f0, f1, f2], kind, #v[l0, l1, l2], #v[a0, a1, a2, a3], #v[b0, b1, b2, b3]⟩ :: ·)
  | _ => none

/-- Bytes that make up whole slots are viewed as these, and words have their least significant byte
first. -/
def packed : View where
  slots := packedSlots
  word b := Word.ofLittleEndian b[0] b[1] b[2] b[3]

end View

/-- Bytes as a block; zeros make up for any that are missing. -/
def blockOf (bytes : List UInt8) : Vector UInt8 512 :=
  let array := bytes.toArray
  Vector.ofFn fun i => array.getD i 0

/-- Where a block's table of four slots starts, and how many bytes it takes up. -/
def tableOffset : Nat := 446

def tableSize : Nat := 64

def tableBytes (block : Vector UInt8 512) : List UInt8 := (block.toList.drop tableOffset).take tableSize

/-- The first slots with what has been read for them. -/
def fillSlots (table : Vector Partition 4) (read : List Partition) : Vector Partition 4 :=
  Vector.ofFn fun i => read[i.val]?.getD (table.get i)

/-- The four slots of a block that is signed, read through a view. Slots that are not viewed are blank. -/
def parseWith (v : View) (block : Vector UInt8 512) : Except PartitionError (Vector Partition 4) :=
  if block[510] = 0x55 ∧ block[511] = 0xAA then
    let table := Vector.replicate 4 Partition.blank
    match v.slots (tableBytes block) with
    | some raws => .ok (fillSlots table (raws.map v.partition))
    | none => .ok table
  else .error (.badSignature (block[510].toUInt16 <<< 8 ||| block[511].toUInt16))

def parse (block : Vector UInt8 512) : Except PartitionError (Vector Partition 4) := parseWith .packed block

def used (table : Vector Partition 4) : List Partition := table.toList.filter Partition.isUsed

end PartitionTable

end BoardSupport

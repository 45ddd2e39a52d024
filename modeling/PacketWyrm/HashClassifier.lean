import PacketWyrm.MatchKey
import PacketWyrm.Lib.Bits

/-!
# The hash exact-match classifier

`pw_hash_classifier`: a masked key of eleven words is folded to one word,
multiplied by the seed, and the top bits of the product select the one bucket
that is read and compared.

## Main definitions

* `assemble` — the eleven key words of a parsed header.
* `HashTables` — seed, global mask and buckets.
* `HashTables.lookup` — the registered result of the lookup.
-/

namespace PacketWyrm

open Lib

/-- The 352-bit key, word 0 least significant. -/
abbrev HashKey := BitVec (11 * 32)

/-- `assemble`, word by word. -/
def assembleWords (k : PwMatchKey) : Fin 11 → BitVec 32 :=
  let l3dst : BitVec 128 := if k.isIpv6 then k.ipv6Dst else 0#96 ++ k.ipv4Dst
  let l3src : BitVec 128 := if k.isIpv6 then k.ipv6Src else 0#96 ++ k.ipv4Src
  fun i => match i with
    | 0 => l3dst.extractLsb' 0 32
    | 1 => l3dst.extractLsb' 32 32
    | 2 => l3dst.extractLsb' 64 32
    | 3 => l3dst.extractLsb' 96 32
    | 4 => l3src.extractLsb' 0 32
    | 5 => l3src.extractLsb' 32 32
    | 6 => l3src.extractLsb' 64 32
    | 7 => l3src.extractLsb' 96 32
    | 8 => k.l4Src ++ k.l4Dst
    | 9 => 0#3 ++ BitVec.ofBool k.innerVlanValid ++ k.vlanId ++ k.ethertype
    | 10 => 0#24 ++ k.l3Proto

/-- `assemble`: the key of a parsed header. -/
def assemble (k : PwMatchKey) : HashKey := packWords (assembleWords k)

/-- `fold`: the exclusive or of the key's words. -/
def fold (mkey : HashKey) : BitVec 32 :=
  (List.finRange 11).foldl (fun k32 i => k32 ^^^ wordAt mkey i) 0

/-- `mulshift`: the top seven bits of the product with the odd seed. -/
def mulshift (k32 seed : BitVec 32) : BitVec 7 :=
  (k32 * (seed ||| 1)).extractLsb' 25 7

/-- A bucket, with the checker slot in `lfw` bits. -/
structure HashBucket (lfw : ℕ) where
  valid : Bool := false
  key : HashKey := 0
  lfid : BitVec lfw := 0
  deriving DecidableEq

/-- Seed, global key mask and buckets. -/
structure HashTables (lfw : ℕ) where
  seed : BitVec 32
  mask : HashKey
  bucket : Fin 128 → HashBucket lfw

variable {lfw : ℕ}

/-- The table at configuration: no bucket is valid. -/
def HashTables.init : HashTables lfw := { seed := 0, mask := 0, bucket := fun _ => {} }

/-- The bucket a masked key selects. -/
def HashTables.index (t : HashTables lfw) (mkey : HashKey) : Fin 128 :=
  (mulshift (fold mkey) t.seed).toFin

/-- The lookup of a valid key: the slot of the selected bucket when the bucket
is valid and holds the masked key. -/
def HashTables.lookup (t : HashTables lfw) (k : PwMatchKey) : Option (BitVec lfw) :=
  let mkey := assemble k &&& t.mask
  let e := t.bucket (t.index mkey)
  if e.valid && e.key == mkey then some e.lfid else none

end PacketWyrm

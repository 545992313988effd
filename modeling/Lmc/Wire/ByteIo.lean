import Lmc.Wire.Basic

/-!
# Reading and writing byte slices

`ByteReader` is the slice that is still to be read, `ByteWriter` the number of bytes
still free in the destination together with the bytes already written. Every read and
write offsets the slice, so both are state machines over one value; a failed read is a
`PacketDecodeError`, a failed write an `EncodePanic`.
-/

namespace Lmc

/-! ## Big endian integers -/

/-- `u16::from_be` of the two bytes at the front of a slice. -/
def u16OfBe (hi lo : UInt8) : UInt16 := UInt16.ofNat (hi.toNat * 256 + lo.toNat)

/-- The two bytes of `BigEndian::from_native`. -/
def u16ToBe (v : UInt16) : List UInt8 :=
  [UInt8.ofNat (v.toNat / 256), UInt8.ofNat (v.toNat % 256)]

@[simp] theorem length_u16ToBe (v : UInt16) : (u16ToBe v).length = 2 := rfl

theorem u16OfBe_toBe (v : UInt16) :
    u16OfBe (UInt8.ofNat (v.toNat / 256)) (UInt8.ofNat (v.toNat % 256)) = v := by
  have hv : v.toNat < 65536 := v.toNat_lt
  apply UInt16.toNat_inj.mp
  simp only [u16OfBe, UInt16.toNat_ofNat', UInt8.toNat_ofNat']
  omega

/-! ## `ByteReader` -/

/-- A computation on a `ByteReader`. -/
abbrev ReadM := EStateM PacketDecodeError (List UInt8)

namespace ByteReader

def readU8 : ReadM UInt8 := do
  match ← get with
  | [] => throw .reachedEndUnexpectedly
  | b :: rest =>
    set rest
    return b

/-- `read_trivial::<T>` where `size` is `size_of::<T>()`. -/
def readTrivial (size : Nat) : ReadM (List UInt8) := do
  let bytes ← get
  if bytes.length < size then
    throw .reachedEndUnexpectedly
  else
    set (bytes.drop size)
    return bytes.take size

/-- `read_u16` followed by `to_native`. -/
def readU16 : ReadM UInt16 := do
  match ← readTrivial 2 with
  | [hi, lo] => return u16OfBe hi lo
  | _ => throw .reachedEndUnexpectedly

def readByteArray : ReadM (List UInt8) := do
  let len := (← readU16).toNat
  let bytes ← get
  if bytes.length < len then
    throw .reachedEndUnexpectedly
  else
    set (bytes.drop len)
    return bytes.take len

def readUtf8 : ReadM Str := do
  match fromUtf8 (← readByteArray) with
  | some s => return s
  | none => throw .utf8Error

def remaining : ReadM Nat := do
  return (← get).length

def readRemaining : ReadM (List UInt8) := do
  let bytes ← get
  set ([] : List UInt8)
  return bytes

end ByteReader

/-! ## `ByteWriter` -/

structure ByteWriter where
  /-- Length of the slice that is still uninitialised. -/
  space : Nat
  /-- The bytes written so far. -/
  written : List UInt8

/-- A computation on a `ByteWriter`. -/
abbrev WriteM := EStateM EncodePanic ByteWriter

namespace ByteWriter

/-- The common part of every write: check the space, copy the bytes, offset the slice. -/
def writeTrivial (data : List UInt8) : WriteM Unit := do
  let wr ← get
  if wr.space < data.length then
    throw .notEnoughSpace
  else
    set (⟨wr.space - data.length, wr.written ++ data⟩ : ByteWriter)

def writeU8 (byte : UInt8) : WriteM Unit := writeTrivial [byte]

def writeU16 (v : UInt16) : WriteM Unit := writeTrivial (u16ToBe v)

def writeBytes (bytes : List UInt8) : WriteM Unit :=
  if bytes.length > 65535 then
    throw .arrayTooWide
  else
    writeTrivial (u16ToBe (UInt16.ofNat bytes.length) ++ bytes)

def writeBytesNoLen (bytes : List UInt8) : WriteM Unit := writeTrivial bytes

def finishAndCheck : WriteM Unit := do
  if (← get).space > 0 then throw .uninitializedBytes

end ByteWriter

end Lmc

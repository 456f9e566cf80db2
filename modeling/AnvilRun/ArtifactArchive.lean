import AnvilRun.ArtifactsService
import AnvilRun.Utf8
import AnvilRun.ZipFormat
import Mathlib.Data.BitVec

namespace AnvilRun.ArtifactArchive

open AnvilRun.ZipFormat
open JsString

/-- The error of a buffer that is to hold a number out of its range. -/
inductive RangeError where
  | outOfRange
  deriving DecidableEq

abbrev Buffer := List UInt8

/-! `crc32Update` -/

/-- A round of the inner loop. -/
def crc32Bit (value : BitVec 32) : BitVec 32 :=
  (value >>> 1) ^^^ (if value &&& 1 ≠ 0 then 0xedb88320 else 0)

def crc32Byte (value : BitVec 32) (byte : UInt8) : BitVec 32 :=
  crc32Bit^[8] (value ^^^ byte.toBitVec.zeroExtend 32)

def crc32Update (crc : BitVec 32) (chunk : Buffer) : BitVec 32 :=
  chunk.foldl crc32Byte (crc ^^^ 0xffffffff) ^^^ 0xffffffff

/-! The headers -/

def u16 (value : Nat) : Except RangeError Buffer :=
  if value ≤ 0xffff then .ok (le16 value) else .error .outOfRange

def u32 (value : Nat) : Except RangeError Buffer :=
  .ok (le32 (value % 0x100000000))

/-- `Buffer.concat`. -/
def concat : List (Except RangeError Buffer) → Except RangeError Buffer
  | [] => .ok []
  | part :: parts => do
      let bytes ← part
      let rest ← concat parts
      return bytes ++ rest

def zipLocalHeader (name : Buffer) : Except RangeError Buffer :=
  concat [
    u32 0x04034b50,
    u16 20,
    u16 0x808,
    u16 0,
    u16 0,
    u16 0,
    u32 0,
    u32 0,
    u32 0,
    u16 name.length,
    u16 0,
    .ok name]

def zipCentralHeader (name : Buffer) (crc size offset : Nat) : Except RangeError Buffer :=
  concat [
    u32 0x02014b50,
    u16 20,
    u16 20,
    u16 0x808,
    u16 0,
    u16 0,
    u16 0,
    u32 crc,
    u32 size,
    u32 size,
    u16 name.length,
    u16 0,
    u16 0,
    u16 0,
    u16 0,
    u32 0,
    u32 offset,
    .ok name]

def zipEnd (count directorySize directoryOffset : Nat) : Except RangeError Buffer :=
  concat [
    u32 0x06054b50,
    u16 0,
    u16 0,
    u16 count,
    u16 count,
    u32 directorySize,
    u32 directoryOffset,
    u16 0]

/-! `zipEntries` -/

/-- The characters that UTF-8 has for a string, with U+FFFD for a lone surrogate. -/
def scalarValues : JsString → List Char
  | [] => []
  | [u] => if isHighSurrogate u || isLowSurrogate u then ['\uFFFD'] else [unitChar u]
  | u :: v :: s =>
      if isHighSurrogate u && isLowSurrogate v then pairChar u v :: scalarValues s
      else if isHighSurrogate u || isLowSurrogate u then '\uFFFD' :: scalarValues (v :: s)
      else unitChar u :: scalarValues (v :: s)

/-- A file with the chunks that its stream yields. -/
structure ZipEntry where
  name : JsString
  chunks : List Buffer

/-- `Buffer.from(entry.name, 'utf8')`. -/
def ZipEntry.nameBytes (entry : ZipEntry) : Buffer :=
  Utf8.encode (scalarValues entry.name)

/-- The loop over the chunks, each of which is passed on. -/
def readChunks : List Buffer → BitVec 32 × Nat → BitVec 32 × Nat
  | [], sums => sums
  | chunk :: chunks, (crc, size) => readChunks chunks (crc32Update crc chunk, size + chunk.length)

/-- The loop over the files: what is yielded, the offset behind it, and the directory. -/
def zipFiles (offset : Nat) (central : List Buffer) :
    List ZipEntry → Except RangeError (List Buffer × Nat × List Buffer)
  | [] => .ok ([], offset, central)
  | entry :: entries => do
      let name := entry.nameBytes
      let header ← zipLocalHeader name
      let sums := readChunks entry.chunks (0, 0)
      let descriptor ← concat [u32 0x08074b50, u32 sums.1.toNat, u32 sums.2, u32 sums.2]
      let record ← zipCentralHeader name sums.1.toNat sums.2 offset
      let rest ← zipFiles (offset + header.length + sums.2 + descriptor.length)
        (central ++ [record]) entries
      return (header :: (entry.chunks ++ descriptor :: rest.1), rest.2)

/-- The buffers that the generator yields. -/
def zipEntries (entries : List ZipEntry) : Except RangeError (List Buffer) := do
  let (buffers, directoryOffset, central) ← zipFiles 0 [] entries
  let directory := central.flatten
  let endRecord ← zipEnd entries.length directory.length directoryOffset
  return buffers ++ [directory, endRecord]

end AnvilRun.ArtifactArchive

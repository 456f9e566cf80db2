import AnvilRun.Utf8
import Mathlib.Tactic.SplitIfs

/-! Reading a ZIP archive through its central directory -/

namespace AnvilRun.ZipFormat

/-! Numbers in little-endian order -/

def le16 (n : Nat) : List UInt8 :=
  [UInt8.ofNat n, UInt8.ofNat (n / 256)]

def le32 (n : Nat) : List UInt8 :=
  le16 n ++ le16 (n / 65536)

def take16 : List UInt8 → Option (Nat × List UInt8)
  | a :: b :: s => some (a.toNat + 256 * b.toNat, s)
  | _ => none

def take32 (s : List UInt8) : Option (Nat × List UInt8) := do
  let (low, s) ← take16 s
  let (high, s) ← take16 s
  some (low + 65536 * high, s)

def takeBytes (n : Nat) (s : List UInt8) : Option (List UInt8 × List UInt8) :=
  if n ≤ s.length then some (s.take n, s.drop n) else none

def expect32 (n : Nat) (s : List UInt8) : Option (List UInt8) := do
  let (m, s) ← take32 s
  if m = n then some s else none

@[simp]
theorem length_le16 (n : Nat) : (le16 n).length = 2 := rfl

@[simp]
theorem length_le32 (n : Nat) : (le32 n).length = 4 := rfl

@[simp]
theorem take16_le16 {n : Nat} (h : n < 0x10000) (s : List UInt8) :
    take16 (le16 n ++ s) = some (n, s) := by
  rw [le16, List.cons_append, List.cons_append, take16]
  congr 2
  simp only [UInt8.toNat_ofNat']
  omega

@[simp]
theorem take32_le32 {n : Nat} (h : n < 0x100000000) (s : List UInt8) :
    take32 (le32 n ++ s) = some (n, s) := by
  have hlow : le16 n = le16 (n % 65536) := by
    rw [le16, le16]
    congr 1
    · exact UInt8.toNat_inj.mp (by simp only [UInt8.toNat_ofNat']; omega)
    · congr 1
      exact UInt8.toNat_inj.mp (by simp only [UInt8.toNat_ofNat']; omega)
  rw [le32, List.append_assoc, hlow, take32, take16_le16 (by omega)]
  simp only [Option.bind_eq_bind, Option.bind_some, take16_le16 (by omega : n / 65536 < 0x10000)]
  congr 2
  omega

@[simp]
theorem takeBytes_append (bytes s : List UInt8) :
    takeBytes bytes.length (bytes ++ s) = some (bytes, s) := by
  rw [takeBytes, if_pos (by simp), List.take_left, List.drop_left]

@[simp]
theorem takeBytes_zero (s : List UInt8) : takeBytes 0 s = some ([], s) := rfl

@[simp]
theorem expect32_le32 {n : Nat} (h : n < 0x100000000) (s : List UInt8) :
    expect32 n (le32 n ++ s) = some s := by
  rw [expect32, take32_le32 h]
  simp

/-! A field in front of the rest of a parser -/

section Bind

variable {α : Type} {n : Nat}

theorem take16_bind (h : n < 0x10000) (s : List UInt8) (k : Nat × List UInt8 → Option α) :
    (take16 (le16 n ++ s) >>= k) = k (n, s) := by
  rw [take16_le16 h]
  rfl

theorem take32_bind (h : n < 0x100000000) (s : List UInt8) (k : Nat × List UInt8 → Option α) :
    (take32 (le32 n ++ s) >>= k) = k (n, s) := by
  rw [take32_le32 h]
  rfl

theorem expect32_bind (h : n < 0x100000000) (s : List UInt8) (k : List UInt8 → Option α) :
    (expect32 n (le32 n ++ s) >>= k) = k s := by
  rw [expect32_le32 h]
  rfl

theorem takeBytes_bind (bytes s : List UInt8) (k : List UInt8 × List UInt8 → Option α) :
    (takeBytes bytes.length (bytes ++ s) >>= k) = k (bytes, s) := by
  rw [takeBytes_append]
  rfl

end Bind

/-! The records of an archive -/

structure LocalHeader where
  flags : Nat
  method : Nat
  name : List UInt8
  deriving DecidableEq

def takeLocalHeader (s : List UInt8) : Option (LocalHeader × List UInt8) := do
  let s ← expect32 0x04034b50 s
  let (_version, s) ← take16 s
  let (flags, s) ← take16 s
  let (method, s) ← take16 s
  let (_time, s) ← take16 s
  let (_date, s) ← take16 s
  let (_crc, s) ← take32 s
  let (_compressedSize, s) ← take32 s
  let (_size, s) ← take32 s
  let (nameLength, s) ← take16 s
  let (extraLength, s) ← take16 s
  let (name, s) ← takeBytes nameLength s
  let (_extra, s) ← takeBytes extraLength s
  some (⟨flags, method, name⟩, s)

structure CentralHeader where
  flags : Nat
  method : Nat
  crc : Nat
  compressedSize : Nat
  size : Nat
  offset : Nat
  name : List UInt8
  deriving DecidableEq

def takeCentralHeader (s : List UInt8) : Option (CentralHeader × List UInt8) := do
  let s ← expect32 0x02014b50 s
  let (_madeBy, s) ← take16 s
  let (_version, s) ← take16 s
  let (flags, s) ← take16 s
  let (method, s) ← take16 s
  let (_time, s) ← take16 s
  let (_date, s) ← take16 s
  let (crc, s) ← take32 s
  let (compressedSize, s) ← take32 s
  let (size, s) ← take32 s
  let (nameLength, s) ← take16 s
  let (extraLength, s) ← take16 s
  let (commentLength, s) ← take16 s
  let (_disk, s) ← take16 s
  let (_internal, s) ← take16 s
  let (_external, s) ← take32 s
  let (offset, s) ← take32 s
  let (name, s) ← takeBytes nameLength s
  let (_extra, s) ← takeBytes extraLength s
  let (_comment, s) ← takeBytes commentLength s
  some (⟨flags, method, crc, compressedSize, size, offset, name⟩, s)

structure Descriptor where
  crc : Nat
  compressedSize : Nat
  size : Nat
  deriving DecidableEq

def takeDescriptor (s : List UInt8) : Option Descriptor := do
  let s ← expect32 0x08074b50 s
  let (crc, s) ← take32 s
  let (compressedSize, s) ← take32 s
  let (size, _) ← take32 s
  some ⟨crc, compressedSize, size⟩

structure EndRecord where
  count : Nat
  directorySize : Nat
  directoryOffset : Nat
  deriving DecidableEq

/-- The end record of an archive that is a single file without a comment. -/
def takeEndRecord (s : List UInt8) : Option EndRecord := do
  let s ← expect32 0x06054b50 s
  let (disk, s) ← take16 s
  let (directoryDisk, s) ← take16 s
  let (countHere, s) ← take16 s
  let (count, s) ← take16 s
  let (directorySize, s) ← take32 s
  let (directoryOffset, s) ← take32 s
  let (commentLength, s) ← take16 s
  if disk = 0 ∧ directoryDisk = 0 ∧ countHere = count ∧ commentLength = 0 ∧ s = [] then
    some ⟨count, directorySize, directoryOffset⟩
  else none

def endRecordSize : Nat := 22

def takeCentralHeaders : Nat → List UInt8 → Option (List CentralHeader × List UInt8)
  | 0, s => some ([], s)
  | n + 1, s => do
      let (header, s) ← takeCentralHeader s
      let (headers, s) ← takeCentralHeaders n s
      some (header :: headers, s)

/-- What the directory says of a file, with its content. -/
structure Member where
  path : List Char
  crc : Nat
  size : Nat
  offset : Nat
  content : List UInt8
  deriving DecidableEq

/-- A stored file with a name in UTF-8 and a data descriptor, which has to agree with the
directory. -/
def readMember (bytes : List UInt8) (header : CentralHeader) : Option Member := do
  let (localHeader, s) ← takeLocalHeader (bytes.drop header.offset)
  let (content, s) ← takeBytes header.compressedSize s
  let descriptor ← takeDescriptor s
  if header.method = 0 ∧ header.flags.testBit 3 = true ∧ header.flags.testBit 11 = true ∧
      localHeader = ⟨header.flags, header.method, header.name⟩ ∧
      descriptor = ⟨header.crc, header.compressedSize, header.size⟩ ∧
      header.size = content.length then
    some ⟨Utf8.decodeLossy header.name, header.crc, header.size, header.offset, content⟩
  else none

def readMembers (bytes : List UInt8) : List CentralHeader → Option (List Member)
  | [] => some []
  | header :: headers => do
      let member ← readMember bytes header
      let members ← readMembers bytes headers
      some (member :: members)

structure Archive where
  endRecord : EndRecord
  members : List Member
  deriving DecidableEq

/-- The directory lies in front of the end record, and holds exactly the headers of the files. -/
def readArchive (bytes : List UInt8) : Option Archive := do
  let endRecord ← takeEndRecord (bytes.drop (bytes.length - endRecordSize))
  let (headers, s) ← takeCentralHeaders endRecord.count (bytes.drop endRecord.directoryOffset)
  let members ← readMembers bytes headers
  if endRecord.directoryOffset + endRecord.directorySize + endRecordSize = bytes.length ∧
      s.length = endRecordSize then
    some ⟨endRecord, members⟩
  else none

end AnvilRun.ZipFormat

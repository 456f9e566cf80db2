import AnvilRun.ArtifactArchive.Checksum
import AnvilRun.ArtifactScan.Accepted
import AnvilRun.UnicodeText

namespace AnvilRun.ArtifactArchive

open AnvilRun.ZipFormat
open Fallible JsString

variable {name : Buffer} {crc size offset : Nat} {entry : ZipEntry} {entries : List ZipEntry}

/-! The headers -/

theorem u16_ok {n : Nat} (h : n < 0x10000) : u16 n = .ok (le16 n) :=
  if_pos (by omega)

theorem u32_ok {n : Nat} (h : n < 0x100000000) : u32 n = .ok (le32 n) := by
  rw [u32, Nat.mod_eq_of_lt h]

/-- No part of a buffer fails, so the parts stand one after another. -/
theorem concat_ok (parts : List Buffer) : concat (parts.map .ok) = .ok parts.flatten := by
  induction parts with
  | nil => rfl
  | cons part parts ih =>
      rw [List.map_cons, concat, ih]
      rfl

def localHeader (name : Buffer) : List Buffer :=
  [le32 0x04034b50, le16 20, le16 0x808, le16 0, le16 0, le16 0, le32 0, le32 0, le32 0,
    le16 name.length, le16 0, name]

def centralHeader (name : Buffer) (crc size offset : Nat) : List Buffer :=
  [le32 0x02014b50, le16 20, le16 20, le16 0x808, le16 0, le16 0, le16 0, le32 crc, le32 size,
    le32 size, le16 name.length, le16 0, le16 0, le16 0, le16 0, le32 0, le32 offset, name]

def descriptor (crc size : Nat) : List Buffer :=
  [le32 0x08074b50, le32 crc, le32 size, le32 size]

def endRecord (count directorySize directoryOffset : Nat) : List Buffer :=
  [le32 0x06054b50, le16 0, le16 0, le16 count, le16 count, le32 directorySize,
    le32 directoryOffset, le16 0]

theorem zipLocalHeader_ok (hname : name.length < 0x10000) :
    zipLocalHeader name = .ok (localHeader name).flatten := by
  rw [← concat_ok, zipLocalHeader, u16_ok hname]
  rfl

theorem zipCentralHeader_ok (hname : name.length < 0x10000) (hcrc : crc < 0x100000000)
    (hsize : size < 0x100000000) (hoffset : offset < 0x100000000) :
    zipCentralHeader name crc size offset = .ok (centralHeader name crc size offset).flatten := by
  rw [← concat_ok, zipCentralHeader, u16_ok hname, u32_ok hcrc, u32_ok hsize, u32_ok hoffset]
  rfl

theorem descriptor_ok (hcrc : crc < 0x100000000) (hsize : size < 0x100000000) :
    concat [u32 0x08074b50, u32 crc, u32 size, u32 size] = .ok (descriptor crc size).flatten := by
  rw [← concat_ok, u32_ok hcrc, u32_ok hsize]
  rfl

theorem zipEnd_ok {count directorySize directoryOffset : Nat} (hcount : count < 0x10000)
    (hsize : directorySize < 0x100000000) (hoffset : directoryOffset < 0x100000000) :
    zipEnd count directorySize directoryOffset =
      .ok (endRecord count directorySize directoryOffset).flatten := by
  rw [← concat_ok, zipEnd, u16_ok hcount, u32_ok hsize, u32_ok hoffset]
  rfl

theorem length_localHeader (name : Buffer) :
    (localHeader name).flatten.length = 30 + name.length := by
  simp only [localHeader, List.flatten_cons, List.flatten_nil, List.length_append, length_le16,
    length_le32, List.length_nil]
  omega

theorem length_centralHeader (name : Buffer) (crc size offset : Nat) :
    (centralHeader name crc size offset).flatten.length = 46 + name.length := by
  simp only [centralHeader, List.flatten_cons, List.flatten_nil, List.length_append, length_le16,
    length_le32, List.length_nil]
  omega

theorem length_descriptor (crc size : Nat) : (descriptor crc size).flatten.length = 16 := rfl

theorem length_endRecord (count directorySize directoryOffset : Nat) :
    (endRecord count directorySize directoryOffset).flatten.length = endRecordSize := rfl

-- One step for each field, in the order of the header.
theorem takeLocalHeader_append (hname : name.length < 0x10000) (s : List UInt8) :
    takeLocalHeader ((localHeader name).flatten ++ s) = some (⟨0x808, 0, name⟩, s) := by
  simp only [localHeader, List.flatten_cons, List.flatten_nil, List.append_nil, List.append_assoc]
  rw [takeLocalHeader, expect32_bind (by decide)]
  refine (take16_bind (by decide) _ _).trans ?_
  refine (take16_bind (by decide) _ _).trans ?_
  refine (take16_bind (by decide) _ _).trans ?_
  refine (take16_bind (by decide) _ _).trans ?_
  refine (take16_bind (by decide) _ _).trans ?_
  refine (take32_bind (by decide) _ _).trans ?_
  refine (take32_bind (by decide) _ _).trans ?_
  refine (take32_bind (by decide) _ _).trans ?_
  refine (take16_bind hname _ _).trans ?_
  refine (take16_bind (by decide) _ _).trans ?_
  refine (takeBytes_bind _ _ _).trans ?_
  rfl

theorem takeCentralHeader_append (hname : name.length < 0x10000) (hcrc : crc < 0x100000000)
    (hsize : size < 0x100000000) (hoffset : offset < 0x100000000) (s : List UInt8) :
    takeCentralHeader ((centralHeader name crc size offset).flatten ++ s) =
      some (⟨0x808, 0, crc, size, size, offset, name⟩, s) := by
  simp only [centralHeader, List.flatten_cons, List.flatten_nil, List.append_nil,
    List.append_assoc]
  rw [takeCentralHeader, expect32_bind (by decide)]
  refine (take16_bind (by decide) _ _).trans ?_
  refine (take16_bind (by decide) _ _).trans ?_
  refine (take16_bind (by decide) _ _).trans ?_
  refine (take16_bind (by decide) _ _).trans ?_
  refine (take16_bind (by decide) _ _).trans ?_
  refine (take16_bind (by decide) _ _).trans ?_
  refine (take32_bind hcrc _ _).trans ?_
  refine (take32_bind hsize _ _).trans ?_
  refine (take32_bind hsize _ _).trans ?_
  refine (take16_bind hname _ _).trans ?_
  refine (take16_bind (by decide) _ _).trans ?_
  refine (take16_bind (by decide) _ _).trans ?_
  refine (take16_bind (by decide) _ _).trans ?_
  refine (take16_bind (by decide) _ _).trans ?_
  refine (take32_bind (by decide) _ _).trans ?_
  refine (take32_bind hoffset _ _).trans ?_
  refine (takeBytes_bind _ _ _).trans ?_
  rfl

theorem takeDescriptor_append (hcrc : crc < 0x100000000) (hsize : size < 0x100000000)
    (s : List UInt8) :
    takeDescriptor ((descriptor crc size).flatten ++ s) = some ⟨crc, size, size⟩ := by
  simp only [descriptor, List.flatten_cons, List.flatten_nil, List.append_nil, List.append_assoc]
  rw [takeDescriptor, expect32_bind (by decide)]
  refine (take32_bind hcrc _ _).trans ?_
  refine (take32_bind hsize _ _).trans ?_
  exact take32_bind hsize _ _

theorem takeEndRecord_endRecord {count directorySize directoryOffset : Nat}
    (hcount : count < 0x10000) (hsize : directorySize < 0x100000000)
    (hoffset : directoryOffset < 0x100000000) :
    takeEndRecord (endRecord count directorySize directoryOffset).flatten =
      some ⟨count, directorySize, directoryOffset⟩ := by
  simp only [endRecord, List.flatten_cons, List.flatten_nil]
  rw [takeEndRecord, expect32_bind (by decide)]
  refine (take16_bind (by decide) _ _).trans ?_
  refine (take16_bind (by decide) _ _).trans ?_
  refine (take16_bind hcount _ _).trans ?_
  refine (take16_bind hcount _ _).trans ?_
  refine (take32_bind hsize _ _).trans ?_
  refine (take32_bind hoffset _ _).trans ?_
  refine (take16_bind (by decide) _ _).trans ?_
  exact if_pos ⟨rfl, rfl, rfl, rfl, rfl⟩

/-! The files -/

theorem toChars_scalarValues {s : JsString} {path : List Char} (h : toChars? s = some path) :
    scalarValues s = path := by
  fun_induction toChars? s generalizing path with
  | case1 => simp_all [scalarValues]
  | case2 => simp at h
  | case3 u hsurrogate =>
      rw [scalarValues, if_neg hsurrogate]
      exact Option.some.inj h
  | case4 u v s hpair ih =>
      obtain ⟨path, hpath, rfl⟩ := Option.map_eq_some_iff.mp h
      rw [scalarValues, if_pos hpair, ih hpath]
  | case5 => simp at h
  | case6 u v s hpair hsurrogate ih =>
      obtain ⟨path, hpath, rfl⟩ := Option.map_eq_some_iff.mp h
      rw [scalarValues, if_neg hpair, if_neg hsurrogate, ih hpath]

theorem scalarValues_ofChars (path : List Char) : scalarValues (ofChars path) = path :=
  toChars_scalarValues (toChars?_ofChars path)

theorem utf8Length_le : (s : JsString) → utf8Length s ≤ 3 * s.length
  | [] => Nat.zero_le _
  | [u] => by
      rw [utf8Length, List.length_singleton]
      split_ifs <;> omega
  | u :: v :: s => by
      have hpair := utf8Length_le s
      have hunit := utf8Length_le (v :: s)
      rw [List.length_cons] at hunit
      rw [utf8Length, List.length_cons, List.length_cons]
      split_ifs <;> omega

/-- The limits of the service on the paths and the content of the files. -/
structure WithinLimits (entries : List ZipEntry) : Prop where
  count : entries.length ≤ ArtifactsService.maxArtifactFiles
  bytes : (entries.map fun entry => entry.chunks.flatten.length).sum ≤
    ArtifactsService.maxArtifactBytes
  path : ∀ entry ∈ entries, entry.name.length ≤ 2048
  wellFormed : ∀ entry ∈ entries, ∃ path, entry.name = ofChars path

/-- What a header needs to know of a file. -/
structure Fits (entry : ZipEntry) : Prop where
  name : entry.nameBytes.length ≤ 6144
  size : entry.chunks.flatten.length < 0x100000000

theorem length_nameBytes_le {path : List Char} (hpath : entry.name = ofChars path)
    (h : entry.name.length ≤ 2048) : entry.nameBytes.length ≤ 6144 := by
  have hle := utf8Length_le (ofChars path)
  rw [ZipEntry.nameBytes, hpath, scalarValues_ofChars, ← utf8Length_ofChars]
  rw [hpath] at h
  omega

theorem WithinLimits.fits (h : WithinLimits entries) : ∀ entry ∈ entries, Fits entry := by
  intro entry hentry
  obtain ⟨path, hpath⟩ := h.wellFormed entry hentry
  have hle : entry.chunks.flatten.length ≤
      (entries.map fun entry => entry.chunks.flatten.length).sum :=
    List.single_le_sum (fun _ _ => Nat.zero_le _) _ (List.mem_map_of_mem hentry)
  have hbytes := h.bytes
  rw [ArtifactsService.maxArtifactBytes] at hbytes
  exact ⟨length_nameBytes_le hpath (h.path entry hentry), by omega⟩

/-! The archive -/

/-- What is written of a file in front of the next one. -/
def localRecord (entry : ZipEntry) : Buffer :=
  (localHeader entry.nameBytes).flatten ++ (entry.chunks.flatten ++
    (descriptor (crc32 entry.chunks.flatten).toNat entry.chunks.flatten.length).flatten)

def localRecords (entries : List ZipEntry) : Buffer :=
  entries.flatMap localRecord

def centralRecord (offset : Nat) (entry : ZipEntry) : Buffer :=
  (centralHeader entry.nameBytes (crc32 entry.chunks.flatten).toNat entry.chunks.flatten.length
    offset).flatten

def centralRecords (offset : Nat) : List ZipEntry → List Buffer
  | [] => []
  | entry :: entries =>
      centralRecord offset entry ::
        centralRecords (offset + (localRecord entry).length) entries

/-- A file as a reader is to find it. -/
def memberOf (offset : Nat) (entry : ZipEntry) : Member where
  path := scalarValues entry.name
  crc := (crc32 entry.chunks.flatten).toNat
  size := entry.chunks.flatten.length
  offset := offset
  content := entry.chunks.flatten

def membersFrom (offset : Nat) : List ZipEntry → List Member
  | [] => []
  | entry :: entries =>
      memberOf offset entry :: membersFrom (offset + (localRecord entry).length) entries

theorem length_localRecord (entry : ZipEntry) : (localRecord entry).length =
    46 + entry.nameBytes.length + entry.chunks.flatten.length := by
  rw [localRecord, List.length_append, List.length_append, length_localHeader, length_descriptor]
  omega

theorem localRecords_cons (entry : ZipEntry) (entries : List ZipEntry) :
    localRecords (entry :: entries) = localRecord entry ++ localRecords entries :=
  List.flatMap_cons

/-- A round of the loop in which no number is out of range. -/
theorem zipFiles_cons {header descriptor record : Buffer} {crc size : Nat}
    {rest : List Buffer × Nat × List Buffer} (central : List Buffer)
    (hsums : readChunks entry.chunks (0, 0) = (BitVec.ofNat 32 crc, size))
    (hcrc : crc < 0x100000000)
    (hheader : zipLocalHeader entry.nameBytes = .ok header)
    (hdescriptor : concat [u32 0x08074b50, u32 crc, u32 size, u32 size] = .ok descriptor)
    (hrecord : zipCentralHeader entry.nameBytes crc size offset = .ok record)
    (hrest : zipFiles (offset + header.length + size + descriptor.length) (central ++ [record])
      entries = .ok rest) :
    zipFiles offset central (entry :: entries) =
      .ok (header :: (entry.chunks ++ descriptor :: rest.1), rest.2) := by
  have htoNat : (BitVec.ofNat 32 crc).toNat = crc := by
    rw [BitVec.toNat_ofNat, Nat.mod_eq_of_lt (by omega)]
  rw [zipFiles, hheader, hsums]
  dsimp only [bind, Except.bind]
  rw [htoNat, hdescriptor, hrecord]
  dsimp only
  rw [hrest]
  rfl

/-- The loop writes the records of the files and collects those of the directory. -/
theorem zipFiles_ok (central : List Buffer) (hfits : ∀ entry ∈ entries, Fits entry)
    (hbound : offset + (localRecords entries).length < 0x100000000) :
    ∃ buffers, zipFiles offset central entries =
        .ok (buffers, offset + (localRecords entries).length,
          central ++ centralRecords offset entries) ∧
      buffers.flatten = localRecords entries := by
  induction entries generalizing offset central with
  | nil => exact ⟨[], by simp [zipFiles, localRecords, centralRecords], rfl⟩
  | cons entry entries ih =>
      rw [localRecords_cons, List.length_append] at hbound
      obtain ⟨hname, hsize⟩ := hfits entry List.mem_cons_self
      have hname : entry.nameBytes.length < 0x10000 := by omega
      have hcrc : (crc32 entry.chunks.flatten).toNat < 0x100000000 :=
        (crc32 entry.chunks.flatten).isLt
      have hsums : readChunks entry.chunks (0, 0) =
          (BitVec.ofNat 32 (crc32 entry.chunks.flatten).toNat, entry.chunks.flatten.length) := by
        rw [readChunks_zero, BitVec.ofNat_toNat, BitVec.setWidth_eq]
      have hoffset : offset + (localHeader entry.nameBytes).flatten.length +
          entry.chunks.flatten.length +
          (descriptor (crc32 entry.chunks.flatten).toNat
            entry.chunks.flatten.length).flatten.length =
          offset + (localRecord entry).length := by
        rw [length_localRecord, length_localHeader, length_descriptor]
        omega
      obtain ⟨buffers, hrest, hflatten⟩ :=
        @ih (offset + (localRecord entry).length) (central ++ [centralRecord offset entry])
          (fun other hother => hfits other (.tail _ hother)) (by omega)
      rw [← hoffset] at hrest
      have hstep := zipFiles_cons central hsums hcrc (zipLocalHeader_ok hname)
        (descriptor_ok hcrc hsize) (zipCentralHeader_ok hname hcrc hsize (by omega)) hrest
      refine ⟨(localHeader entry.nameBytes).flatten :: (entry.chunks ++
        (descriptor (crc32 entry.chunks.flatten).toNat
          entry.chunks.flatten.length).flatten :: buffers), ?_, ?_⟩
      · rw [hstep, hoffset, localRecords_cons, List.length_append, ← Nat.add_assoc,
          List.append_assoc, centralRecords, List.singleton_append]
      · rw [List.flatten_cons, List.flatten_append, List.flatten_cons, hflatten, localRecords_cons,
          localRecord, List.append_assoc, List.append_assoc]

/-! Reading -/

theorem takeCentralHeaders_append (hfits : ∀ entry ∈ entries, Fits entry)
    (hbound : offset + (localRecords entries).length < 0x100000000) (s : List UInt8) :
    takeCentralHeaders entries.length ((centralRecords offset entries).flatten ++ s) =
      some ((membersFrom offset entries).map fun member =>
        ⟨0x808, 0, member.crc, member.size, member.size, member.offset,
          Utf8.encode member.path⟩, s) := by
  induction entries generalizing offset with
  | nil => rfl
  | cons entry entries ih =>
      rw [localRecords_cons, List.length_append] at hbound
      obtain ⟨hname, hsize⟩ := hfits entry List.mem_cons_self
      have hhead := takeCentralHeader_append (by omega : entry.nameBytes.length < 0x10000)
        (crc32 entry.chunks.flatten).isLt hsize (by omega : offset < 0x100000000)
        ((centralRecords (offset + (localRecord entry).length) entries).flatten ++ s)
      have hrest := @ih (offset + (localRecord entry).length)
        (fun other hother => hfits other (.tail _ hother)) (by omega)
      rw [centralRecords, List.flatten_cons, List.append_assoc, centralRecord, List.length_cons,
        takeCentralHeaders, hhead]
      dsimp only [bind, Option.bind]
      rw [hrest]
      rfl

theorem readMember_eq {bytes s : Buffer} (hfits : Fits entry)
    (hdrop : bytes.drop offset = localRecord entry ++ s) :
    readMember bytes ⟨0x808, 0, (memberOf offset entry).crc, (memberOf offset entry).size,
      (memberOf offset entry).size, offset, entry.nameBytes⟩ = some (memberOf offset entry) := by
  obtain ⟨hname, hsize⟩ := hfits
  have hlocal := takeLocalHeader_append (by omega : entry.nameBytes.length < 0x10000)
    (entry.chunks.flatten ++ ((descriptor (crc32 entry.chunks.flatten).toNat
      entry.chunks.flatten.length).flatten ++ s))
  have hdescriptor := takeDescriptor_append (crc32 entry.chunks.flatten).isLt hsize s
  have hpath : Utf8.decodeLossy entry.nameBytes = scalarValues entry.name :=
    Utf8.decodeLossy_encode _
  rw [readMember, hdrop, localRecord, List.append_assoc, List.append_assoc, hlocal]
  refine (takeBytes_bind _ _ _).trans ?_
  dsimp only
  rw [hdescriptor]
  refine (if_pos ⟨rfl, rfl, rfl, rfl, rfl, rfl⟩).trans ?_
  rw [hpath]
  rfl

theorem readMembers_eq {bytes s : Buffer} (hfits : ∀ entry ∈ entries, Fits entry)
    (hdrop : bytes.drop offset = localRecords entries ++ s) :
    readMembers bytes ((membersFrom offset entries).map fun member =>
        ⟨0x808, 0, member.crc, member.size, member.size, member.offset,
          Utf8.encode member.path⟩) = some (membersFrom offset entries) := by
  induction entries generalizing offset with
  | nil => rfl
  | cons entry entries ih =>
      rw [localRecords_cons, List.append_assoc] at hdrop
      have hnext : bytes.drop (offset + (localRecord entry).length) = localRecords entries ++ s := by
        rw [← List.drop_drop, hdrop, List.drop_left]
      have hmember := readMember_eq (hfits entry List.mem_cons_self) hdrop
      have hrest := ih (fun other hother => hfits other (.tail _ hother)) hnext
      rw [membersFrom, List.map_cons, readMembers, hrest]
      erw [hmember]
      rfl

theorem length_centralRecords (hfits : ∀ entry ∈ entries, Fits entry) :
    (centralRecords offset entries).flatten.length ≤ 6190 * entries.length := by
  induction entries generalizing offset with
  | nil => exact Nat.le_refl 0
  | cons entry entries ih =>
      have hname := (hfits entry List.mem_cons_self).name
      have hrest := @ih (offset + (localRecord entry).length)
        fun other hother => hfits other (.tail _ hother)
      rw [centralRecords, List.flatten_cons, List.length_append, centralRecord,
        length_centralHeader, List.length_cons]
      omega

theorem length_localRecords (hfits : ∀ entry ∈ entries, Fits entry) :
    (localRecords entries).length ≤
      6190 * entries.length + (entries.map fun entry => entry.chunks.flatten.length).sum := by
  induction entries with
  | nil => exact Nat.le_refl 0
  | cons entry entries ih =>
      have hname := (hfits entry List.mem_cons_self).name
      have hrest := ih fun other hother => hfits other (.tail _ hother)
      rw [localRecords_cons, List.length_append, length_localRecord, List.map_cons, List.sum_cons,
        List.length_cons]
      omega

/-- What a reader is to find for a file. -/
structure IsMemberOf (bytes : Buffer) (member : Member) (entry : ZipEntry) : Prop where
  path : ofChars member.path = entry.name
  content : member.content = entry.chunks.flatten
  size : member.size = entry.chunks.flatten.length
  crc : member.crc < 0x100000000
  checksum : Crc.IsChecksum crc32Generator (contentBits entry.chunks.flatten)
    (BitVec.ofNat 32 member.crc)
  localHeader : (localHeader entry.nameBytes).flatten <+: bytes.drop member.offset

theorem isMemberOf_memberOf {bytes s : Buffer} {path : List Char}
    (hpath : entry.name = ofChars path) (hdrop : bytes.drop offset = localRecord entry ++ s) :
    IsMemberOf bytes (memberOf offset entry) entry := by
  constructor
  · rw [memberOf, hpath, scalarValues_ofChars]
  · rfl
  · rfl
  · exact (crc32 entry.chunks.flatten).isLt
  · rw [memberOf, BitVec.ofNat_toNat, BitVec.setWidth_eq]
    exact isChecksum_crc32 _
  · rw [memberOf, hdrop, localRecord, List.append_assoc]
    exact List.prefix_append _ _

theorem forall₂_membersFrom {bytes s : Buffer}
    (hpath : ∀ entry ∈ entries, ∃ path, entry.name = ofChars path)
    (hdrop : bytes.drop offset = localRecords entries ++ s) :
    List.Forall₂ (IsMemberOf bytes) (membersFrom offset entries) entries := by
  induction entries generalizing offset with
  | nil => exact .nil
  | cons entry entries ih =>
      rw [localRecords_cons, List.append_assoc] at hdrop
      have hnext : bytes.drop (offset + (localRecord entry).length) = localRecords entries ++ s := by
        rw [← List.drop_drop, hdrop, List.drop_left]
      obtain ⟨path, hentry⟩ := hpath entry List.mem_cons_self
      exact .cons (isMemberOf_memberOf hentry hdrop)
        (ih (fun other hother => hpath other (.tail _ hother)) hnext)

/-- The archive of files within the limits is read back through its directory. -/
theorem zipEntries_recovered (h : WithinLimits entries) :
    ∃ buffers archive, zipEntries entries = .ok buffers ∧
      readArchive buffers.flatten = some archive ∧
      archive.endRecord.count = entries.length ∧
      List.Forall₂ (IsMemberOf buffers.flatten) archive.members entries := by
  have hfits := h.fits
  have hcount := h.count
  have hbytes := h.bytes
  have hlocals := length_localRecords hfits
  have hcentrals := @length_centralRecords 0 _ hfits
  rw [ArtifactsService.maxArtifactFiles] at hcount
  rw [ArtifactsService.maxArtifactBytes] at hbytes
  obtain ⟨buffers, hfiles, hflatten⟩ := @zipFiles_ok 0 _ [] hfits (by omega)
  rw [Nat.zero_add, List.nil_append] at hfiles
  have hheaders := takeCentralHeaders_append hfits
    (by omega : 0 + (localRecords entries).length < 0x100000000)
  set directory := (centralRecords 0 entries).flatten with hdirectory
  set locals := localRecords entries
  have hend := zipEnd_ok (by omega : entries.length < 0x10000)
    (by omega : directory.length < 0x100000000) (by omega : locals.length < 0x100000000)
  set last := (endRecord entries.length directory.length locals.length).flatten with hlast
  have hlength : last.length = endRecordSize := length_endRecord _ _ _
  have hbuffers : zipEntries entries = .ok (buffers ++ [directory, last]) := by
    rw [zipEntries, hfiles]
    dsimp only [bind, Except.bind]
    rw [← hdirectory, hend]
    rfl
  have hbytes : (buffers ++ [directory, last]).flatten = locals ++ (directory ++ last) := by
    rw [List.flatten_append, hflatten, List.flatten_cons, List.flatten_cons, List.flatten_nil,
      List.append_nil]
  have hdropEnd : (locals ++ (directory ++ last)).drop
      ((locals ++ (directory ++ last)).length - endRecordSize) = last := by
    rw [← List.append_assoc, List.length_append, hlength, Nat.add_sub_cancel, List.drop_left]
  have hmembers := @readMembers_eq 0 entries (locals ++ (directory ++ last)) (directory ++ last)
    hfits rfl
  refine ⟨_, ⟨⟨entries.length, directory.length, locals.length⟩, membersFrom 0 entries⟩, hbuffers,
    ?_, rfl, ?_⟩
  · rw [hbytes, readArchive, hdropEnd, hlast, takeEndRecord_endRecord (by omega) (by omega)
      (by omega)]
    dsimp only [bind, Option.bind]
    rw [List.drop_left, ← hlast, hdirectory, hheaders]
    dsimp only
    rw [← hdirectory, hmembers]
    refine if_pos ⟨?_, hlength⟩
    rw [List.length_append, List.length_append, hlength]
    exact Nat.add_assoc _ _ _
  · rw [hbytes]
    exact @forall₂_membersFrom 0 entries (locals ++ (directory ++ last)) (directory ++ last)
      h.wellFormed rfl

/-- Two files, the first of them in two chunks. -/
def twoFiles : List ZipEntry :=
  [⟨ofString "lib/a.bin", [[1, 2], [3]]⟩, ⟨ofString "b.txt", []⟩]

theorem twoFiles_withinLimits : WithinLimits twoFiles := by
  refine ⟨by decide, by decide, ?_, ?_⟩
  · simp only [twoFiles, List.forall_mem_cons, List.not_mem_nil, IsEmpty.forall_iff, implies_true,
      and_true]
    decide
  · simp only [twoFiles, List.forall_mem_cons, List.not_mem_nil, IsEmpty.forall_iff, implies_true,
      and_true]
    exact ⟨⟨_, rfl⟩, ⟨_, rfl⟩⟩

theorem twoFiles_recovered :
    ∃ buffers archive, zipEntries twoFiles = .ok buffers ∧
      readArchive buffers.flatten = some archive ∧
      archive.endRecord.count = twoFiles.length ∧
      List.Forall₂ (IsMemberOf buffers.flatten) archive.members twoFiles :=
  zipEntries_recovered twoFiles_withinLimits

/-! What `validateManifest` admits is within the limits -/

open ArtifactsService (ArtifactHost ArtifactManifestEntry TaskArtifactManifestMessage
  validateManifest)

theorem length_of_servicePath {value path : JsString}
    (h : ArtifactsService.validateRelativePath value = .ok path) : value.length ≤ 2048 := by
  simp only [ArtifactsService.validateRelativePath, bind_eq_ok, ensure_eq_ok] at h
  obtain ⟨-, hlength, -⟩ := h
  exact hlength.2

/-- A stored file of a manifest, as it was announced. -/
structure IsStored (file : ArtifactManifestEntry) (entry : ZipEntry) : Prop where
  name : entry.name = file.relativePath
  size : entry.chunks.flatten.length = file.size

theorem exists_stored {files : List ArtifactManifestEntry}
    (h : List.Forall₂ IsStored files entries) :
    ∀ entry ∈ entries, ∃ file ∈ files, entry.name = file.relativePath := by
  induction h with
  | nil => exact nofun
  | cons hfile _ ih =>
      intro entry hentry
      rcases List.mem_cons.mp hentry with rfl | hentry
      · exact ⟨_, List.mem_cons_self, hfile.name⟩
      · obtain ⟨file, hmem, hname⟩ := ih entry hentry
        exact ⟨file, .tail _ hmem, hname⟩

theorem sizes_of_stored {files : List ArtifactManifestEntry}
    (h : List.Forall₂ IsStored files entries) :
    entries.map (fun entry => entry.chunks.flatten.length) =
      files.map ArtifactManifestEntry.size := by
  induction h with
  | nil => rfl
  | cons hfile _ ih => rw [List.map_cons, List.map_cons, hfile.size, ih]

theorem withinLimits_of_validateManifest {host : ArtifactHost}
    {message : TaskArtifactManifestMessage} {files : List ArtifactManifestEntry}
    (h : validateManifest host message = .ok files)
    (hstored : List.Forall₂ IsStored message.files entries)
    (hpath : ∀ file ∈ message.files, ∃ path, file.relativePath = ofChars path) :
    WithinLimits entries := by
  simp only [validateManifest, bind_eq_ok, ensure_eq_ok] at h
  obtain ⟨-, hmessage, sum, hsum, -⟩ := h
  obtain ⟨hfiles, -, hbound, -⟩ := (ArtifactScan.validateFiles_ok_iff host _ [] (Nat.zero_le _)
    sum).mp hsum
  constructor
  · rw [← hstored.length_eq]
    exact hmessage.2.2.2.2.1
  · rw [sizes_of_stored hstored]
    exact (Nat.zero_add _).symm.trans_le hbound
  · intro entry hmem
    obtain ⟨file, hfile, hname⟩ := exists_stored hstored entry hmem
    rw [hname]
    exact length_of_servicePath (hfiles file hfile).1.path
  · intro entry hmem
    obtain ⟨file, hfile, hname⟩ := exists_stored hstored entry hmem
    exact hname ▸ hpath file hfile

end AnvilRun.ArtifactArchive

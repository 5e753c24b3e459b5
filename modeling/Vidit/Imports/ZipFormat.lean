import Vidit.Imports.StripArchive

/-!
Contract: a ZIP file laid out as the format says, read back by the browser.

Owns:
- `ZipArchive`, the members of a file, where their headers lie, and the bytes of
  its directory and end records, the 64-bit ones where a field is full;
- `ReadsBack`, that `readCentralDirectory` reads its members back from those
  bytes, and that the copy takes the bytes of each member as they are.

Does not own: what a method makes of the bytes of a member.

Proof shape: a field is read where it lies (`Lies.readLe`), so a directory is
read entry by entry (`readEntries_encode`); the end record is the last place of
the tail with its signature (`findEocd_eq`).
-/

namespace Vidit.Imports

open Vidit.Python Vidit.Library
open Vidit.Maps (Bytes)

/-! ### The format -/

/-- A member: what the directory and its local header say of it, and its bytes as stored. -/
structure ZipMember where
  name : Bytes
  /-- The versions and the flags. -/
  versions : Bytes
  method : Nat
  stamp : Bytes
  crc : Nat
  usize : Nat
  data : Bytes
  /-- The disk and the attributes. -/
  attributes : Bytes
  headerOffset : Nat
  /-- The extra fields before the 64-bit one, and the bytes after it. -/
  extras : List (Nat × Bytes)
  trailing : Bytes
  comment : Bytes
  /-- The local header up to its lengths, and its own extra fields. -/
  localHead : Bytes
  localExtra : Bytes
deriving DecidableEq, Repr

namespace ZipMember

variable (member : ZipMember)

/-- A value the classic field has no room for is in the 64-bit one. -/
def wide (value : Nat) : Bytes :=
  if value < full32 then [] else leBytes 8 value

def wideFields : Bytes :=
  wide member.usize ++ (wide member.data.length ++ wide member.headerOffset)

def wideExtra : Bytes :=
  if member.wideFields = [] then []
  else leBytes 2 1 ++ (leBytes 2 member.wideFields.length ++ member.wideFields)

def plainExtra (field : Nat × Bytes) : Bytes :=
  leBytes 2 field.1 ++ (leBytes 2 field.2.length ++ field.2)

def extra : Bytes :=
  member.extras.flatMap plainExtra ++ (member.wideExtra ++ member.trailing)

/-- The record of the directory. -/
def encode : Bytes :=
  leBytes 4 entrySignature ++ (member.versions ++ (leBytes 2 member.method ++ (member.stamp ++
    (leBytes 4 member.crc ++ (leBytes 4 (min member.data.length full32) ++
      (leBytes 4 (min member.usize full32) ++ (leBytes 2 member.name.length ++
        (leBytes 2 member.extra.length ++ (leBytes 2 member.comment.length ++
          (member.attributes ++ (leBytes 4 (min member.headerOffset full32) ++
            (member.name ++ (member.extra ++ member.comment)))))))))))))

/-- The local header and the bytes that follow it. -/
def localRecord : Bytes :=
  leBytes 4 localSignature ++ (member.localHead ++ (leBytes 2 member.name.length ++
    (leBytes 2 member.localExtra.length ++ (member.name ++ (member.localExtra ++ member.data)))))

/-- The fields fit where they are written. -/
structure WellFormed : Prop where
  name : ∀ byte ∈ member.name, byte < 0x80 ∧ byte ≠ 0
  nameLength : member.name.length < 256 ^ 2
  versions : member.versions.length = 6
  method : member.method < 256 ^ 2
  stamp : member.stamp.length = 4
  crc : member.crc < 256 ^ 4
  usize : member.usize < 2 ^ 53
  data : member.data.length < 2 ^ 53
  attributes : member.attributes.length = 8
  headerOffset : member.headerOffset < 2 ^ 53
  extras : ∀ field ∈ member.extras, field.1 < 256 ^ 2 ∧ field.1 ≠ 1 ∧ field.2.length < 256 ^ 2
  extraLength : member.extra.length < 256 ^ 2
  commentLength : member.comment.length < 256 ^ 2
  localHead : member.localHead.length = 22
  localExtra : member.localExtra.length < 256 ^ 2

/-- What the directory is read for. -/
def entry : CdEntry where
  name := member.name
  method := member.method
  crc := member.crc
  csize := member.data.length
  usize := member.usize
  headerOffset := member.headerOffset

end ZipMember

/-- A file of members: their headers lie in its body, the directory and the end records follow. -/
structure ZipArchive where
  body : Bytes
  members : List ZipMember
  comment : Bytes
  /-- The disk numbers of the end record. -/
  disks : Bytes
  /-- The 64-bit end record up to its counts, and what may follow them. -/
  recordHead : Bytes
  extensible : Bytes
  /-- The disks of the locator. -/
  locatorDisk : Bytes
  locatorTotal : Bytes

namespace ZipArchive

variable (archive : ZipArchive)

def directory : Bytes :=
  archive.members.flatMap ZipMember.encode

/-- A field of the end record has no room for its value. -/
def isWide : Prop :=
  full16 ≤ archive.members.length ∨ full32 ≤ archive.directory.length ∨
    full32 ≤ archive.body.length

instance : Decidable archive.isWide :=
  inferInstanceAs (Decidable (_ ∨ _ ∨ _))

/-- The fixed part of the 64-bit end record. -/
def record64 : Bytes :=
  leBytes 4 zip64Signature ++ (archive.recordHead ++ (leBytes 8 archive.members.length ++
    (leBytes 8 archive.members.length ++ (leBytes 8 archive.directory.length ++
      leBytes 8 archive.body.length))))

def locator : Bytes :=
  leBytes 4 locatorSignature ++ (archive.locatorDisk ++
    (leBytes 8 (archive.body.length + archive.directory.length) ++ archive.locatorTotal))

def wideEnd : Bytes :=
  if archive.isWide then archive.record64 ++ (archive.extensible ++ archive.locator) else []

/-- The end record, with the comment of the file. -/
def endRecord : Bytes :=
  leBytes 4 eocdSignature ++ (archive.disks ++ (leBytes 2 (min archive.members.length full16) ++
    (leBytes 4 (min archive.directory.length full32) ++ (leBytes 4 (min archive.body.length full32) ++
      (leBytes 2 archive.comment.length ++ archive.comment)))))

def encode : Bytes :=
  archive.body ++ (archive.directory ++ (archive.wideEnd ++ archive.endRecord))

structure WellFormed : Prop where
  members : ∀ member ∈ archive.members, member.WellFormed
  /-- The file opens with a local header. -/
  opens : [0x50, 0x4b] <+: archive.body
  located : ∀ member ∈ archive.members,
    Lies archive.body member.headerOffset member.localRecord
  disks : archive.disks.length = 6
  recordHead : archive.recordHead.length = 20
  locatorDisk : archive.locatorDisk.length = 4
  locatorTotal : archive.locatorTotal.length = 4
  comment : archive.comment.length < 256 ^ 2
  small : archive.encode.length < 2 ^ 53
  /-- No later place reads as the end record. -/
  last : ∀ index, 0 < index → index + 22 ≤ archive.endRecord.length →
    readLe archive.endRecord index 4 ≠ some eocdSignature

end ZipArchive

/-! ### Fields -/

theorem toNumber_of_lt {value : Nat} (small : value < 2 ^ 53) : toNumber value = value :=
  if_pos small

theorem getUint_of_lies {bytes : Bytes} {offset width number : Nat}
    (lies : Lies bytes offset (leBytes width number)) (small : number < 256 ^ width) :
    getUint bytes offset width = .ok number := by
  unfold getUint
  rw [lies.readLe small]

namespace ZipMember

variable {member : ZipMember} {cd : Bytes}

theorem widen_wide {field value : Nat} (lies : Lies cd field (wide value))
    (small : value < 2 ^ 53) :
    widen cd field (min value full32) = .ok (value, field + (wide value).length) := by
  unfold widen
  unfold wide at lies ⊢
  by_cases fits : value < full32
  · rw [if_pos fits, min_eq_left fits.le, if_neg fits.ne]
    rfl
  · rw [if_neg fits] at lies ⊢
    have read := getUint_of_lies lies (small.trans (by decide))
    rw [min_eq_right (not_lt.mp fits), if_pos rfl, read]
    show Except.ok (toNumber value, field + 8) = _
    rw [toNumber_of_lt small, length_leBytes]

/-- A full field stands in the 64-bit extra, which is then there. -/
theorem wideFields_ne_nil (full : min member.data.length full32 = full32 ∨
    min member.usize full32 = full32 ∨ min member.headerOffset full32 = full32) :
    member.wideFields ≠ [] := by
  have written : ∀ value, min value full32 = full32 → wide value ≠ [] := by
    intro value isFull
    unfold wide
    rw [if_neg (not_lt.mpr (min_eq_right_iff.mp isFull))]
    simp [leBytes]
  unfold wideFields
  intro empty
  rw [List.append_eq_nil_iff, List.append_eq_nil_iff] at empty
  rcases full with data | usize | offset
  · exact written _ data empty.2.1
  · exact written _ usize empty.1
  · exact written _ offset empty.2.2

/-- A classic field that is not full holds its value. -/
theorem min_full32_eq {value : Nat} (notFull : min value full32 ≠ full32) :
    min value full32 = value := by
  omega

/-- The extra fields are passed up to the 64-bit one, which is read. -/
theorem readExtra_encode (wellFormed : member.WellFormed) (written : member.wideFields ≠ [])
    {exEnd : Nat} {extras : List (Nat × Bytes)}
    (fields : ∀ field ∈ extras, field.1 < 256 ^ 2 ∧ field.1 ≠ 1 ∧ field.2.length < 256 ^ 2)
    {ex fuel : Nat} (lies : Lies cd ex (extras.flatMap plainExtra ++ member.wideExtra))
    (bound : ex + (extras.flatMap plainExtra ++ member.wideExtra).length ≤ exEnd)
    (enough : extras.length < fuel) :
    readExtra cd exEnd (min member.usize full32) (min member.data.length full32)
      (min member.headerOffset full32) fuel ex =
      .ok (member.usize, member.data.length, member.headerOffset) := by
  induction extras generalizing ex fuel with
  | nil =>
      obtain ⟨rest, rfl⟩ : ∃ rest, fuel = rest + 1 := ⟨fuel - 1, by simp at enough; omega⟩
      have extra : member.wideExtra =
          leBytes 2 1 ++ (leBytes 2 member.wideFields.length ++ member.wideFields) :=
        if_neg written
      have short : member.wideFields.length < 256 ^ 2 := by
        have each : ∀ value, (wide value).length ≤ 8 := by
          intro value
          unfold wide
          split <;> simp
        have first := each member.usize
        have second := each member.data.length
        have third := each member.headerOffset
        simp only [wideFields, List.length_append]
        omega
      rw [List.flatMap_nil, List.nil_append, extra] at lies bound
      simp only [lies_append, length_leBytes, wideFields] at lies
      simp only [List.length_append, length_leBytes] at bound
      have id := getUint_of_lies lies.1 (by decide)
      have length := getUint_of_lies lies.2.1 short
      have usize := widen_wide lies.2.2.1 wellFormed.usize
      have csize := widen_wide lies.2.2.2.1 wellFormed.data
      have offset := widen_wide lies.2.2.2.2 wellFormed.headerOffset
      rw [readExtra, if_pos (by omega), id]
      simp only [bind, Except.bind, pure, Except.pure]
      rw [length]
      simp only [if_true]
      rw [usize]
      simp only
      rw [csize]
      simp only
      rw [offset]
  | cons field others inductionHypothesis =>
      obtain ⟨rest, rfl⟩ : ∃ rest, fuel = rest + 1 := ⟨fuel - 1, by simp at enough; omega⟩
      rw [List.forall_mem_cons] at fields
      rw [List.flatMap_cons, List.append_assoc] at lies bound
      simp only [plainExtra, lies_append, length_leBytes, List.length_append] at lies bound
      have id := getUint_of_lies lies.1.1 fields.1.1
      have length := getUint_of_lies lies.1.2.1 fields.1.2.2
      have later := lies.2
      rw [← lies_append] at later
      have next : ex + (2 + (2 + field.2.length)) = ex + 4 + field.2.length := by omega
      rw [next] at later
      have remaining : ex + 4 + field.2.length +
          (others.flatMap plainExtra ++ member.wideExtra).length ≤ exEnd := by
        simp only [List.length_append]
        omega
      have fewer : others.length < rest := by
        rw [List.length_cons] at enough
        omega
      rw [readExtra, if_pos (by omega), id]
      simp only [bind, Except.bind]
      rw [length]
      simp only [if_neg fields.1.2.1]
      exact inductionHypothesis fields.2 later remaining fewer

variable (decoder : TextDecoder)

/-- A record of the directory is read for its member. -/
theorem readEntry_encode (wellFormed : member.WellFormed) {start : Nat}
    (lies : Lies cd start member.encode) :
    readEntry decoder cd start = .ok (member.entry, start + member.encode.length) := by
  have extraLies : Lies cd (start + 46 + member.name.length)
      (member.extras.flatMap plainExtra ++ member.wideExtra) := by
    have pieces := lies
    simp only [encode, lies_append, length_leBytes, wellFormed.versions, wellFormed.stamp,
      wellFormed.attributes] at pieces
    have whole := pieces.2.2.2.2.2.2.2.2.2.2.2.2.2.1
    unfold extra at whole
    rw [← List.append_assoc, lies_append] at whole
    exact whole.1
  have extraLength : member.extra.length =
      (member.extras.flatMap plainExtra ++ member.wideExtra).length + member.trailing.length := by
    unfold extra
    rw [← List.append_assoc, List.length_append]
  have fewer : member.wideFields ≠ [] → member.extras.length < member.extra.length := by
    intro written
    have each : ∀ extras : List (Nat × Bytes),
        extras.length ≤ (extras.flatMap plainExtra).length := by
      intro extras
      induction extras with
      | nil => simp
      | cons field others inductionHypothesis =>
          simp only [List.flatMap_cons, List.length_append, List.length_cons, plainExtra,
            length_leBytes]
          omega
    have plain := each member.extras
    have wide : 0 < member.wideExtra.length := by
      unfold wideExtra
      rw [if_neg written]
      simp
    rw [extraLength, List.length_append]
    omega
  simp only [encode, lies_append, length_leBytes, wellFormed.versions, wellFormed.stamp,
    wellFormed.attributes] at lies
  obtain ⟨signature, -, method, -, crc, csize, usize, nameLen, extraLen, commentLen, -, offset,
    name, -, -⟩ := lies
  have narrow : ∀ value, min value full32 < 256 ^ 4 := by
    intro value
    have full : full32 < 256 ^ 4 := by decide
    omega
  have decoded : decoder.decode (sliceBytes cd (start + 46) (start + 46 + member.name.length)) =
      member.name := by
    have cut := name.slice
    show decoder.decode (sliceBytes cd (start + 46) (start + 46 + member.name.length)) = _
    rw [cut]
    exact decoder.decode_ascii _ fun byte inName => (wellFormed.name byte inName).1
  have length : member.encode.length =
      46 + member.name.length + member.extra.length + member.comment.length := by
    simp only [encode, List.length_append, length_leBytes, wellFormed.versions, wellFormed.stamp,
      wellFormed.attributes]
    omega
  unfold readEntry
  rw [getUint_of_lies signature (by decide)]
  simp only [bind, Except.bind, pure, Except.pure, ne_eq, not_true, if_false]
  rw [show getUint cd (start + 10) 2 = _ from getUint_of_lies method wellFormed.method,
    show getUint cd (start + 16) 4 = _ from getUint_of_lies crc wellFormed.crc,
    show getUint cd (start + 20) 4 = _ from getUint_of_lies csize (narrow _),
    show getUint cd (start + 24) 4 = _ from getUint_of_lies usize (narrow _),
    show getUint cd (start + 28) 2 = _ from getUint_of_lies nameLen wellFormed.nameLength,
    show getUint cd (start + 30) 2 = _ from getUint_of_lies extraLen wellFormed.extraLength,
    show getUint cd (start + 32) 2 = _ from getUint_of_lies commentLen wellFormed.commentLength,
    show getUint cd (start + 42) 4 = _ from getUint_of_lies offset (narrow _)]
  simp only [decoded]
  by_cases full : min member.data.length full32 = full32 ∨ min member.usize full32 = full32 ∨
      min member.headerOffset full32 = full32
  · have written := wideFields_ne_nil full
    rw [if_pos full, readExtra_encode wellFormed written wellFormed.extras extraLies
      (by omega) (fewer written)]
    rw [length]
    rfl
  · rw [if_neg full]
    simp only [not_or] at full
    rw [min_full32_eq full.1, min_full32_eq full.2.1, min_full32_eq full.2.2, length]
    rfl

theorem length_encode_ge (wellFormed : member.WellFormed) : 46 ≤ member.encode.length := by
  simp only [encode, List.length_append, length_leBytes, wellFormed.versions, wellFormed.stamp,
    wellFormed.attributes]
  omega

theorem readEntries_encode {members : List ZipMember}
    (wellFormed : ∀ member ∈ members, member.WellFormed) {start : Nat}
    (lies : Lies cd start (members.flatMap encode)) :
    readEntries decoder cd members.length start = .ok (members.map entry) := by
  induction members generalizing start with
  | nil => rfl
  | cons member others inductionHypothesis =>
      rw [List.forall_mem_cons] at wellFormed
      rw [List.flatMap_cons, lies_append] at lies
      have bound := lies.1.bound
      have long := length_encode_ge wellFormed.1
      rw [List.length_cons, readEntries, if_pos (by omega),
        readEntry_encode decoder wellFormed.1 lies.1]
      simp only [bind, Except.bind, pure, Except.pure]
      rw [inductionHypothesis wellFormed.2 lies.2]
      rfl

end ZipMember

/-! ### The end records -/

theorem readLe_append_left (front bytes : Bytes) (offset width : Nat) :
    readLe (front ++ bytes) (front.length + offset) width = readLe bytes offset width := by
  unfold readLe
  rw [List.length_append, List.drop_append]
  have dropped : front.drop (front.length + offset) = [] := by
    rw [List.drop_eq_nil_iff]
    omega
  rw [dropped, List.nil_append, Nat.add_sub_cancel_left]
  by_cases within : offset + width ≤ bytes.length
  · rw [if_pos within, if_pos (by omega)]
  · rw [if_neg within, if_neg (by omega)]

/-- The search from the end stops at the end record when no later place reads as one. -/
theorem findEocd_eq {front record : Bytes} (signed : readLe record 0 4 = some eocdSignature)
    {index : Nat}
    (last : ∀ later, 0 < later → later ≤ index → readLe record later 4 ≠ some eocdSignature) :
    findEocd (front ++ record) (front.length + index) = some front.length := by
  induction index with
  | zero =>
      have here := readLe_append_left front record 0 4
      rw [signed] at here
      cases length : front.length with
      | zero =>
          rw [length] at here
          rw [findEocd, if_pos here]
      | succ count =>
          rw [length] at here
          rw [findEocd, if_pos here]
  | succ index inductionHypothesis =>
      have later := readLe_append_left front record (index + 1) 4
      have notHere := last (index + 1) (Nat.succ_pos _) le_rfl
      rw [← later] at notHere
      rw [← Nat.add_assoc] at notHere ⊢
      rw [findEocd, if_neg notHere]
      exact inductionHypothesis fun other positive bound =>
        last other positive (bound.trans (Nat.le_succ _))

namespace ZipArchive

variable {archive : ZipArchive} (decoder : TextDecoder)

/-- What comes before the end record. -/
def lead (archive : ZipArchive) : Bytes :=
  archive.body ++ (archive.directory ++ archive.wideEnd)

theorem encode_eq (archive : ZipArchive) : archive.encode = archive.lead ++ archive.endRecord := by
  simp only [encode, lead, List.append_assoc]

theorem length_endRecord (wellFormed : archive.WellFormed) :
    archive.endRecord.length = 22 + archive.comment.length := by
  simp only [endRecord, List.length_append, length_leBytes, wellFormed.disks]
  omega

/-- What the end record says of the directory. -/
def located (archive : ZipArchive) : Directory :=
  ⟨archive.members.length, archive.directory.length, archive.body.length⟩

/-- The 64-bit record is read through its locator. -/
theorem readZip64_encode (wellFormed : archive.WellFormed) (wide : archive.isWide) {start : Nat}
    (within : start + 20 ≤ archive.lead.length) :
    readZip64 archive.encode (archive.lead.drop start ++ archive.endRecord)
      (archive.lead.drop start).length = .ok archive.located := by
  have small := wellFormed.small
  have ended : archive.wideEnd = archive.record64 ++ (archive.extensible ++ archive.locator) :=
    if_pos wide
  have whole : archive.encode.length = archive.lead.length + archive.endRecord.length := by
    rw [encode_eq, List.length_append]
  have leadLength : archive.lead.length = archive.body.length + (archive.directory.length +
      (archive.record64.length + (archive.extensible.length + archive.locator.length))) := by
    simp only [lead, ended, List.length_append]
  have locatorLength : archive.locator.length = 20 := by
    simp only [locator, List.length_append, length_leBytes, wellFormed.locatorDisk,
      wellFormed.locatorTotal]
  have recordLength : archive.record64.length = 56 := by
    simp only [record64, List.length_append, length_leBytes, wellFormed.recordHead]
  have leadLies := lies_self archive.lead
  unfold lead at leadLies
  rw [ended] at leadLies
  simp only [lies_append] at leadLies
  obtain ⟨-, -, recordLies, -, locatorLies⟩ := leadLies
  have locatorAt : Lies (archive.lead.drop start ++ archive.endRecord)
      ((archive.lead.drop start).length - 20) archive.locator := by
    have moved := (locatorLies.drop start (by omega)).append_right archive.endRecord
    have place : 0 + archive.body.length + archive.directory.length + archive.record64.length +
        archive.extensible.length - start = (archive.lead.drop start).length - 20 := by
      rw [List.length_drop]
      omega
    rw [place] at moved
    have same : archive.body ++ (archive.directory ++
        (archive.record64 ++ (archive.extensible ++ archive.locator))) = archive.lead := by
      rw [lead, ended]
    rw [same] at moved
    exact moved
  unfold locator at locatorAt
  simp only [lies_append, length_leBytes, wellFormed.locatorDisk] at locatorAt
  obtain ⟨signature, -, place, -⟩ := locatorAt
  have recordAt : sliceBytes archive.encode (archive.body.length + archive.directory.length)
      (archive.body.length + archive.directory.length + 56) = archive.record64 := by
    have moved := recordLies.append_right archive.endRecord
    have same : archive.body ++ (archive.directory ++
        (archive.record64 ++ (archive.extensible ++ archive.locator))) ++ archive.endRecord =
        archive.encode := by
      rw [encode_eq, lead, ended]
    rw [same, Nat.zero_add] at moved
    have cut := moved.slice
    rw [recordLength] at cut
    exact cut
  have record := lies_self archive.record64
  have fields := record
  unfold record64 at fields
  simp only [lies_append, length_leBytes, wellFormed.recordHead] at fields
  obtain ⟨recordSignature, -, -, count, size, offset⟩ := fields
  have fits : (2 : Nat) ^ 53 < 256 ^ 8 := by decide
  have many : archive.members.length ≤ archive.directory.length := by
    have each : ∀ members : List ZipMember, (∀ member ∈ members, member.WellFormed) →
        members.length ≤ (members.flatMap ZipMember.encode).length := by
      intro members formed
      induction members with
      | nil => simp
      | cons member others inductionHypothesis =>
          rw [List.forall_mem_cons] at formed
          have long := ZipMember.length_encode_ge formed.1
          have later := inductionHypothesis formed.2
          rw [List.flatMap_cons, List.length_append, List.length_cons]
          omega
    exact each archive.members wellFormed.members
  have away : ¬ (archive.lead.drop start).length < 20 := by
    rw [List.length_drop]
    omega
  unfold readZip64
  rw [if_neg away, getUint_of_lies signature (by decide)]
  simp only [bind, Except.bind, pure, Except.pure, ne_eq, not_true, if_false]
  rw [show getUint _ ((archive.lead.drop start).length - 20 + 8) 8 = _ from
    getUint_of_lies place (by omega)]
  simp only
  rw [toNumber_of_lt (by omega), recordAt,
    show getUint archive.record64 0 4 = _ from getUint_of_lies recordSignature (by decide)]
  simp only [not_true, if_false]
  rw [show getUint archive.record64 32 8 = _ from getUint_of_lies count (by omega)]
  simp only
  rw [show getUint archive.record64 40 8 = _ from getUint_of_lies size (by omega)]
  simp only
  rw [show getUint archive.record64 48 8 = _ from getUint_of_lies offset (by omega)]
  simp only
  rw [toNumber_of_lt (by omega), toNumber_of_lt (by omega), toNumber_of_lt (by omega)]
  rfl

/-- The end record says where the directory is, itself or through the 64-bit one. -/
theorem readDirectory_encode (wellFormed : archive.WellFormed) {start : Nat}
    (within : archive.isWide → start + 20 ≤ archive.lead.length) :
    readDirectory archive.encode (archive.lead.drop start ++ archive.endRecord)
      (archive.lead.drop start).length = .ok archive.located := by
  have endLies := (lies_self archive.endRecord).append_left (archive.lead.drop start)
  rw [Nat.add_zero] at endLies
  unfold endRecord at endLies
  simp only [lies_append, length_leBytes, wellFormed.disks] at endLies
  obtain ⟨-, -, count, size, offset, -, -⟩ := endLies
  have narrow16 : min archive.members.length full16 < 256 ^ 2 := by
    have full : full16 < 256 ^ 2 := by decide
    omega
  have narrow32 : ∀ value, min value full32 < 256 ^ 4 := by
    intro value
    have full : full32 < 256 ^ 4 := by decide
    omega
  unfold readDirectory
  rw [show getUint (archive.lead.drop start ++ archive.endRecord)
      ((archive.lead.drop start).length + 10) 2 = _ from getUint_of_lies count narrow16,
    show getUint (archive.lead.drop start ++ archive.endRecord)
      ((archive.lead.drop start).length + 12) 4 = _ from getUint_of_lies size (narrow32 _),
    show getUint (archive.lead.drop start ++ archive.endRecord)
      ((archive.lead.drop start).length + 16) 4 = _ from getUint_of_lies offset (narrow32 _)]
  simp only [bind, Except.bind, pure, Except.pure]
  by_cases wide : archive.isWide
  · have full : min archive.members.length full16 = full16 ∨
        min archive.directory.length full32 = full32 ∨
        min archive.body.length full32 = full32 := by
      unfold isWide at wide
      omega
    rw [if_pos full]
    exact readZip64_encode wellFormed wide (within wide)
  · have notFull : ¬ (min archive.members.length full16 = full16 ∨
        min archive.directory.length full32 = full32 ∨
        min archive.body.length full32 = full32) := by
      unfold isWide at wide
      omega
    have exact' : min archive.members.length full16 = archive.members.length ∧
        min archive.directory.length full32 = archive.directory.length ∧
        min archive.body.length full32 = archive.body.length := by
      omega
    rw [if_neg notFull, exact'.1, exact'.2.1, exact'.2.2]
    rfl

/-- The directory of a file is read back from its bytes. -/
theorem readCentralDirectory_encode (wellFormed : archive.WellFormed) :
    readCentralDirectory decoder archive.encode =
      .ok (archive.members.map ZipMember.entry) := by
  have ending := length_endRecord wellFormed
  have comment := wellFormed.comment
  have whole : archive.encode.length = archive.lead.length + archive.endRecord.length := by
    rw [encode_eq, List.length_append]
  obtain ⟨start, starts⟩ :
      ∃ start, start = archive.encode.length - min archive.encode.length (65557 + 20) := ⟨_, rfl⟩
  have inLead : start ≤ archive.lead.length := by omega
  have tail : sliceBytes archive.encode start archive.encode.length =
      archive.lead.drop start ++ archive.endRecord := by
    unfold sliceBytes
    rw [← List.length_drop, List.take_length, encode_eq,
      List.drop_append_of_le_length inLead]
  have tailLength : (archive.lead.drop start ++ archive.endRecord).length =
      (archive.lead.drop start).length + (22 + archive.comment.length) := by
    rw [List.length_append, ending]
  have signed : readLe archive.endRecord 0 4 = some eocdSignature := by
    have lies := lies_self archive.endRecord
    unfold endRecord at lies
    rw [lies_append] at lies
    exact lies.1.readLe (by decide)
  have found : findEocd (archive.lead.drop start ++ archive.endRecord)
      ((archive.lead.drop start).length + archive.comment.length) =
      some (archive.lead.drop start).length := by
    apply findEocd_eq signed
    intro later positive bound
    exact wellFormed.last later positive (by omega)
  have within : archive.isWide → start + 20 ≤ archive.lead.length := by
    intro wide
    have ended : archive.wideEnd = archive.record64 ++ (archive.extensible ++ archive.locator) :=
      if_pos wide
    have locator : 20 ≤ archive.locator.length := by
      simp only [ZipArchive.locator, List.length_append, length_leBytes, wellFormed.locatorDisk,
        wellFormed.locatorTotal]
      exact le_rfl
    have long : 20 ≤ archive.lead.length := by
      simp only [lead, ended, List.length_append]
      omega
    omega
  have directory : sliceBytes archive.encode archive.located.offset
      (archive.located.offset + archive.located.size) = archive.directory := by
    have lies := lies_self archive.encode
    unfold encode at lies
    simp only [lies_append] at lies
    have cut := lies.2.1.slice
    rw [Nat.zero_add] at cut
    exact cut
  have entries := ZipMember.readEntries_encode decoder wellFormed.members
    (lies_self archive.directory)
  unfold readCentralDirectory
  simp only [← starts, tail]
  rw [if_pos (by omega), tailLength]
  have index : (archive.lead.drop start).length + (22 + archive.comment.length) - 22 =
      (archive.lead.drop start).length + archive.comment.length := by
    omega
  rw [index, found]
  simp only [readDirectory_encode wellFormed within, bind, Except.bind]
  rw [directory]
  exact entries

/-! ### The copy -/

theorem sliceBytes_append (bytes : Bytes) {start middle stop : Nat} (first : start ≤ middle)
    (second : middle ≤ stop) :
    sliceBytes bytes start middle ++ sliceBytes bytes middle stop = sliceBytes bytes start stop := by
  unfold sliceBytes
  have parts : stop - start = (middle - start) + (stop - middle) := by omega
  have dropped : bytes.drop middle = (bytes.drop start).drop (middle - start) := by
    rw [List.drop_drop]
    congr 1
    omega
  rw [parts, List.take_add, dropped]

/-- The parts of a member make up its bytes when they are all in the file. -/
theorem copyParts_eq {file : Bytes} {dataStart csize : Nat}
    (within : dataStart + csize ≤ file.length) {fuel off : Nat} (enough : csize ≤ fuel + off)
    (inside : off ≤ csize) :
    copyParts file dataStart csize fuel off =
      .ok (sliceBytes file (dataStart + off) (dataStart + csize)) := by
  have empty : ∀ place, sliceBytes file place place = [] := by
    intro place
    simp [sliceBytes]
  obtain ⟨size, isSize, positive⟩ : ∃ size, copyChunk = size ∧ 0 < size :=
    ⟨_, rfl, Nat.succ_pos _⟩
  induction fuel generalizing off with
  | zero =>
      have done : off = csize := by omega
      rw [copyParts, done, empty]
  | succ fuel inductionHypothesis =>
      rw [copyParts, isSize]
      by_cases more : off < csize
      · have length : (sliceBytes file (dataStart + off)
            (dataStart + min (off + size) csize)).length =
            min (off + size) csize - off := by
          unfold sliceBytes
          rw [List.length_take, List.length_drop]
          omega
        rw [if_pos more]
        simp only [bind, Except.bind, pure, Except.pure]
        rw [if_neg (not_not.mpr length)]
        by_cases final : csize ≤ off + size
        · have ends : copyParts file dataStart csize fuel (off + size) = .ok [] := by
            cases fuel with
            | zero => rfl
            | succ rest => rw [copyParts, if_neg (not_lt.mpr final)]
          rw [ends, min_eq_right final]
          simp only [List.append_nil]
        · have bound : off + size ≤ csize := (not_le.mp final).le
          rw [inductionHypothesis (by omega) bound, min_eq_left bound]
          simp only
          rw [sliceBytes_append file (by omega) (by omega)]
      · have done : off = csize := by omega
        rw [if_neg more, done, empty]

/-- What is given for a member that is kept. -/
def kept (member : ZipMember) (filename : Str) : ZipInputFile :=
  ⟨filename, member.usize, member.crc, member.method, member.data⟩

/-- A member is copied as it is stored. -/
theorem copyMember_encode (wellFormed : archive.WellFormed) {member : ZipMember}
    (inArchive : member ∈ archive.members) (filename : Str) :
    copyMember archive.encode (member.entry, filename) = .ok (kept member filename) := by
  have formed := wellFormed.members member inArchive
  have lies : Lies archive.encode member.headerOffset member.localRecord :=
    (wellFormed.located member inArchive).append_right _
  have pieces := lies
  unfold ZipMember.localRecord at pieces
  simp only [lies_append, length_leBytes, formed.localHead] at pieces
  obtain ⟨signature, head, nameLen, extraLen, -, -, data⟩ := pieces
  have dataBound := data.bound
  have dataCut := data.slice
  have headerLies : Lies archive.encode member.headerOffset
      (leBytes 4 localSignature ++ (member.localHead ++ (leBytes 2 member.name.length ++
        leBytes 2 member.localExtra.length))) := by
    simp only [lies_append, length_leBytes, formed.localHead]
    exact ⟨signature, head, nameLen, extraLen⟩
  have header := headerLies.slice
  have length : (leBytes 4 localSignature ++ (member.localHead ++
      (leBytes 2 member.name.length ++ leBytes 2 member.localExtra.length))).length = 30 := by
    simp only [List.length_append, length_leBytes, formed.localHead]
  rw [length] at header
  have fields := lies_self (leBytes 4 localSignature ++ (member.localHead ++
    (leBytes 2 member.name.length ++ leBytes 2 member.localExtra.length)))
  simp only [lies_append, length_leBytes, formed.localHead] at fields
  obtain ⟨signature', -, nameLen', extraLen'⟩ := fields
  have place : member.headerOffset + 4 + 22 + 2 + 2 + member.name.length +
      member.localExtra.length = member.headerOffset + 30 + member.name.length +
        member.localExtra.length := by
    omega
  rw [place] at dataBound dataCut
  have raw : copyParts archive.encode (member.headerOffset + 30 + member.name.length +
      member.localExtra.length) member.data.length member.data.length 0 = .ok member.data := by
    rw [copyParts_eq dataBound (by omega) (Nat.zero_le _)]
    exact congrArg _ dataCut
  unfold copyMember
  simp only [ZipMember.entry, header]
  rw [getUint_of_lies signature' (by decide)]
  simp only [bind, Except.bind, pure, Except.pure, ne_eq, not_true, if_false]
  rw [show getUint _ 26 2 = _ from getUint_of_lies nameLen' formed.nameLength]
  simp only
  rw [show getUint _ 28 2 = _ from getUint_of_lies extraLen' formed.localExtra]
  simp only
  rw [raw]
  rfl

end ZipArchive

/-! ### The result -/

/-- What the browser reads of a file is what was laid out in it. -/
def ReadsBack : Prop :=
  ∀ (decoder : TextDecoder) (archive : ZipArchive), archive.WellFormed →
    readCentralDirectory decoder archive.encode =
        .ok (archive.members.map ZipMember.entry) ∧
      ∀ member ∈ archive.members, ∀ filename,
        copyMember archive.encode (member.entry, filename) =
          .ok (ZipArchive.kept member filename)

end Vidit.Imports

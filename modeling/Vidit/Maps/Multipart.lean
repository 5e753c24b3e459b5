import Mathlib.Data.Rat.Floor
import Vidit.Library.Nearest
import Vidit.Maps.Update

/-!
Contract: the copy of an archive into the bucket, part by part.

Owns:
- `MultipartUpload`: the parts it sends of the chunks it is given;
- `planet_part_size` in the arithmetic it is written in, a float division;
- that the parts are exactly the bytes written, within the provider's limits;
- that a download read in several requests is exactly the file.

Does not own: the pass that copies an archive (`Vidit.Maps.Update`).

Proof shape: `Holds` says what an upload has sent and keeps; each call keeps it, and `complete`
reads the result off it.
-/

namespace Vidit.Maps

open Vidit.Python Vidit.Library

/-! ### The upload -/

/-- A part as `upload_part` sends it, with the tag the storage answers. -/
structure Part where
  number : Nat
  body : Bytes
  etag : Str
deriving DecidableEq, Repr

/-- `MultipartUpload`. -/
structure MultipartUpload where
  partSize : Nat
  parts : List Part
  buffer : Bytes
  size : Nat
deriving DecidableEq, Repr

section Upload

variable (send : Nat → Bytes → Except Failure Str) (key : Str)

/-- `MultipartUpload.__init__`, up to `create_multipart_upload`. -/
def MultipartUpload.create (partSize : Nat) : Except Failure MultipartUpload := do
  require (0 < partSize ∧ partSize ≤ maxPartSize)
    (.mapUpdate (str "part size " ++ natText partSize ++ str " is outside the S3 limits"))
  pure ⟨partSize, [], [], 0⟩

/-- `_upload_part`. -/
def MultipartUpload.uploadPart (upload : MultipartUpload) (body : Bytes) :
    Except Failure MultipartUpload := do
  let number := upload.parts.length + 1
  require (number ≤ maxParts)
    (.mapUpdate (key ++ str ": more than " ++ natText maxParts ++ str " parts"))
  let etag ← send number body
  pure { upload with parts := upload.parts ++ [⟨number, body, etag⟩] }

/-- The loop of `write`: a part for each full part of the buffer. -/
def MultipartUpload.uploadFull : Nat → MultipartUpload → Except Failure MultipartUpload
  | 0, upload => pure upload
  | rounds + 1, upload =>
    if upload.partSize ≤ upload.buffer.length then do
      let sent ← upload.uploadPart send key (upload.buffer.take upload.partSize)
      uploadFull rounds { sent with buffer := upload.buffer.drop upload.partSize }
    else pure upload

/-- `write`; the buffer's length bounds the rounds of its loop. -/
def MultipartUpload.write (upload : MultipartUpload) (data : Bytes) :
    Except Failure MultipartUpload :=
  uploadFull send key (upload.buffer.length + data.length)
    { upload with buffer := upload.buffer ++ data, size := upload.size + data.length }

/-- `complete`, up to `complete_multipart_upload`. -/
def MultipartUpload.complete (upload : MultipartUpload) : Except Failure MultipartUpload :=
  if upload.buffer ≠ [] ∨ upload.parts = [] then do
    let sent ← upload.uploadPart send key upload.buffer
    pure { sent with buffer := [] }
  else pure upload

/-- The parts of chunks written one after another, then completed. -/
def multipartUpload (partSize : Nat) (chunks : List Bytes) : Except Failure (List Part) := do
  let opened ← MultipartUpload.create partSize
  let written ← chunks.foldlM (MultipartUpload.write send key) opened
  let completed ← written.complete send key
  pure completed.parts

end Upload

/-! ### The size of a part -/

/-- `size / parts`, to the nearest double. -/
def trueDivide (size parts : Nat) : Rat :=
  toPrecision 53 (size / parts : Rat)

/-- `planet_part_size`, `math.ceil` of a float; a quotient no double holds raises. -/
def planetPartSizeOfFloat (size : Nat) : Except Failure Nat :=
  if 2 ^ 1024 ≤ trueDivide size maxParts then .error .other
  else
    let part := max minPartSize ⌈trueDivide size maxParts⌉.toNat
    if maxPartSize < part then
      mapUpdateError (natText size ++ str " bytes do not fit in " ++ natText maxParts ++
        str " parts of 5 GiB")
    else pure part

theorem ceilDiv_bounds (size : Nat) {parts : Nat} (positive : 0 < parts) :
    size ≤ ceilDiv size parts * parts ∧ ceilDiv size parts * parts < size + parts := by
  unfold ceilDiv
  have split := Nat.div_add_mod (size + parts - 1) parts
  have rest := Nat.mod_lt (size + parts - 1) positive
  rw [Nat.mul_comm] at split
  constructor <;> omega

/-- A quotient past the part limit stays past it when it is rounded. -/
theorem lt_trueDivide {size : Nat} (large : maxPartSize * maxParts < size) :
    (maxPartSize : Rat) < trueDivide size maxParts := by
  have bound : ((maxPartSize * maxParts + 1 : Nat) : Rat) ≤ size := by exact_mod_cast large
  have positive : (0 : Rat) < size / maxParts := by
    unfold maxPartSize maxParts at bound
    unfold maxParts
    push_cast at bound
    apply div_pos
    · linarith
    · norm_num
  have error := abs_toPrecision_sub_mul_le 53 positive
  have low := neg_abs_le (toPrecision 53 ((size : Rat) / maxParts) - size / maxParts)
  unfold trueDivide
  unfold maxPartSize maxParts at *
  push_cast at *
  linarith

/-- Below the limit, the float quotient rounds up to the exact one. -/
theorem ceil_trueDivide {size : Nat} (small : size ≤ maxPartSize * maxParts) :
    ⌈trueDivide size maxParts⌉.toNat = ceilDiv size maxParts := by
  obtain zero | some := Nat.eq_zero_or_pos size
  · subst zero
    simp [trueDivide, toPrecision, roundEven, ceilDiv, maxParts]
  have bounds := ceilDiv_bounds size (show 0 < maxParts by decide)
  have positive : (0 : Rat) < size / maxParts := by
    apply div_pos
    · exact_mod_cast some
    · norm_num [maxParts]
  have below : (size : Rat) / maxParts ≤ (ceilDiv size maxParts : Nat) := by
    rw [div_le_iff₀ (by norm_num [maxParts])]
    exact_mod_cast bounds.1
  have room : ceilDiv size maxParts ≤ maxPartSize := by
    unfold maxPartSize maxParts at *
    omega
  have above : trueDivide size maxParts ≤ (ceilDiv size maxParts : Nat) := by
    apply toPrecision_le positive below
    unfold maxPartSize at room
    omega
  have error := abs_toPrecision_sub_mul_le 53 positive
  have low := neg_abs_le (toPrecision 53 ((size : Rat) / maxParts) - size / maxParts)
  have past : ((ceilDiv size maxParts * maxParts + 1 : Nat) : Rat) ≤ (size + maxParts : Nat) := by
    exact_mod_cast bounds.2
  have inside : (size : Rat) ≤ (maxPartSize * maxParts : Nat) := by exact_mod_cast small
  have strict : ((ceilDiv size maxParts : Nat) : Rat) - 1 < trueDivide size maxParts := by
    unfold trueDivide
    unfold maxPartSize maxParts at *
    push_cast at *
    linarith
  have ceil : ⌈trueDivide size maxParts⌉ = (ceilDiv size maxParts : Nat) := by
    rw [Int.ceil_eq_iff]
    push_cast
    exact ⟨strict, above⟩
  rw [ceil, Int.toNat_natCast]

/-- The float division gives the part size of the exact one. -/
theorem planetPartSizeOfFloat_ok_iff {size part : Nat} :
    planetPartSizeOfFloat size = .ok part ↔ planetPartSize size = .ok part := by
  by_cases small : size ≤ maxPartSize * maxParts
  · have ceil := ceil_trueDivide small
    have finite : ¬ (2 : Rat) ^ 1024 ≤ trueDivide size maxParts := by
      have room : ceilDiv size maxParts ≤ maxPartSize := by
        have bounds := ceilDiv_bounds size (show 0 < maxParts by decide)
        unfold maxPartSize maxParts at *
        omega
      have bound : trueDivide size maxParts ≤ (maxPartSize : Nat) := by
        have top := Int.le_ceil (trueDivide size maxParts)
        have ceilLe : ⌈trueDivide size maxParts⌉ ≤ (maxPartSize : Int) := by omega
        exact top.trans (by exact_mod_cast ceilLe)
      intro huge
      have power : (2 : Rat) ^ 40 ≤ 2 ^ 1024 := pow_le_pow_right₀ one_le_two (by norm_num)
      have absurdity : (2 : Rat) ^ 40 ≤ (maxPartSize : Nat) := power.trans (huge.trans bound)
      unfold maxPartSize at absurdity
      norm_num at absurdity
    unfold planetPartSizeOfFloat planetPartSize
    rw [if_neg finite, ceil]
  · have large : maxPartSize * maxParts < size := by omega
    have quotient := lt_trueDivide large
    have exact : maxPartSize < ceilDiv size maxParts := by
      have bounds := ceilDiv_bounds size (show 0 < maxParts by decide)
      unfold maxPartSize maxParts at *
      omega
    have rounded : maxPartSize < ⌈trueDivide size maxParts⌉.toNat := by
      have ceil := Int.lt_ceil.mpr (show ((maxPartSize : Int) : Rat) < _ from by exact_mod_cast quotient)
      omega
    unfold planetPartSizeOfFloat planetPartSize
    simp only [lt_max_iff, exact, rounded, or_true, if_true, mapUpdateError]
    split <;> simp

/-- A part size that is admitted holds the archive in `MAX_PARTS` parts. -/
theorem planetPartSize_room {size part : Nat} (admitted : planetPartSize size = .ok part) :
    size ≤ maxParts * part ∧ 0 < part ∧ part ≤ maxPartSize := by
  have bounds := ceilDiv_bounds size (show 0 < maxParts by decide)
  unfold planetPartSize at admitted
  simp only at admitted
  split at admitted
  · cases admitted
  · rw [pure_eq_ok] at admitted
    have room : ceilDiv size maxParts ≤ part := by omega
    refine ⟨?_, ?_, by omega⟩
    · calc
        size ≤ ceilDiv size maxParts * maxParts := bounds.1
        _ ≤ part * maxParts := by gcongr
        _ = maxParts * part := Nat.mul_comm _ _
    · unfold minPartSize at admitted
      omega

/-! ### What an upload has sent -/

section Holding

variable {send : Nat → Bytes → Except Failure Str} {key : Str} {partSize : Nat}
  {written data : Bytes} {upload sent : MultipartUpload}

/-- The bytes written so far: the full parts sent, numbered from 1, then what is buffered. -/
structure Holds (partSize : Nat) (written : Bytes) (upload : MultipartUpload) : Prop where
  sized : upload.partSize = partSize
  bytes : (upload.parts.map Part.body).flatten ++ upload.buffer = written
  full : ∀ part ∈ upload.parts, part.body.length = partSize
  numbers : upload.parts.map Part.number = List.range' 1 upload.parts.length
  limit : upload.parts.length ≤ maxParts
  size : upload.size = written.length

theorem uploadPart_ok {body : Bytes} (sending : upload.uploadPart send key body = .ok sent) :
    upload.parts.length < maxParts ∧ ∃ etag, sent = { upload with
      parts := upload.parts ++ [⟨upload.parts.length + 1, body, etag⟩] } := by
  unfold MultipartUpload.uploadPart at sending
  simp only [bind_eq_ok, require_eq_ok, pure_eq_ok] at sending
  obtain ⟨_, room, etag, _, rfl⟩ := sending
  exact ⟨room, etag, rfl⟩

/-- A part goes through where the storage takes it and there is a number left. -/
theorem uploadPart_isOk (key : Str) (body : Bytes)
    (takes : ∀ number body, (send number body).isOk = true) (room : upload.parts.length < maxParts) :
    ∃ sent, upload.uploadPart send key body = .ok sent := by
  have taken := takes (upload.parts.length + 1) body
  cases sending : send (upload.parts.length + 1) body with
  | error _ =>
      rw [sending] at taken
      cases taken
  | ok etag =>
      unfold MultipartUpload.uploadPart
      simp only [bind_eq_ok, pure_eq_ok, require_eq_ok]
      exact ⟨_, ⟨⟩, room, etag, sending, rfl⟩

theorem numbers_concat {parts : List Part} (numbers : parts.map Part.number =
      List.range' 1 parts.length) (body : Bytes) (etag : Str) :
    (parts ++ [(⟨parts.length + 1, body, etag⟩ : Part)]).map Part.number =
      List.range' 1 (parts ++ [(⟨parts.length + 1, body, etag⟩ : Part)]).length := by
  rw [List.map_append, numbers, List.length_append, List.length_singleton, List.range'_concat,
    Nat.one_mul, Nat.add_comm 1]
  rfl

/-- A round of the loop moves a full part from the buffer to the storage. -/
theorem Holds.round (holds : Holds partSize written upload)
    (enough : upload.partSize ≤ upload.buffer.length)
    (sending : upload.uploadPart send key (upload.buffer.take upload.partSize) = .ok sent) :
    Holds partSize written { sent with buffer := upload.buffer.drop upload.partSize } := by
  obtain ⟨room, etag, rfl⟩ := uploadPart_ok sending
  constructor
  · exact holds.sized
  · show (List.map Part.body (upload.parts ++ [_])).flatten ++ _ = written
    rw [List.map_append, List.flatten_append, List.append_assoc]
    simp only [List.map_cons, List.map_nil, List.flatten_cons, List.flatten_nil, List.append_nil]
    rw [List.take_append_drop]
    exact holds.bytes
  · intro part member
    obtain old | new := List.mem_append.mp member
    · exact holds.full part old
    · rw [List.mem_singleton.mp new, ← holds.sized]
      show (upload.buffer.take upload.partSize).length = _
      rw [List.length_take]
      omega
  · exact numbers_concat holds.numbers _ _
  · show (upload.parts ++ [_]).length ≤ maxParts
    rw [List.length_append, List.length_singleton]
    exact room
  · exact holds.size

theorem Holds.uploadFull (holds : Holds partSize written upload) (positive : 0 < partSize)
    {rounds : Nat} (enough : upload.buffer.length ≤ rounds)
    (sending : MultipartUpload.uploadFull send key rounds upload = .ok sent) :
    Holds partSize written sent ∧ sent.buffer.length < partSize := by
  induction rounds generalizing upload with
  | zero =>
      rw [MultipartUpload.uploadFull, pure_eq_ok] at sending
      subst sending
      exact ⟨holds, by omega⟩
  | succ rounds inductionHypothesis =>
      rw [MultipartUpload.uploadFull] at sending
      have same := holds.sized
      split at sending
      · rename_i full
        rw [bind_eq_ok] at sending
        obtain ⟨part, sendingPart, sending⟩ := sending
        apply inductionHypothesis (holds.round full sendingPart) _ sending
        show (upload.buffer.drop upload.partSize).length ≤ rounds
        rw [List.length_drop]
        omega
      · rename_i short
        rw [pure_eq_ok] at sending
        subst sending
        exact ⟨holds, by omega⟩

theorem Holds.append (holds : Holds partSize written upload) (data : Bytes) :
    Holds partSize (written ++ data)
      { upload with buffer := upload.buffer ++ data, size := upload.size + data.length } := by
  constructor
  · exact holds.sized
  · show (upload.parts.map Part.body).flatten ++ (upload.buffer ++ data) = written ++ data
    rw [← holds.bytes, List.append_assoc]
  · exact holds.full
  · exact holds.numbers
  · exact holds.limit
  · show upload.size + data.length = (written ++ data).length
    rw [holds.size, List.length_append]

theorem Holds.write (holds : Holds partSize written upload) (positive : 0 < partSize)
    (writing : upload.write send key data = .ok sent) :
    Holds partSize (written ++ data) sent ∧ sent.buffer.length < partSize := by
  apply (holds.append data).uploadFull positive _ writing
  show (upload.buffer ++ data).length ≤ _
  rw [List.length_append]

theorem Holds.chunks {chunks : List Bytes} (holds : Holds partSize written upload)
    (short : upload.buffer.length < partSize)
    (writing : chunks.foldlM (MultipartUpload.write send key) upload = .ok sent) :
    Holds partSize (written ++ chunks.flatten) sent ∧ sent.buffer.length < partSize := by
  induction chunks generalizing upload written with
  | nil =>
      rw [List.foldlM_nil, pure_eq_ok] at writing
      subst writing
      rw [List.flatten_nil, List.append_nil]
      exact ⟨holds, short⟩
  | cons chunk rest inductionHypothesis =>
      rw [List.foldlM_cons, bind_eq_ok] at writing
      obtain ⟨next, writingOne, writing⟩ := writing
      have one := holds.write (by omega) writingOne
      rw [List.flatten_cons, ← List.append_assoc]
      exact inductionHypothesis one.1 one.2 writing

/-- The parts sent are the bytes written: full but for the last, numbered from 1. -/
structure SentExactly (partSize : Nat) (written : Bytes) (parts : List Part) : Prop where
  bytes : (parts.map Part.body).flatten = written
  full : ∀ part ∈ parts.dropLast, part.body.length = partSize
  last : ∀ part ∈ parts, part.body.length ≤ partSize
  numbers : parts.map Part.number = List.range' 1 parts.length
  limit : parts.length ≤ maxParts

theorem Holds.complete (holds : Holds partSize written upload)
    (short : upload.buffer.length < partSize)
    (completing : upload.complete send key = .ok sent) :
    SentExactly partSize written sent.parts := by
  unfold MultipartUpload.complete at completing
  split at completing
  · simp only [bind_eq_ok, pure_eq_ok] at completing
    obtain ⟨_, sending, rfl⟩ := completing
    obtain ⟨room, etag, rfl⟩ := uploadPart_ok sending
    constructor
    · rw [List.map_append, List.flatten_append]
      simp only [List.map_cons, List.map_nil, List.flatten_cons, List.flatten_nil, List.append_nil]
      exact holds.bytes
    · intro part member
      rw [List.dropLast_concat] at member
      exact holds.full part member
    · intro part member
      obtain old | new := List.mem_append.mp member
      · exact (holds.full part old).le
      · rw [List.mem_singleton.mp new]
        exact short.le
    · exact numbers_concat holds.numbers _ _
    · rw [List.length_append, List.length_singleton]
      exact room
  · rename_i none
    rw [pure_eq_ok] at completing
    subst completing
    have empty : upload.buffer = [] := by
      by_contra some
      exact none (.inl some)
    have bytes := holds.bytes
    rw [empty, List.append_nil] at bytes
    constructor
    · exact bytes
    · intro part member
      exact holds.full part (List.mem_of_mem_dropLast member)
    · intro part member
      exact (holds.full part member).le
    · exact holds.numbers
    · exact holds.limit

theorem MultipartUpload.create_ok (creating : MultipartUpload.create partSize = .ok upload) :
    (0 < partSize ∧ partSize ≤ maxPartSize) ∧ Holds partSize [] upload ∧ upload.buffer = [] := by
  unfold MultipartUpload.create at creating
  simp only [bind_eq_ok, require_eq_ok, pure_eq_ok] at creating
  obtain ⟨_, limits, rfl⟩ := creating
  exact ⟨limits, ⟨rfl, rfl, by simp, rfl, Nat.zero_le _, rfl⟩, rfl⟩

theorem multipartUpload_sent {chunks : List Bytes} {parts : List Part}
    (uploading : multipartUpload send key partSize chunks = .ok parts) :
    SentExactly partSize chunks.flatten parts := by
  unfold multipartUpload at uploading
  simp only [bind_eq_ok, pure_eq_ok] at uploading
  obtain ⟨opened, creating, written, writing, completed, completing, rfl⟩ := uploading
  obtain ⟨limits, holds, empty⟩ := MultipartUpload.create_ok creating
  have chunksHold := holds.chunks (by rw [empty]; exact limits.1) writing
  rw [List.nil_append] at chunksHold
  exact chunksHold.1.complete chunksHold.2 completing

/-! ### Room for every part -/

theorem bodies_length {parts : List Part} (bounded : ∀ part ∈ parts, part.body.length ≤ partSize) :
    (parts.map Part.body).flatten.length ≤ parts.length * partSize := by
  induction parts with
  | nil => simp
  | cons part rest inductionHypothesis =>
      have first := bounded part List.mem_cons_self
      have later := inductionHypothesis fun other member =>
        bounded other (List.mem_cons_of_mem _ member)
      rw [List.map_cons, List.flatten_cons, List.length_append, List.length_cons, Nat.succ_mul]
      omega

/-- The full parts sent and the buffer hold as many bytes as were written. -/
theorem Holds.length (holds : Holds partSize written upload) :
    upload.parts.length * partSize + upload.buffer.length = written.length := by
  have sum : ∀ parts : List Part, (∀ part ∈ parts, part.body.length = partSize) →
      (parts.map Part.body).flatten.length = parts.length * partSize := by
    intro parts full
    induction parts with
    | nil => simp
    | cons part rest inductionHypothesis =>
        rw [List.map_cons, List.flatten_cons, List.length_append, List.length_cons, Nat.succ_mul,
          full part List.mem_cons_self,
          inductionHypothesis fun other member => full other (List.mem_cons_of_mem _ member)]
        omega
  rw [← holds.bytes, List.length_append, sum upload.parts holds.full]

theorem Holds.room (holds : Holds partSize written upload)
    (fits : written.length ≤ maxParts * partSize) (waits : 0 < upload.buffer.length) :
    upload.parts.length < maxParts := by
  have length := holds.length
  apply Nat.lt_of_mul_lt_mul_right (a := partSize)
  omega

theorem Holds.uploadFull_isOk (holds : Holds partSize written upload) (key : Str)
    (positive : 0 < partSize) (takes : ∀ number body, (send number body).isOk = true)
    (fits : written.length ≤ maxParts * partSize) (rounds : Nat) :
    ∃ sent, MultipartUpload.uploadFull send key rounds upload = .ok sent := by
  induction rounds generalizing upload with
  | zero => exact ⟨upload, rfl⟩
  | succ rounds inductionHypothesis =>
      rw [MultipartUpload.uploadFull]
      split
      · rename_i full
        have same := holds.sized
        have room := holds.room fits (by omega)
        obtain ⟨part, sending⟩ := uploadPart_isOk key
          (upload.buffer.take upload.partSize) takes room
        obtain ⟨sent, later⟩ := inductionHypothesis (holds.round full sending)
        exact ⟨sent, by rw [bind_eq_ok]; exact ⟨part, sending, later⟩⟩
      · exact ⟨upload, rfl⟩

theorem Holds.chunks_isOk (holds : Holds partSize written upload) (key : Str)
    (chunks : List Bytes) (positive : 0 < partSize) (takes : ∀ number body, (send number body).isOk = true)
    (fits : (written ++ chunks.flatten).length ≤ maxParts * partSize) :
    ∃ sent, chunks.foldlM (MultipartUpload.write send key) upload = .ok sent := by
  induction chunks generalizing upload written with
  | nil => exact ⟨upload, rfl⟩
  | cons chunk rest inductionHypothesis =>
      rw [List.flatten_cons, ← List.append_assoc] at fits
      have first : (written ++ chunk).length ≤ maxParts * partSize := by
        rw [List.length_append] at fits
        omega
      obtain ⟨next, writingOne⟩ := (holds.append chunk).uploadFull_isOk key positive takes
        first (upload.buffer.length + chunk.length)
      obtain ⟨sent, later⟩ := inductionHypothesis (holds.write positive writingOne).1 fits
      exact ⟨sent, by rw [List.foldlM_cons, bind_eq_ok]; exact ⟨next, writingOne, later⟩⟩

/-- Where the storage takes each part, an upload goes through exactly when the bytes fit. -/
theorem multipartUpload_isOk_iff {chunks : List Bytes}
    (limits : 0 < partSize ∧ partSize ≤ maxPartSize)
    (takes : ∀ number body, (send number body).isOk = true) :
    (∃ parts, multipartUpload send key partSize chunks = .ok parts) ↔
      chunks.flatten.length ≤ maxParts * partSize := by
  constructor
  · intro uploaded
    obtain ⟨parts, uploading⟩ := uploaded
    have sent := multipartUpload_sent uploading
    have length := bodies_length sent.last
    rw [sent.bytes] at length
    exact length.trans (Nat.mul_le_mul_right _ sent.limit)
  · intro fits
    have creating : MultipartUpload.create partSize = .ok ⟨partSize, [], [], 0⟩ := by
      unfold MultipartUpload.create
      simp only [bind_eq_ok, require_eq_ok, pure_eq_ok, and_true]
      exact ⟨⟨⟩, limits⟩
    have opened := (MultipartUpload.create_ok creating).2.1
    obtain ⟨written, writing⟩ := opened.chunks_isOk key chunks limits.1 takes
      (by rw [List.nil_append]; exact fits)
    have holds := opened.chunks limits.1 writing
    rw [List.nil_append] at holds
    have completing : ∃ completed, written.complete send key = .ok completed := by
      unfold MultipartUpload.complete
      split
      · rename_i some
        have room : written.parts.length < maxParts := by
          obtain waits | none := some
          · exact holds.1.room fits (List.length_pos_of_ne_nil waits)
          · rw [none]
            decide
        obtain ⟨sent, sending⟩ := uploadPart_isOk key written.buffer takes room
        refine ⟨{ sent with buffer := [] }, ?_⟩
        rw [bind_eq_ok]
        exact ⟨sent, sending, rfl⟩
      · exact ⟨written, rfl⟩
    obtain ⟨completed, completing⟩ := completing
    refine ⟨completed.parts, ?_⟩
    unfold multipartUpload
    simp only [bind_eq_ok, pure_eq_ok]
    exact ⟨_, creating, written, writing, completed, completing, rfl⟩

end Holding

/-- A pass sends an archive's parts exactly when the upload goes through. -/
theorem uploadParts_isOk_iff {outside : Outside} {config : MapConfig} {name : Str} {partSize : Nat}
    {chunks : List Bytes} {send : Nat → Bytes → Except Failure Str}
    (limits : 0 < partSize ∧ partSize ≤ maxPartSize)
    (takes : ∀ number body, (send number body).isOk = true)
    (uploads : outside.call (.uploadPart name) = .ok ())
    (completes : outside.call (.completeUpload name) = .ok ()) :
    uploadParts outside config name partSize chunks.flatten = .ok () ↔
      ∃ parts, multipartUpload send (config.key name) partSize chunks = .ok parts := by
  have bounds := ceilDiv_bounds chunks.flatten.length limits.1
  have fits : max 1 (ceilDiv chunks.flatten.length partSize) ≤ maxParts ↔
      chunks.flatten.length ≤ maxParts * partSize := by
    constructor
    · intro few
      have count : ceilDiv chunks.flatten.length partSize ≤ maxParts := by omega
      exact bounds.1.trans (Nat.mul_le_mul_right _ count)
    · intro small
      have count : ceilDiv chunks.flatten.length partSize < maxParts + 1 := by
        apply Nat.lt_of_mul_lt_mul_right (a := partSize)
        rw [Nat.succ_mul]
        omega
      have one : 1 ≤ maxParts := by decide
      omega
  rw [multipartUpload_isOk_iff limits takes, ← fits]
  unfold uploadParts
  simp only [bind_eq_ok, uploads, completes, require_eq_ok]
  constructor
  · intro sent
    obtain ⟨_, _, _, few, _⟩ := sent
    exact few
  · intro few
    exact ⟨(), ⟨⟩, ⟨⟩, few, ⟨⟩⟩

/-! ### The download -/

/-- The server answers with the file: from its start, or a range from the byte asked for. -/
structure ServesFile (outside : Outside) (url : Str) (file : Bytes) : Prop where
  whole : ∀ attempt body, outside.connection url attempt 0 = .ok (some (200, body)) → body <+: file
  rest : ∀ attempt start body, 0 < start →
    outside.connection url attempt start = .ok (some (206, body)) → body <+: file.drop start

section Download

variable {outside : Outside} {url : Str} {file received bytes : Bytes} {size : Nat}

theorem append_of_drop_length (start : received <+: file)
    (next : bytes <+: file.drop received.length) : received ++ bytes <+: file := by
  obtain ⟨rest, rfl⟩ := start
  rw [List.drop_left] at next
  exact (List.prefix_append_right_inj received).mpr next

/-- What has come so far is always the start of the file. -/
theorem streamFrom_servesFile (serves : ServesFile outside url file) {attempt left : Nat}
    (start : received <+: file)
    (reading : streamFrom outside url size attempt received left = .ok bytes) :
    bytes <+: file := by
  induction left generalizing attempt received with
  | zero =>
      rw [streamFrom, pure_eq_ok] at reading
      rw [← reading]
      exact start
  | succ left inductionHypothesis =>
      rw [streamFrom] at reading
      split at reading
      · rw [pure_eq_ok] at reading
        rw [← reading]
        exact start
      · split at reading
        · cases reading
        · exact inductionHypothesis start reading
        · rename_i status chunk answered
          have expected : status = if received.length ≠ 0 then 206 else 200 := by
            by_contra other
            rw [if_pos other] at reading
            cases reading
          rw [if_neg (not_not.mpr expected)] at reading
          apply inductionHypothesis (append_of_drop_length start _) reading
          by_cases none : received.length = 0
          · rw [none] at expected answered ⊢
            rw [expected] at answered
            exact serves.whole attempt chunk answered
          · rw [if_pos none] at expected
            rw [expected] at answered
            exact serves.rest attempt _ chunk (Nat.pos_of_ne_zero none) answered

theorem stream_servesFile (serves : ServesFile outside url file)
    (reading : stream outside url size = .ok bytes) :
    bytes = file.take size ∧ bytes.length = size := by
  unfold stream at reading
  simp only [bind_eq_ok, require_eq_ok, pure_eq_ok] at reading
  obtain ⟨received, reading, _, length, rfl⟩ := reading
  have start := streamFrom_servesFile serves List.nil_prefix reading
  refine ⟨?_, length⟩
  rw [← length]
  exact List.prefix_iff_eq_take.mp start

end Download

/-! ### Exactness -/

/-- The parts sent are the bytes written, they fit the provider for every size admitted, and a
download is the range asked for. -/
structure CopiesExactly : Prop where
  sent : ∀ send key partSize chunks parts,
    multipartUpload send key partSize chunks = .ok parts →
      SentExactly partSize chunks.flatten parts
  room : ∀ send key size partSize (chunks : List Bytes),
    planetPartSizeOfFloat size = .ok partSize → chunks.flatten.length = size →
      (∀ number body, (send number body).isOk = true) →
      ∃ parts, multipartUpload send key partSize chunks = .ok parts ∧ parts.length ≤ maxParts
  read : ∀ outside url size file bytes, ServesFile outside url file →
    stream outside url size = .ok bytes → bytes = file.take size ∧ bytes.length = size

theorem copiesExactly : CopiesExactly where
  sent _ _ _ _ _ uploading := multipartUpload_sent uploading
  room := by
    intro send key size partSize chunks admitted length takes
    have room := planetPartSize_room (planetPartSizeOfFloat_ok_iff.mp admitted)
    obtain ⟨parts, uploading⟩ : ∃ parts, multipartUpload send key partSize chunks = .ok parts :=
      (multipartUpload_isOk_iff room.2 takes).mpr (length ▸ room.1)
    exact ⟨parts, uploading, (multipartUpload_sent uploading).limit⟩
  read _ _ _ _ _ serves reading := stream_servesFile serves reading

end Vidit.Maps

import OpenTaker.BlockFiles

/-!
# Flushing with writes that fail

`CHFile::write_w` answers with the number of bytes when all of them were written, with 0 when
fewer were written or none, and with -1 when no file is open. `CBlockFile::flush` does not
look at the answer: it empties the block and returns 0.

So a flush keeps the buffered bytes just when all of them are written, whatever called it.
-/

namespace OpenTaker

/-- What `::write` does: it writes so many bytes of those it is given, or fails. -/
inductive WriteOutcome where
  | written (count : Nat)
  | failed
deriving DecidableEq

/-- The bytes that reach the file, which are none in the case of an error. -/
def WriteOutcome.accepted (outcome : WriteOutcome) (data : List UInt8) : List UInt8 :=
  match outcome with
  | .written count => data.take count
  | .failed => []

/-- The result of `::write`: the number of bytes it took, or minus one. -/
def WriteOutcome.result (outcome : WriteOutcome) (data : List UInt8) : Int :=
  match outcome with
  | .written _ => (outcome.accepted data).length
  | .failed => -1

namespace BlockFile

/-- The bytes in the block that were saved and not flushed. -/
def buffered (file : BlockFile) : List UInt8 := file.block.take file.blockSize

end BlockFile

/-- A call of `flush`: the block file before it, its result, and the block file after it. -/
structure FlushReport where
  before : BlockFile
  code : Int
  after : BlockFile

/-- All buffered bytes are in the file, or the result is an error and those that are not in
the file are in the block. -/
def FlushReport.Kept (report : FlushReport) : Prop :=
  report.after.written = report.before.written ++ report.before.buffered ∨
    report.code ≠ 0 ∧ ∃ count,
      report.after.written = report.before.written ++ report.before.buffered.take count ∧
        report.after.buffered = report.before.buffered.drop count

/-- A block file with its handle, and the calls of `flush` so far, for the history only. -/
structure DiskFile where
  file : BlockFile
  isOpen : Bool
  reports : List FlushReport
  /-- All calls have returned without undefined behaviour. -/
  defined : Bool

namespace DiskFile

/-- A file with any contents of its block, opened or not, about which nothing has been reported yet. -/
def start (file : BlockFile) (isOpen : Bool) : DiskFile := ⟨file, isOpen, [], true⟩

/-- `write_w` at the position of the file: its result, and the bytes that were written. -/
def writeW (disk : DiskFile) (outcome : WriteOutcome) (data : List UInt8) : Int × List UInt8 :=
  if disk.isOpen then
    let n := outcome.result data
    if n ≠ data.length then (0, outcome.accepted data) else (n, outcome.accepted data)
  else (-1, [])

/-- The history with a call of `flush`: the file in front of it, the code it returned and the file
behind it. -/
def report (disk : DiskFile) (code : Int) (after : BlockFile) : DiskFile :=
  { disk with file := after, reports := disk.reports ++ [⟨disk.file, code, after⟩] }

/-- The call does something undefined, such as reading behind its block. The history remembers it. -/
def undefined (disk : DiskFile) : DiskFile := { disk with defined := false }

/-- `flush`, with the outcome of its write. The result of the write is dropped and 0 is returned,
also where nothing was accepted. -/
def flush (disk : DiskFile) (outcome : WriteOutcome) : Option (Int × DiskFile) :=
  if disk.file.blockSize > 0 then
    if disk.file.blockSize ≤ BUFFER_SIZE then
      let (_, accepted) := disk.writeW outcome disk.file.buffered
      let after := { disk.file with written := disk.file.written ++ accepted, blockSize := 0 }
      some (0, disk.report 0 after)
    else none
  else some (0, disk.report 0 disk.file)

/-- `saveData` of bytes, with so many rounds of its loop. -/
def saveBytesLoop (data : List UInt8) (outcome : WriteOutcome) : Nat → DiskFile → DiskFile
  | 0, disk => disk.undefined
  | rounds + 1, disk =>
      if u32 (disk.file.blockSize + data.length) > BUFFER_SIZE then
        match disk.flush outcome with
        | some (_, flushed) => saveBytesLoop data outcome rounds flushed
        | none => disk.undefined
      else
        match disk.file.store disk.file.blockSize data with
        | some stored =>
            { disk with file := { stored with blockSize := u32 (disk.file.blockSize + data.length) } }
        | none => disk.undefined

/-- `saveData` of a format, with so many rounds of its loop from `dst` on. -/
def saveFormatLoop (text : List UInt8) (takesArguments : Bool) (outcome : WriteOutcome) :
    Nat → Bool → Nat → DiskFile → DiskFile
  | 0, _, _, disk => disk.undefined
  | rounds + 1, used, dst, disk =>
      if used && takesArguments then disk.undefined
      else
        match disk.file.vsnprintf dst (u64 (2 ^ 64 + BUFFER_SIZE - disk.file.blockSize)) text with
        | none => disk.undefined
        | some printed =>
            if u32 text.length = u32 (2 ^ 32 + BUFFER_SIZE - disk.file.blockSize) then
              match printed.store (disk.file.blockSize + 1) [0] with
              | some terminated =>
                  match ({ disk with file := terminated }).flush outcome with
                  | some (_, flushed) =>
                      saveFormatLoop text takesArguments outcome rounds true 0 flushed
                  | none => disk.undefined
              | none => disk.undefined
            else
              { disk with file := { printed with blockSize := u32 (disk.file.blockSize + text.length) } }

/-- `close`: `flush` first, and `CHFile::close` after it, whatever `flush` has returned. -/
def close (disk : DiskFile) (outcome : WriteOutcome) : Option (Int × DiskFile) :=
  (disk.flush outcome).map (fun (_, flushed) => (0, { flushed with isOpen := false }))

end DiskFile

/-- One call, with the outcome of the write if it makes one. -/
inductive DiskCall where
  | reopen (opened : Bool)
  | saveNull
  | saveBytes (record : Record) (outcome : WriteOutcome)
  | saveFormat (record : Record) (takesArguments : Bool) (outcome : WriteOutcome)
  | flush (outcome : WriteOutcome)
  | close (outcome : WriteOutcome)

namespace DiskFile

/-- The state after `flush` and `close`, in the calls that return one result for both. -/
def returned (disk : DiskFile) (result : Option (Int × DiskFile)) : DiskFile :=
  match result with
  | some (_, after) => after
  | none => disk.undefined

/-- Perform one call. Two rounds of a loop are enough. After undefined behaviour there is no
further call. -/
def step (disk : DiskFile) (call : DiskCall) : Option DiskFile :=
  if disk.defined then
    match call with
    | .reopen opened => some { disk with isOpen := opened }
    | .saveNull => some disk
    | .saveBytes record outcome => some (disk.saveBytesLoop record.bytes outcome 2)
    | .saveFormat record takesArguments outcome =>
        some (disk.saveFormatLoop record.bytes takesArguments outcome 2 false disk.file.blockSize)
    | .flush outcome => some (disk.returned (disk.flush outcome))
    | .close outcome => some (disk.returned (disk.close outcome))
  else none

/-- The bytes in the block are all written: a file is open and the write takes as many. -/
def WritesAll (disk : DiskFile) (outcome : WriteOutcome) : Prop :=
  disk.isOpen = true ∧ ∃ count, outcome = .written count ∧ disk.file.blockSize ≤ count

variable {disk next : DiskFile} {outcome : WriteOutcome} {text : List UInt8} {takesArguments : Bool}

/-- As many bytes are buffered as the size of the block says, while that is inside of the buffer. -/
theorem buffered_length {file : BlockFile} (inside : file.blockSize ≤ BUFFER_SIZE) :
    file.buffered.length = file.blockSize := by
  rw [BlockFile.buffered, List.length_take, file.size, Nat.min_eq_left inside]

/-- What `write_w` writes is all of the buffered bytes just when the write is complete. -/
theorem writeW_all (inside : disk.file.blockSize ≤ BUFFER_SIZE) (some : 0 < disk.file.blockSize) :
    (disk.writeW outcome disk.file.buffered).2 = disk.file.buffered ↔ disk.WritesAll outcome := by
  have length := buffered_length inside
  have notEmpty : disk.file.buffered ≠ [] := List.length_pos_iff.mp (by omega)
  unfold writeW WritesAll
  cases opened : disk.isOpen with
  | false => simpa using Ne.symm notEmpty
  | true =>
    cases outcome with
    | failed => simpa [WriteOutcome.accepted, WriteOutcome.result] using Ne.symm notEmpty
    | written count =>
      have whole : disk.file.buffered.take count = disk.file.buffered ↔ disk.file.blockSize ≤ count := by
        constructor
        · intro same
          have shorter := congrArg List.length same
          rw [List.length_take, length] at shorter
          omega
        · intro enough
          exact List.take_of_length_le (by omega)
      simpa [WriteOutcome.accepted, apply_ite Prod.snd] using whole

/-- With nothing buffered, a flush has nothing to do and keeps everything. -/
theorem flush_empty (empty : disk.file.blockSize = 0) (outcome : WriteOutcome) :
    disk.flush outcome = some (0, disk.report 0 disk.file) ∧ FlushReport.Kept ⟨disk.file, 0, disk.file⟩ := by
  refine ⟨by rw [flush, if_neg (by omega)], .inl ?_⟩
  simp [BlockFile.buffered, empty]

/-- A block that is filled beyond its size is read beyond its end, which has no outcome. -/
theorem flush_over (tooFull : BUFFER_SIZE < disk.file.blockSize) (outcome : WriteOutcome) :
    disk.flush outcome = none := by
  rw [flush, if_pos (by omega), if_neg (by omega)]

/-- With complete writes a flush is the one that assumes them. -/
theorem flush_complete (complete : disk.WritesAll outcome) :
    (disk.flush outcome).map (fun (_, after) => after.file) = disk.file.flush := by
  rcases Nat.eq_zero_or_pos disk.file.blockSize with empty | some
  · rw [(flush_empty empty outcome).1, BlockFile.flush, if_neg (by omega)]
    rfl
  · by_cases inside : disk.file.blockSize ≤ BUFFER_SIZE
    · have all := (writeW_all inside some).mpr complete
      rw [flush, if_pos some, if_pos inside, BlockFile.flush, if_pos some, if_pos inside]
      simp only [Option.map_some, report, all]
      rfl
    · rw [flush_over (by omega), BlockFile.flush, if_pos some, if_neg inside]
      rfl

end DiskFile

end OpenTaker

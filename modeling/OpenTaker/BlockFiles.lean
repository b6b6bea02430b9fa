import OpenTaker.Runs
import OpenTaker.PacketRing
import OpenTaker.ByteReads

/-!
# Buffered block files

A `CBlockFile` collects records in a block of one megabyte and writes the block when the
next record does not fit. The overload for bytes asks before it copies. The formatted one
prints first and compares the length of the text with the space that was left for it, so
that only a text of exactly this length is taken for one that does not fit; it is printed
again with the arguments that the first printing has used up.

So the stream is preserved just in the runs in which each formatted text is shorter than the
space that is left, or as long as it, with no argument printed and room for the terminator
that is written behind it.
-/

namespace OpenTaker

/-- `BUFFER_SIZE`, one MiB, which is the size of every block. -/
def BUFFER_SIZE : Nat := 1048576

/-- Store bytes at an offset, over what stands there. The bytes in front and behind stay. -/
def overwrite (bytes : List UInt8) (offset : Nat) (part : List UInt8) : List UInt8 :=
  bytes.take offset ++ part ++ bytes.drop (offset + part.length)

/-- A `CBlockFile`, and the bytes that `write_w` has written to its file. -/
structure BlockFile where
  block : List UInt8
  size : block.length = BUFFER_SIZE
  blockSize : Nat
  written : List UInt8

/-- How a call ends: with its result, or by leaving the memory it may write to. -/
inductive SaveOutcome where
  | returned (file : BlockFile)
  /-- It reads or writes outside of the block, or uses an argument list again. -/
  | undefined
  | running

namespace BlockFile

/-- The constructor, over any contents of the block: only the fill count is set, and the bytes are
left as they were. -/
def new (block : List UInt8) (size : block.length = BUFFER_SIZE) : BlockFile := ⟨block, size, 0, []⟩

/-- Store bytes in the block, when they are inside of it. -/
def store (file : BlockFile) (offset : Nat) (part : List UInt8) : Option BlockFile :=
  if fits : offset + part.length ≤ BUFFER_SIZE then
    some { file with
      block := overwrite file.block offset part
      size := by
        have size := file.size
        simp [overwrite]
        omega }
  else none

/-- `flush`: write the buffered bytes to the file and start the block again, whatever comes of the
write. -/
def flush (file : BlockFile) : Option BlockFile :=
  if file.blockSize > 0 then
    if file.blockSize ≤ BUFFER_SIZE then
      some { file with written := file.written ++ file.block.take file.blockSize, blockSize := 0 }
    else none
  else some file

/-- `saveData` of bytes, with so many rounds of its loop. -/
def saveBytesLoop (data : List UInt8) : Nat → BlockFile → SaveOutcome
  | 0, _ => .running
  | rounds + 1, file =>
      if u32 (file.blockSize + data.length) > BUFFER_SIZE then
        match file.flush with
        | some flushed => saveBytesLoop data rounds flushed
        | none => .undefined
      else
        match file.store file.blockSize data with
        | some stored =>
            .returned { stored with blockSize := u32 (file.blockSize + data.length) }
        | none => .undefined

/-- `vsnprintf` of a text at `dst` with so much space: the characters that fit and a
terminator are stored. Its result is the length of the whole text. -/
def vsnprintf (file : BlockFile) (dst space : Nat) (text : List UInt8) : Option BlockFile :=
  file.store dst (if space = 0 then [] else text.take (space - 1) ++ [0])

/-- `saveData` of a format, with so many rounds of its loop from `dst` on. The argument list
may be used again only if no argument has been taken from it. -/
def saveFormatLoop (text : List UInt8) (takesArguments : Bool) : Nat → Bool → Nat → BlockFile → SaveOutcome
  | 0, _, _, _ => .running
  | rounds + 1, used, dst, file =>
      if used && takesArguments then .undefined
      else
        match file.vsnprintf dst (u64 (2 ^ 64 + BUFFER_SIZE - file.blockSize)) text with
        | none => .undefined
        | some printed =>
            if u32 text.length = u32 (2 ^ 32 + BUFFER_SIZE - file.blockSize) then
              match (printed.store (file.blockSize + 1) [0]).bind flush with
              | some flushed => saveFormatLoop text takesArguments rounds true 0 flushed
              | none => .undefined
            else .returned { printed with blockSize := u32 (file.blockSize + text.length) }

/-- `close` of the buffer; the file itself is closed after it. -/
def close (file : BlockFile) : Option BlockFile := file.flush

end BlockFile

/-- The bytes of a record, which is shorter than the block: longer ones are refused by the assertion
of the source. -/
structure Record where
  bytes : List UInt8
  short : bytes.length < BUFFER_SIZE

/-- One call. A NULL pointer is refused by both overloads. -/
inductive FileCall where
  | saveNull
  | saveBytes (record : Record)
  | saveFormat (record : Record) (takesArguments : Bool)
  | flush
  | close

/-- A block file, the records that were given to it, and whether all calls have returned
without undefined behaviour. -/
structure SavedFile where
  file : BlockFile
  records : List UInt8
  defined : Bool

namespace SavedFile

/-- A file that has been opened, with whatever the uninitialised block holds. -/
def new (block : List UInt8) (size : block.length = BUFFER_SIZE) : SavedFile :=
  ⟨.new block size, [], true⟩

/-- The state after a call with its outcome: the file the call left behind, with the record added to
those that were asked for. -/
def after (state : SavedFile) (record : List UInt8) : SaveOutcome → SavedFile
  | .returned file => { state with file := file, records := state.records ++ record }
  | .undefined => { state with records := state.records ++ record, defined := false }
  | .running => { state with records := state.records ++ record, defined := false }

/-- Perform one call. Two rounds of a loop are enough. -/
def step (state : SavedFile) : FileCall → Option SavedFile
  | .saveNull => some state
  | .saveBytes record =>
      some (state.after record.bytes (state.file.saveBytesLoop record.bytes 2))
  | .saveFormat record takesArguments =>
      some (state.after record.bytes
        (state.file.saveFormatLoop record.bytes takesArguments 2 false state.file.blockSize))
  | .flush => some (state.after [] (state.file.flush.elim .undefined .returned))
  | .close => some (state.after [] (state.file.close.elim .undefined .returned))

/-- All calls have returned, the block is not overfull, and the file and the block together
hold the records. -/
structure Preserved (state : SavedFile) : Prop where
  defined : state.defined = true
  inside : state.file.blockSize ≤ BUFFER_SIZE
  stream : state.file.written ++ state.file.block.take state.file.blockSize = state.records

/-- A formatted text leaves a byte of the block free, or it is as long as the space that is
left, two bytes at least, and takes no argument. -/
def Fits (state : SavedFile) : FileCall → Prop
  | .saveFormat record takesArguments =>
      state.file.blockSize + record.bytes.length < BUFFER_SIZE ∨
        state.file.blockSize + record.bytes.length = BUFFER_SIZE ∧ 2 ≤ record.bytes.length ∧
          takesArguments = false
  | _ => True

end SavedFile

/-! ## What the functions do -/

section Overwrite

variable {bytes : List UInt8} (part : List UInt8) {offset count : Nat}

/-- What is stored at the end of a part follows it. -/
theorem take_overwrite (inside : offset ≤ bytes.length) :
    (overwrite bytes offset part).take (offset + part.length) = bytes.take offset ++ part := by
  apply List.take_left'
  simp [inside]

/-- What is stored behind a part leaves it alone. -/
theorem take_overwrite_before (inside : offset ≤ bytes.length) (before : count ≤ offset) :
    (overwrite bytes offset part).take count = bytes.take count := by
  rw [overwrite, List.append_assoc, List.take_append_of_le_length (by simp; omega), List.take_take,
    Nat.min_eq_left before]

end Overwrite

namespace BlockFile

variable (file : BlockFile) {text : List UInt8} {takesArguments used : Bool} (rounds : Nat)

/-- The stream that a file stands for: what is written and what is buffered. -/
def content (file : BlockFile) : List UInt8 := file.written ++ file.block.take file.blockSize

/-- A store that fits inside of the block writes its part, and neither the size nor the file. The
size is advanced by its caller. -/
theorem store_eq {offset : Nat} {part : List UInt8} (fits : offset + part.length ≤ BUFFER_SIZE) :
    ∃ stored, file.store offset part = some stored ∧ stored.block = overwrite file.block offset part ∧
      stored.blockSize = file.blockSize ∧ stored.written = file.written := by
  rw [store, dif_pos fits]
  exact ⟨_, rfl, rfl, rfl, rfl⟩

/-- `flush` empties the block into the stream and keeps the content, which is what the stream and
the block hold together. -/
theorem flush_eq (inside : file.blockSize ≤ BUFFER_SIZE) :
    ∃ flushed, file.flush = some flushed ∧ flushed.blockSize = 0 ∧ flushed.content = file.content := by
  unfold flush
  by_cases empty : file.blockSize > 0
  · rw [if_pos empty, if_pos inside]
    exact ⟨_, rfl, rfl, by simp [content]⟩
  · rw [if_neg empty]
    exact ⟨file, rfl, by omega, rfl⟩

/-- Bytes that fit behind what the block holds are appended to the content in one round of the loop,
without a flush. -/
theorem saveBytesLoop_fits (fits : file.blockSize + text.length ≤ BUFFER_SIZE) :
    ∃ saved, file.saveBytesLoop text (rounds + 1) = .returned saved ∧
      saved.blockSize = file.blockSize + text.length ∧ saved.content = file.content ++ text := by
  have size : BUFFER_SIZE = 1048576 := rfl
  have small : u32 (file.blockSize + text.length) = file.blockSize + text.length :=
    u32_of_lt (by omega)
  obtain ⟨stored, isStored, block, -, written⟩ := file.store_eq fits
  rw [saveBytesLoop, small, if_neg (Nat.not_lt.mpr fits), isStored]
  refine ⟨_, rfl, rfl, ?_⟩
  have inside : file.blockSize ≤ file.block.length := by
    rw [file.size]
    omega
  simp only [content, written, block]
  rw [take_overwrite text inside, List.append_assoc]

/-- Every record of bytes is appended to the stream. -/
theorem saveBytesLoop_eq (inside : file.blockSize ≤ BUFFER_SIZE) (short : text.length < BUFFER_SIZE) :
    ∃ saved, file.saveBytesLoop text 2 = .returned saved ∧ saved.blockSize ≤ BUFFER_SIZE ∧
      saved.content = file.content ++ text := by
  have size : BUFFER_SIZE = 1048576 := rfl
  by_cases fits : file.blockSize + text.length ≤ BUFFER_SIZE
  · obtain ⟨saved, returned, filled, content⟩ := file.saveBytesLoop_fits 1 fits
    exact ⟨saved, returned, by omega, content⟩
  · obtain ⟨flushed, isFlushed, empty, kept⟩ := file.flush_eq inside
    have room : flushed.blockSize + text.length ≤ BUFFER_SIZE := by omega
    obtain ⟨saved, returned, filled, content⟩ := flushed.saveBytesLoop_fits 0 room
    have small : u32 (file.blockSize + text.length) = file.blockSize + text.length :=
      u32_of_lt (by omega)
    refine ⟨saved, ?_, by omega, by rw [content, kept]⟩
    rw [saveBytesLoop, small, if_pos (by omega), isFlushed]
    exact returned

/-- The space that is left, as the two comparisons of the code compute it. -/
theorem space_eq (inside : file.blockSize ≤ BUFFER_SIZE) :
    u64 (2 ^ 64 + BUFFER_SIZE - file.blockSize) = BUFFER_SIZE - file.blockSize ∧
      u32 (2 ^ 32 + BUFFER_SIZE - file.blockSize) = BUFFER_SIZE - file.blockSize := by
  have size : BUFFER_SIZE = 1048576 := rfl
  simp only [u64, u32, size] at *
  omega

/-- `vsnprintf` stores inside of the space it is given and touches neither the stream nor the bytes
in front. -/
theorem vsnprintf_eq (text : List UInt8) (inside : file.blockSize ≤ BUFFER_SIZE) :
    ∃ printed, file.vsnprintf file.blockSize (BUFFER_SIZE - file.blockSize) text = some printed ∧
      printed.written = file.written ∧ printed.blockSize = file.blockSize ∧
      printed.block.take file.blockSize = file.block.take file.blockSize ∧
      (file.blockSize + text.length < BUFFER_SIZE →
        printed.block.take (file.blockSize + text.length) = file.block.take file.blockSize ++ text) := by
  have within : file.blockSize ≤ file.block.length := by
    rw [file.size]
    exact inside
  unfold vsnprintf
  by_cases none : BUFFER_SIZE - file.blockSize = 0
  · obtain ⟨printed, isPrinted, block, kept, written⟩ :=
      file.store_eq (by simpa using inside : file.blockSize + [].length ≤ BUFFER_SIZE)
    refine ⟨printed, by rw [if_pos none, isPrinted], written, kept, ?_, by omega⟩
    rw [block, take_overwrite_before _ within (Nat.le_refl _)]
  · have fits : file.blockSize + (text.take (BUFFER_SIZE - file.blockSize - 1) ++ [0]).length ≤ BUFFER_SIZE := by
      rw [List.length_append, List.length_take, List.length_singleton]
      omega
    obtain ⟨printed, isPrinted, block, kept, written⟩ := file.store_eq fits
    refine ⟨printed, by rw [if_neg none, isPrinted], written, kept, ?_, ?_⟩
    · rw [block, take_overwrite_before _ within (Nat.le_refl _)]
    · intro shorter
      have whole : text.take (BUFFER_SIZE - file.blockSize - 1) = text := List.take_of_length_le (by omega)
      have stored := take_overwrite (text ++ [0]) within
      rw [List.length_append, List.length_singleton, ← Nat.add_assoc] at stored
      have shorterTake := congrArg (List.take (file.blockSize + text.length)) stored
      rw [List.take_take, Nat.min_eq_left (Nat.le_succ _)] at shorterTake
      rw [block, whole, shorterTake, ← List.append_assoc]
      apply List.take_left'
      simp [within]

/-- A formatted text that leaves a byte free is appended to the stream. -/
theorem saveFormatLoop_fits (usable : (used && takesArguments) = false)
    (shorter : file.blockSize + text.length < BUFFER_SIZE) :
    ∃ saved, file.saveFormatLoop text takesArguments (rounds + 1) used file.blockSize = .returned saved ∧
      saved.blockSize = file.blockSize + text.length ∧ saved.content = file.content ++ text := by
  have size : BUFFER_SIZE = 1048576 := rfl
  have inside : file.blockSize ≤ BUFFER_SIZE := by omega
  obtain ⟨space, left⟩ := file.space_eq inside
  obtain ⟨printed, isPrinted, written, -, -, stored⟩ := file.vsnprintf_eq text inside
  have different : u32 text.length ≠ BUFFER_SIZE - file.blockSize := by
    rw [u32_of_lt (by omega)]
    omega
  have small : u32 (file.blockSize + text.length) = file.blockSize + text.length :=
    u32_of_lt (by omega)
  rw [saveFormatLoop, usable, if_neg Bool.false_ne_true, space, isPrinted, left]
  refine ⟨_, if_neg different, small, ?_⟩
  simp only [content, written, small, stored shorter, List.append_assoc]

/-- A longer text overfills the block: `vsnprintf` cuts it, and the source takes the length that
would have been needed. -/
theorem saveFormatLoop_over (inside : file.blockSize ≤ BUFFER_SIZE) (short : text.length < BUFFER_SIZE)
    (longer : BUFFER_SIZE < file.blockSize + text.length) :
    ∃ saved, file.saveFormatLoop text takesArguments (rounds + 1) false file.blockSize = .returned saved ∧
      BUFFER_SIZE < saved.blockSize := by
  have size : BUFFER_SIZE = 1048576 := rfl
  obtain ⟨space, left⟩ := file.space_eq inside
  obtain ⟨printed, isPrinted, -⟩ := file.vsnprintf_eq text inside
  have different : u32 text.length ≠ BUFFER_SIZE - file.blockSize := by
    rw [u32_of_lt (by omega)]
    omega
  rw [saveFormatLoop, Bool.false_and, if_neg Bool.false_ne_true, space, isPrinted, left]
  refine ⟨_, if_neg different, ?_⟩
  rw [u32_of_lt (by omega)]
  exact longer

/-- A text as long as the space that is left is printed again into the emptied block, when
a byte can be stored behind the next one. -/
theorem saveFormatLoop_exact (takesArguments : Bool) (short : text.length < BUFFER_SIZE)
    (exact : file.blockSize + text.length = BUFFER_SIZE) (room : 2 ≤ text.length) :
    ∃ flushed : BlockFile, flushed.blockSize = 0 ∧ flushed.content = file.content ∧
      file.saveFormatLoop text takesArguments (rounds + 1) false file.blockSize =
        flushed.saveFormatLoop text takesArguments rounds true flushed.blockSize := by
  have size : BUFFER_SIZE = 1048576 := rfl
  have inside : file.blockSize ≤ BUFFER_SIZE := by omega
  obtain ⟨space, left⟩ := file.space_eq inside
  obtain ⟨printed, isPrinted, written, filled, kept, -⟩ := file.vsnprintf_eq text inside
  have same : u32 text.length = BUFFER_SIZE - file.blockSize := by
    rw [u32_of_lt (by omega)]
    omega
  obtain ⟨terminated, isTerminated, block, filledStill, writtenStill⟩ :=
    printed.store_eq (by simp; omega : file.blockSize + 1 + [(0 : UInt8)].length ≤ BUFFER_SIZE)
  obtain ⟨flushed, isFlushed, empty, sameContent⟩ := terminated.flush_eq (by omega)
  refine ⟨flushed, empty, ?_, ?_⟩
  · have within : file.blockSize + 1 ≤ printed.block.length := by
      rw [printed.size]
      omega
    rw [sameContent, content, content, writtenStill, written, filledStill, filled, block,
      take_overwrite_before _ within (Nat.le_succ _), kept]
  · rw [saveFormatLoop, Bool.false_and, if_neg Bool.false_ne_true, space, isPrinted, left]
    simp only [if_pos same, isTerminated, Option.bind_some, isFlushed, empty]

/-- Without that byte the one behind the next lies outside of the block. -/
theorem saveFormatLoop_last (exact : file.blockSize + text.length = BUFFER_SIZE)
    (noRoom : text.length < 2) :
    file.saveFormatLoop text takesArguments (rounds + 1) false file.blockSize = .undefined := by
  have size : BUFFER_SIZE = 1048576 := rfl
  have inside : file.blockSize ≤ BUFFER_SIZE := by omega
  obtain ⟨space, left⟩ := file.space_eq inside
  obtain ⟨printed, isPrinted, -⟩ := file.vsnprintf_eq text inside
  have same : u32 text.length = BUFFER_SIZE - file.blockSize := by
    rw [u32_of_lt (by omega)]
    omega
  have outside : printed.store (file.blockSize + 1) [0] = none :=
    dif_neg (by rw [List.length_singleton]; omega)
  rw [saveFormatLoop, Bool.false_and, if_neg Bool.false_ne_true, space, isPrinted, left]
  simp only [if_pos same, outside, Option.bind_none]

end BlockFile

/-! ## The stream over every run -/

namespace SavedFile

variable {state next : SavedFile}

/-- A call that returns with its record appended preserves the stream. -/
theorem Preserved.returned (preserved : Preserved state) {record : List UInt8} {saved : BlockFile}
    (inside : saved.blockSize ≤ BUFFER_SIZE) (content : saved.content = state.file.content ++ record) :
    Preserved (state.after record (.returned saved)) := by
  refine ⟨preserved.defined, inside, ?_⟩
  have stream : state.file.content = state.records := preserved.stream
  exact content.trans (by rw [stream]; rfl)

/-- `flush` preserves the stream, and so does `close`, which is a flush and nothing else as far as
the bytes are concerned. -/
theorem Preserved.flushed (preserved : Preserved state) :
    Preserved (state.after [] (state.file.flush.elim .undefined .returned)) := by
  obtain ⟨flushed, isFlushed, empty, kept⟩ := state.file.flush_eq preserved.inside
  rw [isFlushed]
  exact preserved.returned (by omega) (by rw [kept, List.append_nil])

/-- A formatted text that fits is appended to the stream. -/
theorem Preserved.saveFormat (preserved : Preserved state) {record : Record} {takesArguments : Bool}
    (fits : Fits state (.saveFormat record takesArguments)) :
    Preserved (state.after record.bytes
      (state.file.saveFormatLoop record.bytes takesArguments 2 false state.file.blockSize)) := by
  rcases fits with shorter | ⟨exact, room, noArgument⟩
  · obtain ⟨saved, returned, filled, content⟩ :=
      state.file.saveFormatLoop_fits 1 (Bool.false_and takesArguments) shorter
    rw [returned]
    exact preserved.returned (by omega) content
  · obtain ⟨flushed, empty, kept, again⟩ :=
      state.file.saveFormatLoop_exact 1 takesArguments record.short exact room
    have short := record.short
    obtain ⟨saved, returned, filled, content⟩ :=
      flushed.saveFormatLoop_fits 0 (by rw [noArgument]; rfl : (true && takesArguments) = false)
        (by omega : flushed.blockSize + record.bytes.length < BUFFER_SIZE)
    rw [again, returned]
    exact preserved.returned (by omega) (by rw [content, kept])

/-- Every call that fits preserves the stream: what has been asked for is what is in the file and in
the block, in that order. -/
theorem Preserved.step (preserved : Preserved state) {call : FileCall} (fits : Fits state call)
    (stepped : state.step call = some next) : Preserved next := by
  cases call with
  | saveNull =>
    cases stepped
    exact preserved
  | saveBytes record =>
    cases stepped
    obtain ⟨saved, returned, inside, content⟩ :=
      state.file.saveBytesLoop_eq preserved.inside record.short
    rw [returned]
    exact preserved.returned inside content
  | saveFormat record takesArguments =>
    cases stepped
    exact preserved.saveFormat fits
  | flush =>
    cases stepped
    exact preserved.flushed
  | close =>
    cases stepped
    exact preserved.flushed

/-- Every formatted text that does not fit breaks it. -/
theorem Preserved.broken (preserved : Preserved state) {call : FileCall} (unfit : ¬ Fits state call)
    (stepped : state.step call = some next) : ¬ Preserved next := by
  cases call with
  | saveFormat record takesArguments =>
    cases stepped
    have inside := preserved.inside
    have short := record.short
    rw [Fits, not_or] at unfit
    obtain ⟨notShorter, notAgain⟩ := unfit
    rcases Nat.lt_or_ge BUFFER_SIZE (state.file.blockSize + record.bytes.length) with longer | notLonger
    · obtain ⟨saved, returned, beyond⟩ := state.file.saveFormatLoop_over 1 inside short longer
      rw [returned]
      intro preservedAfter
      exact absurd preservedAfter.inside (Nat.not_le.mpr beyond)
    · have exact : state.file.blockSize + record.bytes.length = BUFFER_SIZE := by omega
      by_cases room : 2 ≤ record.bytes.length
      · obtain ⟨flushed, -, -, again⟩ :=
          state.file.saveFormatLoop_exact 1 takesArguments short exact room
        have argument : takesArguments = true := by
          by_contra noArgument
          exact notAgain ⟨exact, room, by simpa using noArgument⟩
        rw [again, argument]
        intro preservedAfter
        cases preservedAfter.defined
      · rw [state.file.saveFormatLoop_last 1 exact (by omega)]
        intro preservedAfter
        cases preservedAfter.defined
  | saveNull => exact absurd trivial unfit
  | saveBytes => exact absurd trivial unfit
  | flush => exact absurd trivial unfit
  | close => exact absurd trivial unfit

/-- A new file has nothing buffered and nothing written, so that nothing can have been lost. -/
theorem preserved_new (block : List UInt8) (size : block.length = BUFFER_SIZE) :
    Preserved (new block size) := ⟨rfl, Nat.zero_le _, rfl⟩

/-- The stream is preserved throughout just the runs whose formatted texts fit. What is returned or
left undefined in the other runs does not matter. -/
theorem preserved_iff (block : List UInt8) (size : block.length = BUFFER_SIZE) (calls : List FileCall) :
    Runs.Throughout step Preserved (new block size) calls ↔ Runs.Meets step Fits (new block size) calls := by
  apply Runs.throughout_iff_meets step Fits Preserved Preserved
  · exact fun _ preserved => preserved
  · exact fun _ _ _ preserved fits stepped => preserved.step fits stepped
  · intro state call _
    cases call <;> exact ⟨_, rfl⟩
  · exact fun _ _ _ preserved unfit stepped => preserved.broken unfit stepped
  · exact preserved_new block size

/-- A record of zeros, of any length that a block can hold. -/
def zeros (count : Nat) (short : count < BUFFER_SIZE) : Record :=
  ⟨List.replicate count 0, by rwa [List.length_replicate]⟩

/-- The text of zeros is as long as it is said to be. -/
theorem zeros_length (count : Nat) (short : count < BUFFER_SIZE) :
    (zeros count short).bytes.length = count := List.length_replicate

/-- A text fits into an empty block, since a record that is formatted is shorter than the block by
its own definition. -/
theorem fits_new (block : List UInt8) (size : block.length = BUFFER_SIZE) (record : Record)
    (takesArguments : Bool) : Fits (new block size) (.saveFormat record takesArguments) := by
  have short := record.short
  have empty : (new block size).file.blockSize = 0 := rfl
  left
  omega

/-- A formatted text of ten characters in an empty block, which has room for it and for the
terminator. -/
theorem preserved_short_text :
    Runs.Throughout step Preserved (new (List.replicate BUFFER_SIZE 0) List.length_replicate)
      [.saveFormat (zeros 10 (by decide)) true] :=
  (preserved_iff _ _ _).mpr ⟨fits_new _ _ _ _, fun _ _ => trivial⟩

/-- A record of bytes and a formatted text that are too long together. -/
theorem not_preserved_of_longer (block : List UInt8) (size : block.length = BUFFER_SIZE)
    (first second : Record) (takesArguments : Bool)
    (longer : BUFFER_SIZE < first.bytes.length + second.bytes.length) :
    ¬ Runs.Throughout step Preserved (new block size)
      [.saveBytes first, .saveFormat second takesArguments] := by
  rintro ⟨-, afterFirst⟩
  have short := first.short
  have empty : (BlockFile.new block size).blockSize = 0 := rfl
  obtain ⟨saved, returned, filled, -⟩ :=
    (BlockFile.new block size).saveBytesLoop_fits 1 (by omega : _ + first.bytes.length ≤ BUFFER_SIZE)
  have stepped : step (new block size) (.saveBytes first) =
      some ((new block size).after first.bytes (.returned saved)) := by
    rw [← returned]
    rfl
  obtain ⟨preserved, afterSecond⟩ := afterFirst _ stepped
  have level : ((new block size).after first.bytes (.returned saved)).file.blockSize =
      first.bytes.length := by
    change saved.blockSize = _
    omega
  have unfit : ¬ Fits ((new block size).after first.bytes (.returned saved))
      (.saveFormat second takesArguments) := by
    rw [Fits, level]
    omega
  exact preserved.broken unfit rfl (afterSecond _ rfl)

/-- Five bytes are left and ten are printed: the block is overfull, because the result of
`vsnprintf` is compared with the space by equality only. -/
theorem overfull_by_five :
    ¬ Runs.Throughout step Preserved (new (List.replicate BUFFER_SIZE 0) List.length_replicate)
      [.saveBytes (zeros 1048571 (by decide)), .saveFormat (zeros 10 (by decide)) true] := by
  apply not_preserved_of_longer
  have together : BUFFER_SIZE < 1048571 + 10 := by decide
  rw [zeros_length, zeros_length]
  exact together

end SavedFile

end OpenTaker

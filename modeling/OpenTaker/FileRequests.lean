import OpenTaker.FreeObjects
import OpenTaker.PacketRing

/-!
# Requests of asynchronous files

`CHFile::read` and `CHFile::write` enter the operation, the handle and the next index of the
file in a request and submit it to the kernel. A handler of the `CFilePool` collects events of
completed requests, at most `MAX_EVENTS` at a time, calls back for each of them and releases
the request. The request pool is a `CObjectPool3`, and one client takes its requests.

The kernel is the part that is not here: a submission returns what it likes, and what is in
flight is completed in any order.
-/

namespace OpenTaker

/-- `OPERATION_TYPE`: the file counts the requests of the two operations apart. -/
inductive OperationType where
  | fileRead
  | fileWrite
deriving DecidableEq

/-- `PER_FILEIO_INFO_t`. The buffer is an address; the contexts are left out. A request has no
operation until it is used for the first time. -/
structure FileRequest where
  hFile : Nat
  optType : Option OperationType
  index : Nat
  offset : Nat
  dataLen : Nat
  buffer : Nat
deriving DecidableEq

/-- The parts of a `CHFile` that the two functions use. -/
structure HFile where
  /-- `none` is `INVALID_HANDLE_VALUE`. -/
  fileHandle : Option Nat
  readIndex : Nat
  writeIndex : Nat

/-- The index of the next request of an operation. -/
def HFile.nextIndex (file : HFile) : OperationType → Nat
  | .fileRead => file.readIndex
  | .fileWrite => file.writeIndex

/-- What `read` and `write` enter in a request before it is submitted, over what an earlier use has
left in it. -/
def FileRequest.prepare (request : FileRequest) (handle index : Nat) (optType : OperationType) :
    FileRequest :=
  { request with hFile := handle, optType := some optType, index := index }

/-- What a submission leaves: the result code, the file, the request and the last error of the
thread. -/
structure Submitting where
  code : Int
  file : HFile
  request : FileRequest
  lastError : Int

/-- `CHFile::read`, when `io_submit` returns `z`. On Linux that call sets no error, so that the
code of a refusal is the error that the thread has seen last. -/
def HFile.read (file : HFile) (request : FileRequest) (z lastError : Int) : Submitting :=
  match file.fileHandle with
  | none => ⟨-1, file, request, lastError⟩
  | some handle =>
      let prepared := request.prepare handle file.readIndex .fileRead
      if z = 1 then ⟨0, { file with readIndex := u32 (file.readIndex + 1) }, prepared, lastError⟩
      else ⟨lastError, file, prepared, lastError⟩

/-- `CHFile::write`. It sets the error before it reads it. -/
def HFile.write (file : HFile) (request : FileRequest) (z lastError : Int) : Submitting :=
  match file.fileHandle with
  | none => ⟨-1, file, request, lastError⟩
  | some handle =>
      let prepared := request.prepare handle file.writeIndex .fileWrite
      if z = 1 then ⟨0, { file with writeIndex := u32 (file.writeIndex + 1) }, prepared, lastError⟩
      else ⟨-z, file, prepared, -z⟩

/-- The call for either operation, by which the two are treated in one. -/
def HFile.submit (file : HFile) (request : FileRequest) (z lastError : Int) :
    OperationType → Submitting
  | .fileRead => file.read request z lastError
  | .fileWrite => file.write request z lastError

/-- `MAX_EVENTS`, the number of events that a handler collects at a time. -/
def maxEvents : Nat := 16

/-- The request of an event and its result, as `io_getevents` reports them. -/
abbrev IoEvent := Nat × Int

/-- A submission that the kernel has taken, for the history only. -/
structure Submission where
  file : Nat
  optType : OperationType
  request : FileRequest
deriving DecidableEq

/-- A call of one of the two callbacks, with the number of its submission for the history. -/
structure IoCallback where
  number : Nat
  optType : OperationType
  request : FileRequest
  res : Int

/-- A call of `read` or `write` that has returned, with the answer of `io_submit` and the code that
the caller was given. -/
structure SubmitResult where
  optType : OperationType
  z : Int
  lastError : Int
  code : Int

/-- A `CFilePool` with its client, its files, its handlers and the kernel. -/
structure FilePool where
  /-- `m_IOContextPool`. -/
  pool : ObjectPool
  requests : Nat → FileRequest
  files : Nat → HFile
  /-- The last error of the client's thread. -/
  lastError : Int
  /-- The requests the client has and has not submitted. -/
  owned : List Nat
  inFlight : List Nat
  /-- The events that no handler has collected. -/
  completed : List IoEvent
  /-- The events that each handler has still to work off. -/
  handlers : List (List IoEvent)
  submitted : List Submission
  /-- The number of the last submission of a request. -/
  number : Nat → Nat
  callbacks : List IoCallback
  results : List SubmitResult

namespace FilePool

/-- A pool with its handlers started, over files that are open or not. -/
def start (blockNum : Int) (threads : Nat) (handles : Nat → Option Nat) : FilePool where
  pool := ObjectPool.ioContextPool blockNum
  requests := fun _ => ⟨0, none, 0, 0, 0, 0⟩
  files := fun file => ⟨handles file, 0, 0⟩
  lastError := 0
  owned := []
  inFlight := []
  completed := []
  handlers := List.replicate threads []
  submitted := []
  number := fun _ => 0
  callbacks := []
  results := []

/-- A step of the client, of the kernel or of a handler. -/
inductive Step where
  /-- The client gets a request. -/
  | getBlock
  /-- It enters where and what is to be read or written. -/
  | fill (obj offset dataLen buffer : Nat)
  /-- It calls `read` or `write`, and `io_submit` returns `z`. -/
  | submit (optType : OperationType) (file obj : Nat) (z : Int)
  /-- It gives a request back that it has not submitted. -/
  | release (obj : Nat)
  /-- Another call of the client's thread fails. -/
  | fail (error : Int)
  /-- The kernel completes a request. -/
  | complete (obj : Nat) (res : Int)
  /-- A handler that has worked off its events collects so many others. -/
  | collect (handler count : Nat)
  /-- A handler works off its next event. -/
  | handle (handler : Nat)

/-- Let the client get a request while the handlers make no access. -/
def getBlock (state : FilePool) : Option FilePool :=
  (state.pool.returnWithin 0 (state.pool.objCount + 3)).map fun (obj, pool) =>
    { state with pool := pool, owned := state.owned ++ [obj] }

/-- The client calls `read` or `write` with a request of its own. -/
def submit (state : FilePool) (optType : OperationType) (file obj : Nat) (z : Int) : FilePool :=
  let done := (state.files file).submit (state.requests obj) z state.lastError optType
  let after := { state with
    requests := Function.update state.requests obj done.request
    files := Function.update state.files file done.file
    lastError := done.lastError
    results := state.results ++ [⟨optType, z, state.lastError, done.code⟩] }
  if (state.files file).fileHandle.isSome ∧ z = 1 then
    { after with
      owned := state.owned.erase obj
      inFlight := state.inFlight ++ [obj]
      submitted := state.submitted ++ [⟨file, optType, done.request⟩]
      number := Function.update state.number obj state.submitted.length }
  else after

/-- One event in the loop of `IoHandler`; `none` when `assert(false)` is reached. -/
def handle (state : FilePool) (handler : Nat) : Option FilePool :=
  match state.handlers[handler]? with
  | some ((obj, res) :: rest) =>
      (state.requests obj).optType.map fun optType =>
        { state with
          pool := state.pool.release obj
          handlers := state.handlers.set handler rest
          callbacks := state.callbacks ++ [⟨state.number obj, optType, state.requests obj, res⟩] }
  | _ => none

/-- Perform one step. The client uses what it owns, and the kernel completes what is in
flight. -/
def step (state : FilePool) : Step → Option FilePool
  | .getBlock => state.getBlock
  | .fill obj offset dataLen buffer =>
      if obj ∈ state.owned then
        some { state with
          requests := Function.update state.requests obj
            { state.requests obj with offset := offset, dataLen := dataLen, buffer := buffer } }
      else none
  | .submit optType file obj z =>
      if obj ∈ state.owned ∧ z ≤ 1 ∧ z ≠ 0 then some (state.submit optType file obj z) else none
  | .release obj =>
      if obj ∈ state.owned then
        some { state with pool := state.pool.release obj, owned := state.owned.erase obj }
      else none
  | .fail error => some { state with lastError := error }
  | .complete obj res =>
      if obj ∈ state.inFlight then
        some { state with
          inFlight := state.inFlight.erase obj
          completed := state.completed ++ [(obj, res)] }
      else none
  | .collect handler count =>
      if state.handlers[handler]? = some [] ∧ count ≤ maxEvents then
        some { state with
          completed := state.completed.drop count
          handlers := state.handlers.set handler (state.completed.take count) }
      else none
  | .handle handler => state.handle handler

/-- The requests between their submission and their callback: with the kernel, with an event to be
collected, or with a handler. -/
def outside (state : FilePool) : List Nat :=
  state.inFlight ++ state.completed.map Prod.fst ++ state.handlers.flatten.map Prod.fst

/-- Where the submissions of a file and an operation stand in the history. -/
def submissions (state : FilePool) (file : Nat) (optType : OperationType) : List Submission :=
  state.submitted.filter fun submission => submission.file = file ∧ submission.optType = optType

end FilePool

end OpenTaker

import OpenTaker.DescriptorTables
import OpenTaker.Runs

/-!
# The descriptors of sockets and files

Sockets and files keep a descriptor of the process and close it by its number. `open` of a
socket closes what it had; `createAndBind`, `setHandle` after `accept`, and `open` and
`attach` of a file write over it. `setHandle` keeps no number that is not positive, so a
connection that gets descriptor 0 is in no variable.

The kernel gives numbers that are not in use, also those that have been closed before. What
other code of the process opens and closes is part of the runs.

`attach` of a file takes any number. With automatic closing the file takes the descriptor over, and
whoever had it must not close it any more; without it the file is only lent the number, which stays
its owner's. Nothing in the code keeps a caller from attaching what another object has, or from
calling `close` on a file with a lent number. The results are about runs without these two.
-/

namespace OpenTaker

open DescriptorTables

/-- An object that keeps a descriptor: a `CSocketBase` or a `CHFile`. -/
inductive HandleObject where
  | socket (id : Nat)
  | file (id : Nat)
deriving DecidableEq

/-- The descriptors of a process and its objects. The table has what an object owns. -/
structure Process where
  table : Table HandleObject Nat
  /-- The number in `m_fileHandle` of a file that was attached without automatic closing. -/
  lent : Nat → Option Nat
  alive : HandleObject → Bool
  /-- `m_auto_close` and `m_autoClose`. -/
  autoClose : HandleObject → Bool

/-- A process without objects, in which other code may have descriptors open. -/
def Process.start (outside : Nat → Bool) : Process where
  table := Table.start outside
  lent := fun _ => none
  alive := fun _ => false
  autoClose := fun _ => false

/-- One call of an object, or of the code around the objects, with what the kernel answers to it. -/
inductive HandleStep where
  | construct (object : HandleObject) (autoClose : Bool)
  | destruct (object : HandleObject)
  /-- `CSocketBase::open`; the reuse of addresses is wanted and may fail. -/
  | openSocket (id : Nat) (given : Option Nat) (optionFails : Bool)
  /-- `createAndBind`, with the socket for each address and whether it is bound. -/
  | createAndBind (id : Nat) (results : List (Option Nat × Bool))
  | closeSocket (id : Nat)
  /-- `CSocketTcp::accept`, with the socket for the connection. -/
  | accept (listener connected : Nat) (given : Option Nat)
  /-- `CHFile::open`, with what the last try gives. -/
  | openFile (id : Nat) (given : Option Nat)
  | closeFile (id : Nat)
  /-- `CHFile::attach` of any number, or of `INVALID_HANDLE_VALUE`. -/
  | attachFile (id : Nat) (descriptor : Option Nat) (autoClose : Bool)
  | outsideOpens (descriptor : Nat)
  | outsideCloses (descriptor : Nat)

/-- The loop of `createAndBind` over the answers of the kernel: a socket that cannot be bound is
closed again. -/
def bindLoop (object : HandleObject) :
    List (Option Nat × Bool) → Table HandleObject Nat → Option (Table HandleObject Nat)
  | [], table => some table
  | (none, _) :: rest, table => (table.assign object none).bind (bindLoop object rest)
  | (some descriptor, bound) :: rest, table =>
      (table.assign object (some descriptor)).bind fun opened =>
        if bound then some opened else bindLoop object rest (opened.release object)

namespace Process

/-- Change the descriptors alone, as calls do that make and end no object. -/
def setTable (process : Process) (table : Table HandleObject Nat) : Process :=
  { process with table := table }

/-- The descriptors after `accept` has got one for the connection. -/
def accepted (process : Process) (connected : Nat) : Option Nat → Option (Table HandleObject Nat)
  | none => some process.table
  | some 0 =>
      if (process.table.owner 0).isSome then none else some (process.table.mark 0 (some .lost))
  | some descriptor => process.table.assign (.socket connected) (some descriptor)

/-- Write `m_fileHandle` of a file with a number that it owns, or with none. -/
def unlent (process : Process) (id : Nat) (table : Table HandleObject Nat) : Process :=
  { process with table := table, lent := Function.update process.lent id none }

/-- `CHFile::close`: close what is in `m_fileHandle`, whoever owns it. -/
def closed (process : Process) (id : Nat) : Process :=
  match process.lent id with
  | some descriptor => process.unlent id (process.table.mark descriptor none)
  | none => process.setTable (process.table.release (.file id))

/-- `CHFile::attach`. It looks neither at what the file had nor at who has the number. -/
def attached (process : Process) (id : Nat) (descriptor : Option Nat) (autoClose : Bool) : Process :=
  let written := process.table.abandon (.file id)
  match descriptor, autoClose with
  | none, _ => process.unlent id written
  | some descriptor, true => process.unlent id (written.give (.file id) descriptor)
  | some descriptor, false =>
      { process with table := written, lent := Function.update process.lent id (some descriptor) }

/-- A destructor, which closes where the object closes automatically. -/
def destructed (process : Process) : HandleObject → Process
  | .socket id =>
      process.setTable
        (if process.autoClose (.socket id) then process.table.release (.socket id)
          else process.table.abandon (.socket id))
  | .file id =>
      if process.autoClose (.file id) then process.closed id
      else process.unlent id (process.table.abandon (.file id))

/-- Perform one call. A call on an object that is not there is refused. -/
def step (process : Process) : HandleStep → Option Process
  | .construct object autoClose =>
      if process.alive object then none
      else some { process with
        alive := Function.update process.alive object true
        autoClose := Function.update process.autoClose object autoClose }
  | .destruct object =>
      if process.alive object then
        some { process.destructed object with alive := Function.update process.alive object false }
      else none
  | .openSocket id given optionFails =>
      if process.alive (.socket id) then
        ((process.table.release (.socket id)).assign (.socket id) given).map fun opened =>
          process.setTable
            (if given.isSome && optionFails then opened.release (.socket id) else opened)
      else none
  | .createAndBind id results =>
      if process.alive (.socket id) then
        (bindLoop (.socket id) results process.table).map process.setTable
      else none
  | .closeSocket id =>
      if process.alive (.socket id) then some (process.setTable (process.table.release (.socket id)))
      else none
  | .accept listener connected given =>
      if process.alive (.socket listener) ∧ process.alive (.socket connected) ∧
          (given.isSome → (process.table.handle (.socket listener)).isSome) then
        (process.accepted connected given).map process.setTable
      else none
  | .openFile id given =>
      if process.alive (.file id) then
        (process.table.assign (.file id) given).map (process.unlent id)
      else none
  | .closeFile id => if process.alive (.file id) then some (process.closed id) else none
  | .attachFile id descriptor autoClose =>
      if process.alive (.file id) then
        some { process.attached id descriptor autoClose with
          autoClose := Function.update process.autoClose (.file id) autoClose }
      else none
  | .outsideOpens descriptor =>
      if process.table.owner descriptor = none then
        some (process.setTable (process.table.mark descriptor (some .outside)))
      else none
  | .outsideCloses descriptor =>
      if process.table.owner descriptor = some .outside then
        some (process.setTable (process.table.mark descriptor none))
      else none

/-- The call writes over a descriptor that is open, or leaves a new one in no variable. -/
def loses (process : Process) : HandleStep → Bool
  | .destruct object => !process.autoClose object && (process.table.handle object).isSome
  | .createAndBind id results =>
      !results.isEmpty && (process.table.handle (.socket id)).isSome
  | .accept _ connected given =>
      match given with
      | none => false
      | some 0 => true
      | some _ => (process.table.handle (.socket connected)).isSome
  | .openFile id _ => (process.table.handle (.file id)).isSome
  | .attachFile id _ _ => (process.table.handle (.file id)).isSome
  | _ => false

/-- The call takes over a number that is not open at other code, which gives it up, or closes a file
that was only lent its number. -/
def oversteps (process : Process) : HandleStep → Bool
  | .closeFile id => (process.lent id).isSome
  | .attachFile _ (some descriptor) true => process.table.owner descriptor ≠ some .outside
  | _ => false

end Process

/-- The object whose variable a call may write. A call of other code writes none. -/
def HandleStep.object : HandleStep → Option HandleObject
  | .destruct object => some object
  | .openSocket id _ _ => some (.socket id)
  | .createAndBind id _ => some (.socket id)
  | .closeSocket id => some (.socket id)
  | .accept _ connected _ => some (.socket connected)
  | .openFile id _ => some (.file id)
  | .closeFile id => some (.file id)
  | .attachFile id _ _ => some (.file id)
  | _ => none

/-- The descriptor that other code closes or hands over. What is lent is not given up. -/
def HandleStep.givenUp : HandleStep → Option Nat
  | .attachFile _ descriptor true => descriptor
  | .outsideCloses descriptor => some descriptor
  | _ => none

/-! ## The parts of the calls -/

variable {table after : Table HandleObject Nat} {object : HandleObject}

/-- The loop over the addresses keeps what others have, by induction on the addresses. -/
theorem bindLoop_apart (results : List (Option Nat × Bool)) (sound : table.Sound)
    (looped : bindLoop object results table = some after) : Table.Apart object table after := by
  induction results generalizing table with
  | nil =>
    cases looped
    exact Table.Apart.refl sound
  | cons result rest inductionHypothesis =>
    obtain ⟨given, bound⟩ := result
    cases given with
    | none =>
      obtain ⟨opened, assigned, further⟩ := Option.bind_eq_some_iff.mp looped
      have first := Table.Apart.assign sound assigned
      exact first.trans (inductionHypothesis first.sound further)
    | some descriptor =>
      obtain ⟨opened, assigned, further⟩ := Option.bind_eq_some_iff.mp looped
      have first := Table.Apart.assign sound assigned
      split at further
      · cases further
        exact first
      · have closed := first.trans (Table.Apart.release first.sound object)
        exact closed.trans (inductionHypothesis closed.sound further)

namespace Process

variable {process next : Process} {label : HandleStep}

/-- What `accept` does with its new number is apart from all objects but the connected one, whether
the number is taken or lost. -/
theorem accepted_apart {connected : Nat} {given : Option Nat} (sound : process.table.Sound)
    (accepts : process.accepted connected given = some after) :
    Table.Apart (.socket connected) process.table after := by
  match given with
  | none =>
    cases accepts
    exact Table.Apart.refl sound
  | some 0 =>
    simp only [accepted] at accepts
    split at accepts
    · cases accepts
    · rename_i free
      cases accepts
      have unused : process.table.owner 0 = none := Option.not_isSome_iff_eq_none.mp free
      exact {
        sound := sound.mark (by simp [unused]) (by simp)
        others := fun _ _ => rfl
        outside := fun descriptor noted => by
          have apart : descriptor ≠ 0 := by
            rintro rfl
            rw [unused] at noted
            cases noted
          simp [Table.mark, apart, noted] }
  | some (descriptor + 1) =>
    simp only [accepted] at accepts
    exact Table.Apart.assign sound accepts

/-- What a call does that is not refused, one case for each call: what it asks of the process in front of
it, and what it leaves behind. The properties of a step are shown on these cases. -/
inductive HandleMove (process : Process) : HandleStep → Process → Prop where
  | construct (object : HandleObject) (autoClose : Bool) (isNew : process.alive object = false) :
      HandleMove process (.construct object autoClose) { process with
        alive := Function.update process.alive object true
        autoClose := Function.update process.autoClose object autoClose }
  | destruct (object : HandleObject) (alive : process.alive object = true) :
      HandleMove process (.destruct object)
        { process.destructed object with alive := Function.update process.alive object false }
  | openSocket (id : Nat) (given : Option Nat) (optionFails : Bool) (opened : Table HandleObject Nat)
      (alive : process.alive (.socket id) = true)
      (assigned : (process.table.release (.socket id)).assign (.socket id) given = some opened) :
      HandleMove process (.openSocket id given optionFails)
        (process.setTable (if given.isSome && optionFails then opened.release (.socket id) else opened))
  | createAndBind (id : Nat) (results : List (Option Nat × Bool)) (bound : Table HandleObject Nat)
      (alive : process.alive (.socket id) = true)
      (looped : bindLoop (.socket id) results process.table = some bound) :
      HandleMove process (.createAndBind id results) (process.setTable bound)
  | closeSocket (id : Nat) (alive : process.alive (.socket id) = true) :
      HandleMove process (.closeSocket id) (process.setTable (process.table.release (.socket id)))
  | accept (listener connected : Nat) (given : Option Nat) (opened : Table HandleObject Nat)
      (alive : process.alive (.socket listener) = true ∧ process.alive (.socket connected) = true)
      (listens : given.isSome → (process.table.handle (.socket listener)).isSome)
      (accepts : process.accepted connected given = some opened) :
      HandleMove process (.accept listener connected given) (process.setTable opened)
  | openFile (id : Nat) (given : Option Nat) (opened : Table HandleObject Nat)
      (alive : process.alive (.file id) = true)
      (assigned : process.table.assign (.file id) given = some opened) :
      HandleMove process (.openFile id given) (process.unlent id opened)
  | closeFile (id : Nat) (alive : process.alive (.file id) = true) :
      HandleMove process (.closeFile id) (process.closed id)
  | attachFile (id : Nat) (descriptor : Option Nat) (autoClose : Bool)
      (alive : process.alive (.file id) = true) :
      HandleMove process (.attachFile id descriptor autoClose)
        { process.attached id descriptor autoClose with
          autoClose := Function.update process.autoClose (.file id) autoClose }
  | outsideOpens (descriptor : Nat) (unused : process.table.owner descriptor = none) :
      HandleMove process (.outsideOpens descriptor)
        (process.setTable (process.table.mark descriptor (some .outside)))
  | outsideCloses (descriptor : Nat) (noted : process.table.owner descriptor = some .outside) :
      HandleMove process (.outsideCloses descriptor)
        (process.setTable (process.table.mark descriptor none))

/-- Each step is one of these moves. Behind this theorem no proof looks into the calls again. -/
theorem step_move (stepped : process.step label = some next) : HandleMove process label next := by
  cases label with
  | construct object autoClose =>
    obtain ⟨isNew, same⟩ := Option.ite_none_left_eq_some.mp stepped
    cases same
    exact .construct object autoClose (Bool.not_eq_true _ ▸ isNew)
  | destruct object =>
    obtain ⟨alive, same⟩ := Option.ite_none_right_eq_some.mp stepped
    cases same
    exact .destruct object alive
  | openSocket id given optionFails =>
    obtain ⟨alive, opens⟩ := Option.ite_none_right_eq_some.mp stepped
    obtain ⟨opened, assigned, rfl⟩ := Option.map_eq_some_iff.mp opens
    exact .openSocket id given optionFails opened alive assigned
  | createAndBind id results =>
    obtain ⟨alive, binds⟩ := Option.ite_none_right_eq_some.mp stepped
    obtain ⟨bound, looped, rfl⟩ := Option.map_eq_some_iff.mp binds
    exact .createAndBind id results bound alive looped
  | closeSocket id =>
    obtain ⟨alive, same⟩ := Option.ite_none_right_eq_some.mp stepped
    cases same
    exact .closeSocket id alive
  | accept listener connected given =>
    obtain ⟨⟨alive, connectedAlive, listens⟩, accepted⟩ := Option.ite_none_right_eq_some.mp stepped
    obtain ⟨opened, accepts, rfl⟩ := Option.map_eq_some_iff.mp accepted
    exact .accept listener connected given opened ⟨alive, connectedAlive⟩ listens accepts
  | openFile id given =>
    obtain ⟨alive, opens⟩ := Option.ite_none_right_eq_some.mp stepped
    obtain ⟨opened, assigned, rfl⟩ := Option.map_eq_some_iff.mp opens
    exact .openFile id given opened alive assigned
  | closeFile id =>
    obtain ⟨alive, same⟩ := Option.ite_none_right_eq_some.mp stepped
    cases same
    exact .closeFile id alive
  | attachFile id descriptor autoClose =>
    obtain ⟨alive, same⟩ := Option.ite_none_right_eq_some.mp stepped
    cases same
    exact .attachFile id descriptor autoClose alive
  | outsideOpens descriptor =>
    obtain ⟨unused, same⟩ := Option.ite_none_right_eq_some.mp stepped
    cases same
    exact .outsideOpens descriptor unused
  | outsideCloses descriptor =>
    obtain ⟨noted, same⟩ := Option.ite_none_right_eq_some.mp stepped
    cases same
    exact .outsideCloses descriptor noted

/-- What a call keeps: each object has just the descriptors noted as its own, the other objects
have what they had, and other code has what it has not given up. -/
structure StepKept (process : Process) (label : HandleStep) (next : Process) : Prop where
  sound : next.table.Sound
  others : ∀ object, label.object ≠ some object →
    next.table.handle object = process.table.handle object
  outside : ∀ descriptor, process.table.owner descriptor = some .outside →
    label.givenUp ≠ some descriptor → next.table.owner descriptor = some .outside

/-- Where the tables are apart but for the object that a call names, the call has touched nobody
else. -/
theorem stepKept_of_apart (object : HandleObject) (names : label.object = some object)
    (apart : Table.Apart object process.table next.table) : StepKept process label next where
  sound := apart.sound
  others other distinct := apart.others other fun same => distinct (same ▸ names)
  outside descriptor noted _ := apart.outside descriptor noted

/-- Giving an object a descriptor of other code is sound: that code gives it up with the call. -/
theorem attach_sound {descriptor : Nat} (sound : table.Sound)
    (noted : table.owner descriptor = some .outside) :
    ((table.abandon object).give object descriptor).Sound := by
  have outside := (Table.Apart.abandon sound object).outside descriptor noted
  exact (sound.abandon object).give (Table.abandon_handle_self table object) (by simp [outside])

/-- A file that was lent a number is alive, owns no descriptor and does not close automatically. So the
only way to close the number by the file is to call `close`. -/
def Lenient (process : Process) : Prop :=
  ∀ id, (process.lent id).isSome → process.alive (.file id) = true ∧
    process.autoClose (.file id) = false ∧ process.table.handle (.file id) = none

/-- A file that was lent nothing closes its own descriptor. -/
theorem closed_eq {id : Nat} (own : process.lent id = none) :
    process.closed id = process.setTable (process.table.release (.file id)) := by
  rw [closed, own]

/-- After `close` the file has no number, its own or a lent one. -/
theorem closed_lent (id : Nat) : (process.closed id).lent = Function.update process.lent id none := by
  rw [closed]
  split
  · rfl
  · rename_i own
    exact (Function.update_eq_self_iff.mpr own.symm).symm

/-- `close` ends no object, so that it can be opened again. -/
theorem closed_alive (id : Nat) : (process.closed id).alive = process.alive := by
  rw [closed]
  split <;> rfl

/-- Nor does it change what a destructor will do. -/
theorem closed_autoClose (id : Nat) : (process.closed id).autoClose = process.autoClose := by
  rw [closed]
  split <;> rfl

/-- `attach` ends no object either, and makes none, with and without `autoClose`. -/
theorem attached_alive (id : Nat) (descriptor : Option Nat) (autoClose : Bool) :
    (process.attached id descriptor autoClose).alive = process.alive := by
  cases descriptor <;> cases autoClose <;> rfl

/-- A destructor closes just what the object owns, since a file with a lent number does not close. -/
theorem destructed_table (lenient : process.Lenient) (object : HandleObject) :
    (process.destructed object).table =
      if process.autoClose object then process.table.release object else process.table.abandon object := by
  cases object with
  | socket id => rfl
  | file id =>
    rw [destructed]
    cases closes : process.autoClose (.file id) with
    | false => rfl
    | true =>
      have own : process.lent id = none := by
        by_contra isLent
        have kept := (lenient id (Option.isSome_iff_ne_none.mpr isLent)).2.1
        rw [closes] at kept
        cases kept
      simp only [if_true, closed_eq own]
      rfl

/-- A file has a lent number after a call just if it was lent it by the call, or had it before and the
call is not for this file. -/
theorem lent_step {id : Nat} (isLent : (next.lent id).isSome) (stepped : process.step label = some next) :
    (∃ descriptor, label = .attachFile id (some descriptor) false) ∨
      label.object ≠ some (.file id) ∧ next.lent id = process.lent id := by
  have cleared {other : Nat} {after : Process} (same : after.lent = Function.update process.lent other none)
      (isLent : (after.lent id).isSome) : other ≠ id ∧ after.lent id = process.lent id := by
    rw [same] at isLent ⊢
    have distinct : other ≠ id := by
      rintro rfl
      rw [Function.update_self] at isLent
      cases isLent
    exact ⟨distinct, Function.update_of_ne distinct.symm ..⟩
  cases step_move stepped with
  | construct | openSocket | createAndBind | closeSocket | accept | outsideOpens | outsideCloses =>
    exact .inr ⟨by simp [HandleStep.object], rfl⟩
  | destruct object =>
    cases object with
    | socket other => exact .inr ⟨by simp [HandleStep.object], rfl⟩
    | file other =>
      have same : (process.destructed (.file other)).lent = Function.update process.lent other none := by
        rw [destructed]
        split
        · exact closed_lent other
        · rfl
      obtain ⟨distinct, kept⟩ := cleared same isLent
      exact .inr ⟨by simpa [HandleStep.object] using distinct, kept⟩
  | openFile other given opened =>
    obtain ⟨distinct, kept⟩ := cleared rfl isLent
    exact .inr ⟨by simpa [HandleStep.object] using distinct, kept⟩
  | closeFile other =>
    obtain ⟨distinct, kept⟩ := cleared (closed_lent other) isLent
    exact .inr ⟨by simpa [HandleStep.object] using distinct, kept⟩
  | attachFile other descriptor autoClose =>
    by_cases lends : ∃ number, descriptor = some number ∧ autoClose = false
    · obtain ⟨number, rfl, rfl⟩ := lends
      by_cases same : other = id
      · exact .inl ⟨number, by rw [same]⟩
      · exact .inr ⟨by simpa [HandleStep.object] using same,
          Function.update_of_ne (Ne.symm same) _ _⟩
    · have same : (process.attached other descriptor autoClose).lent =
          Function.update process.lent other none := by
        cases descriptor with
        | none => rfl
        | some number =>
          cases autoClose with
          | true => rfl
          | false => exact absurd ⟨number, rfl, rfl⟩ lends
      obtain ⟨distinct, kept⟩ := cleared same isLent
      exact .inr ⟨by simpa [HandleStep.object] using distinct, kept⟩

/-- `attach` keeps what all others have. With automatic closing the number comes from other code, which
has given it up; without it the number stays where it is. -/
theorem stepKept_attach {id : Nat} {descriptor : Option Nat} {autoClose : Bool} (sound : process.table.Sound)
    (careful : process.oversteps (.attachFile id descriptor autoClose) = false) :
    StepKept process (.attachFile id descriptor autoClose) { process.attached id descriptor autoClose with
      autoClose := Function.update process.autoClose (.file id) autoClose } := by
  have abandoned := Table.Apart.abandon sound (.file id)
  have overwritten := @stepKept_of_apart process { process with table := process.table.abandon (.file id) }
    (.attachFile id descriptor autoClose) (.file id) rfl abandoned
  cases descriptor with
  | none => exact ⟨overwritten.sound, overwritten.others, overwritten.outside⟩
  | some number =>
    cases autoClose with
    | false => exact ⟨overwritten.sound, overwritten.others, overwritten.outside⟩
    | true =>
      have noted : process.table.owner number = some .outside := by
        simpa [oversteps] using careful
      exact {
        sound := attach_sound sound noted
        others := fun object distinct => by
          have apart : object ≠ .file id := fun same => distinct (congrArg some same.symm)
          exact (Table.give_handle_other apart).trans (abandoned.others object apart)
        outside := fun other held kept => by
          have apart : other ≠ number := fun same => kept (congrArg some same.symm)
          exact (Table.give_owner apart).trans (abandoned.outside other held) }

/-- A call that does not overstep keeps what all others have. The cases are the calls: each writes the
variable of one object, and closes no number but that object's own. -/
theorem stepKept (sound : process.table.Sound) (lenient : process.Lenient)
    (careful : process.oversteps label = false) (stepped : process.step label = some next) :
    StepKept process label next := by
  cases step_move stepped with
  | construct => exact ⟨sound, fun _ _ => rfl, fun _ noted _ => noted⟩
  | destruct object =>
    apply stepKept_of_apart object rfl
    simp only [destructed_table lenient]
    split
    · exact Table.Apart.release sound object
    · exact Table.Apart.abandon sound object
  | openSocket id given optionFails opened alive assigned =>
    have closed := Table.Apart.release sound (.socket id)
    have first := closed.trans (Table.Apart.assign closed.sound assigned)
    apply stepKept_of_apart (.socket id) rfl
    simp only [setTable]
    split
    · exact first.trans (Table.Apart.release first.sound (.socket id))
    · exact first
  | createAndBind id results bound alive looped =>
    exact stepKept_of_apart (.socket id) rfl (bindLoop_apart results sound looped)
  | closeSocket id => exact stepKept_of_apart (.socket id) rfl (Table.Apart.release sound (.socket id))
  | accept listener connected given opened alive listens accepts =>
    exact stepKept_of_apart (.socket connected) rfl (accepted_apart sound accepts)
  | openFile id given opened alive assigned =>
    exact stepKept_of_apart (.file id) rfl (Table.Apart.assign sound assigned)
  | closeFile id =>
    rw [closed_eq (Option.isSome_eq_false_iff.mp careful |> Option.isNone_iff_eq_none.mp)]
    exact stepKept_of_apart (.file id) rfl (Table.Apart.release sound (.file id))
  | attachFile id descriptor autoClose => exact stepKept_attach sound careful
  | outsideOpens descriptor unused =>
    exact {
      sound := sound.mark (by simp [unused]) (by simp)
      others := fun _ _ => rfl
      outside := fun number noted _ => by
        simp only [setTable, Table.mark, Function.update_apply]
        split
        · rfl
        · exact noted }
  | outsideCloses descriptor noted =>
    exact {
      sound := sound.mark (by simp [noted]) (by simp)
      others := fun _ _ => rfl
      outside := fun number outside kept => by
        have apart : number ≠ descriptor := fun same => kept (congrArg some same.symm)
        simp only [setTable, Table.mark, Function.update_of_ne apart]
        exact outside }

/-- An object with a descriptor is alive, so that its destructor is still to come. -/
def Living (process : Process) : Prop :=
  ∀ object, process.table.handle object ≠ none → process.alive object = true

/-- The object whose variable a call may write is alive. -/
theorem alive_of_object (names : label.object = some object)
    (stepped : process.step label = some next) : process.alive object = true := by
  cases step_move stepped with
  | construct | outsideOpens | outsideCloses => cases names
  | accept listener connected given opened alive =>
    cases names
    exact alive.2
  | destruct | openSocket | createAndBind | closeSocket | openFile | closeFile | attachFile =>
    cases names
    assumption

/-- A call ends no object but the one that is destructed. -/
theorem alive_step (survives : label ≠ .destruct object) (alive : process.alive object = true)
    (stepped : process.step label = some next) : next.alive object = true := by
  cases step_move stepped with
  | construct other autoClose =>
    simp only [Function.update_apply]
    split
    · rfl
    · exact alive
  | destruct other =>
    have distinct : object ≠ other := fun same => survives (congrArg _ same.symm)
    simpa only [Function.update_of_ne distinct] using alive
  | closeFile =>
    rw [closed_alive]
    exact alive
  | attachFile =>
    simp only [attached_alive]
    exact alive
  | openSocket | createAndBind | closeSocket | accept | openFile | outsideOpens | outsideCloses => exact alive

/-- A call changes what a destructor will do for no object that lives, but the one it is for. -/
theorem autoClose_step (names : label.object ≠ some object) (alive : process.alive object = true)
    (stepped : process.step label = some next) : next.autoClose object = process.autoClose object := by
  cases step_move stepped with
  | construct other autoClose isNew =>
    have distinct : object ≠ other := by
      rintro rfl
      rw [alive] at isNew
      cases isNew
    exact Function.update_of_ne distinct ..
  | destruct other =>
    cases other with
    | socket id => rfl
    | file id =>
      simp only [destructed]
      split
      · rw [closed_autoClose]
      · rfl
  | closeFile => rw [closed_autoClose]
  | attachFile id =>
    have distinct : object ≠ .file id := fun same => names (congrArg some same.symm)
    exact Function.update_of_ne distinct ..
  | openSocket | createAndBind | closeSocket | accept | openFile | outsideOpens | outsideCloses => rfl

/-- An object that is destructed has no descriptor any more. -/
theorem handle_destruct (lenient : process.Lenient) (stepped : process.step (.destruct object) = some next) :
    next.table.handle object = none := by
  cases step_move stepped with
  | destruct =>
    simp only [destructed_table lenient]
    split
    · exact Table.release_handle_self ..
    · exact Table.abandon_handle_self ..

/-- What holds between any two calls: the table agrees with its notes, lent numbers are nobody's own, and
only living objects have a descriptor. -/
structure Kept (process : Process) : Prop where
  sound : process.table.Sound
  lenient : process.Lenient
  living : process.Living

/-- An object that gets a descriptor is alive, and one that is destructed has none any more. -/
theorem Kept.living_step (kept : process.Kept) (careful : process.oversteps label = false)
    (stepped : process.step label = some next) : next.Living := by
  intro object held
  have survives : label ≠ .destruct object := by
    rintro rfl
    exact held (handle_destruct kept.lenient stepped)
  apply alive_step survives _ stepped
  by_cases names : label.object = some object
  · exact alive_of_object names stepped
  · apply kept.living object
    rw [← (stepKept kept.sound kept.lenient careful stepped).others object names]
    exact held

/-- A file that is lent a number lets go of its own first; a file that was lent one before is not touched
by the calls for others. -/
theorem Kept.lenient_step (kept : process.Kept) (careful : process.oversteps label = false)
    (stepped : process.step label = some next) : next.Lenient := by
  intro id isLent
  rcases lent_step isLent stepped with ⟨descriptor, rfl⟩ | ⟨names, same⟩
  · cases step_move stepped with
    | attachFile id lent closes alive =>
      exact ⟨by rw [attached_alive, alive], Function.update_self .., Table.abandon_handle_self ..⟩
  · rw [same] at isLent
    obtain ⟨alive, keeps, nothing⟩ := kept.lenient id isLent
    have survives : label ≠ .destruct (.file id) := by
      rintro rfl
      exact names rfl
    refine ⟨alive_step survives alive stepped, ?_, ?_⟩
    · rw [autoClose_step names alive stepped, keeps]
    · rw [(stepKept kept.sound kept.lenient careful stepped).others _ names, nothing]

/-- A call that does not overstep keeps all three. -/
theorem Kept.step (kept : process.Kept) (careful : process.oversteps label = false)
    (stepped : process.step label = some next) : next.Kept where
  sound := (stepKept kept.sound kept.lenient careful stepped).sound
  lenient := kept.lenient_step careful stepped
  living := kept.living_step careful stepped

end Process

end OpenTaker

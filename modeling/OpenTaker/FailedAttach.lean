import OpenTaker.ModuleTable

/-!
# Calls of InitRing that fail

`InitRing` writes the name of an entry before it maps anything, and maps the block view,
which is what `FindModule` takes for a registration, before the other two. A call that
fails between leaves an entry behind the registered ones that is found. A full table is
not noticed at all.

The result below says exactly which failing calls leave the ring as it was.
-/

namespace OpenTaker

/-- A call of `InitRing`, whatever it answers, as a step that leaves the ring behind. -/
def attempt (ring : Ring) (call : InitCall) : Option Ring := some (initRing call ring).2

/-- No registered name starts with the name, so that a lookup by prefix finds nothing and the call
adds an entry. -/
def NewName (ring : Ring) (name : CString) : Prop :=
  ∀ id < ring.global.index, ¬ name.chars <+: (ring.global.moduleInfo id).moduleName

/-- The table entry that a call writes to, once the header is mapped. -/
def touchedEntry (call : InitCall) (name : CString) (ring : Ring) : Option Nat :=
  if (call.create .global sizeofGlobal).isSome then
    let opened := openRing call ring
    some ((findModule opened.global (some name)).getD opened.global.index)
  else none

/-- The call fails and leaves the table as it was, seen by every later lookup. -/
structure NoTrace (call : InitCall) (name : CString) (ring : Ring) : Prop where
  failed : (initRing call ring).1 = none
  inside : ∀ index, touchedEntry call name ring = some index → index < maxModuleCount
  count : (initRing call ring).2.global.index = ring.global.index
  names : ∀ id < ring.global.index,
    ((initRing call ring).2.global.moduleInfo id).moduleName = (ring.global.moduleInfo id).moduleName
  ids : ∀ other, getMyID (initRing call ring).2 (some other) = getMyID ring (some other)

/-- The mapping of the block view fails: there is no memory for the blocks and the page behind them. -/
def blockRefused (call : InitCall) (ring : Ring) : Prop :=
  call.create .block (u64 (ring.global.blockSize + pageSize)) = none

/-- The failing calls that leave no trace. A name that is found may fail anywhere. A name
that is not found must find room, an entry that no earlier failure has left mapped, and
fail with its first mapping. A call that clears the header must find no registration in
it, and leave entry 0 as an earlier failure had left it. -/
def Traceless (call : InitCall) (name : CString) (ring : Ring) : Prop :=
  call.create .global sizeofGlobal = none ∨
    if clearsHeader call ring then
      ring.global.index = 0 ∧
        if (ring.global.moduleInfo 0).blockViewStart = none then blockRefused call (openRing call ring)
        else ¬ blockRefused call (openRing call ring) ∧
          (ring.global.moduleInfo 0).moduleName = terminated (compared name)
    else
      match findModule ring.global (some name) with
      | some _ => mapsAll call ring = false
      | none =>
          ring.global.index < maxModuleCount ∧
            (ring.global.moduleInfo ring.global.index).blockViewStart = none ∧ blockRefused call ring

/-! ## The table of a ring on which calls have failed -/

/-- The registered entries are mapped, and of the others at most the first one. -/
structure Scanned (ring : Ring) (names : List (List UInt8)) : Prop where
  entries : Entries ring.global names
  registered : ring.global.index ≤ names.length
  stale : names.length ≤ ring.global.index + 1
  kept : ∀ index, ∃ chars, Storable chars ∧
    (ring.global.moduleInfo index).moduleName = terminated chars
  storable : ∀ stored ∈ names, Storable stored

/-- The ring of zero bytes has no names, and no entry that a failed call has left. -/
theorem scanned_zero : Scanned Ring.zero [] where
  entries := ⟨fun _ inside => absurd inside (Nat.not_lt_zero _), fun _ _ => rfl⟩
  registered := Nat.le_refl 0
  stale := Nat.zero_le _
  kept _ := ⟨[], storable_nil, rfl⟩
  storable _ member := by cases member

/-- Different names are stored as different characters, since each ends at its terminator. -/
theorem terminated_inj {first second : List UInt8} (storable : Storable first)
    (otherStorable : Storable second) (same : terminated first = terminated second) :
    first = second := by
  have firstBegins : first <+: second :=
    (prefix_terminated storable.noZero).mp (same ▸ List.prefix_append _ _)
  have secondBegins : second <+: first :=
    (prefix_terminated otherStorable.noZero).mp (same ▸ List.prefix_append _ _)
  exact firstBegins.eq_of_length_le secondBegins.length_le

/-- What a call has done once the header is mapped and opened: it has attached the name
under the entry that was found, or under the first one that is not counted. -/
theorem initRing_attach {call : InitCall} {name : CString} (given : call.moduleName = some name)
    (ring : Ring) (header : (call.create .global sizeofGlobal).isSome = true) :
    initRing call ring =
      attachModule call name
        ((findModule (openRing call ring).global (some name)).getD (openRing call ring).global.index)
        (findModule (openRing call ring).global (some name)).isNone (openRing call ring) := by
  obtain ⟨addr, granted⟩ := Option.isSome_iff_exists.mp header
  simp only [initRing, granted, given]
  cases findModule (openRing call ring).global (some name) <;> rfl

/-- The names after an attachment are old ones and the one that was written. -/
theorem mem_attachedNames {call : InitCall} {ring : Ring} {name : CString} {index : Nat}
    {kept stored : List UInt8} {names : List (List UInt8)}
    (member : stored ∈ attachedNames call ring name index kept names) :
    stored = overwrittenName name kept ∨ stored ∈ names := by
  simp only [attachedNames] at member
  split at member
  · exact (List.mem_or_eq_of_mem_set member).symm
  · split at member
    · rcases List.mem_append.mp member with old | added
      · exact .inr old
      · exact .inl (List.mem_singleton.mp added)
    · exact .inr member

/-- An attach adds a name as soon as the block memory is there, also when a later mapping fails. -/
theorem attachedNames_length (call : InitCall) (ring : Ring) (name : CString) (index : Nat)
    (kept : List UInt8) (names : List (List UInt8)) :
    (attachedNames call ring name index kept names).length =
      if index < names.length then names.length
      else if (call.create .block (u64 (ring.global.blockSize + pageSize))).isSome then
        names.length + 1
      else names.length := by
  simp only [attachedNames]
  split
  · exact List.length_set
  · split
    · rw [List.length_append, List.length_singleton]
    · rfl

namespace Scanned

variable {ring before : Ring} {names : List (List UInt8)} {call : InitCall} {name : CString}

/-- Opening a ring may clear its names, but keeps them if it does not. -/
theorem opened (scanned : Scanned ring names) (call : InitCall) :
    ∃ names, Scanned (openRing call ring) names := by
  cases clears : clearsHeader call ring with
  | false =>
    rw [openRing_of_not_clears clears]
    exact ⟨names, scanned⟩
  | true =>
    obtain ⟨count, -⟩ := openRing_of_clears clears
    exact ⟨[], entries_of_clears clears, by rw [count]; exact Nat.le_refl 0,
      Nat.zero_le _, fun index => ⟨[], storable_nil, moduleName_of_clears clears index⟩,
      fun _ member => by cases member⟩

/-- Attaching keeps the shape of the table, wherever it fails. -/
theorem attach (scanned : Scanned before names) (call : InitCall) (name : CString) :
    ∃ after, Scanned (attachModule call name
      ((findModule before.global (some name)).getD before.global.index)
      (findModule before.global (some name)).isNone before).2 after := by
  rw [scanned.entries.findModule_eq]
  have registered := scanned.registered
  have stale := scanned.stale
  have place : (lookup names name).getD before.global.index < names.length ∨
      lookup names name = none ∧ before.global.index = names.length := by
    cases found : lookup names name with
    | some index => exact .inl (lookup_eq_some_iff.mp found).2.1
    | none =>
      by_cases inside : before.global.index < names.length
      · exact .inl inside
      · exact .inr ⟨rfl, by omega⟩
  have bound : (lookup names name).getD before.global.index ≤ names.length := by
    rcases place with inside | ⟨absent, last⟩
    · exact Nat.le_of_lt inside
    · rw [absent, Option.getD_none, last]
  have fresh : (lookup names name).isNone = true →
      (lookup names name).getD before.global.index = before.global.index := by
    intro absent
    rw [Option.isNone_iff_eq_none.mp absent, Option.getD_none]
  generalize (lookup names name).getD before.global.index = index at place bound fresh ⊢
  generalize (lookup names name).isNone = created at fresh ⊢
  obtain ⟨kept, storable, named⟩ := scanned.kept index
  obtain ⟨written, entries⟩ := scanned.entries.attach call name index created bound storable named
  obtain ⟨others, -, counted, -⟩ := attachModule_effect call name index created before
  have grown := attachedNames_length call before name index kept names
  refine ⟨_, entries, ?_, ?_, ?_, ?_⟩
  · rw [counted, grown]
    split
    · rename_i all
      simp only [Bool.and_eq_true] at all
      rw [if_pos (block_of_mapsAll all.1)]
      have atEnd := fresh all.2
      split <;> omega
    · split
      · exact registered
      · split <;> omega
  · have counts : before.global.index ≤
        (attachModule call name index created before).2.global.index := by
      rw [counted]
      split <;> omega
    rw [grown]
    rcases place with inside | ⟨-, last⟩
    · rw [if_pos inside]
      omega
    · split
      · omega
      · split <;> omega
  · intro other
    by_cases same : other = index
    · exact ⟨_, overwrittenName_storable name storable, same ▸ written⟩
    · rw [others other same]
      exact scanned.kept other
  · intro stored member
    rcases mem_attachedNames member with rfl | old
    · exact overwrittenName_storable name storable
    · exact scanned.storable stored old

/-- A call keeps the shape of the table, whatever it answers. -/
theorem attempt (scanned : Scanned ring names) (call : InitCall) :
    ∃ after, Scanned (initRing call ring).2 after := by
  obtain ⟨openedNames, opened⟩ := scanned.opened call
  cases header : call.create .global sizeofGlobal with
  | none =>
    simp only [initRing, header]
    exact ⟨names, scanned⟩
  | some addr =>
    cases given : call.moduleName with
    | none =>
      simp only [initRing, header, given]
      exact ⟨openedNames, opened⟩
    | some name =>
      rw [initRing_attach given ring (Option.isSome_of_eq_some header)]
      exact opened.attach call name

end Scanned

/-- The table of every ring that calls have left, whether they succeeded or failed. -/
theorem scanned_run (calls : List InitCall) (ring : Ring)
    (reached : Runs.run attempt Ring.zero calls = some ring) : ∃ names, Scanned ring names :=
  Runs.run_invariant attempt (fun ring => ∃ names, Scanned ring names)
    (fun _ call _ shape stepped => by
      obtain ⟨names, scanned⟩ := shape
      obtain rfl := Option.some.inj stepped
      exact scanned.attempt call)
    Ring.zero ring calls ⟨[], scanned_zero⟩ reached

/-! ## Which failures leave no trace -/

section Traces

variable {call : InitCall} {name : CString} {ring : Ring} {names : List (List UInt8)}

/-- A call fails exactly when one of the memories is refused: with the header mapped there is no
other way out. -/
theorem initRing_failed_iff (given : call.moduleName = some name) (ring : Ring)
    (header : (call.create .global sizeofGlobal).isSome = true) :
    (initRing call ring).1 = none ↔ mapsAll call (openRing call ring) = false := by
  rw [initRing_attach given ring header, attachModule_answer]
  cases mapsAll call (openRing call ring) <;> simp

/-- A call for a name that is found leaves no trace just if it fails, as its entry is there already
and keeps name and id. -/
theorem noTrace_of_found (scanned : Scanned ring names) (given : call.moduleName = some name)
    (header : (call.create .global sizeofGlobal).isSome = true)
    (keeps : clearsHeader call ring = false) {index : Nat} (found : lookup names name = some index) :
    NoTrace call name ring ↔ mapsAll call ring = false := by
  have failed := initRing_failed_iff given ring header
  have attached := initRing_attach given ring header
  rw [openRing_of_not_clears keeps] at failed attached
  rw [scanned.entries.findModule_eq, found, Option.getD_some] at attached
  obtain ⟨bound, inside, begins, -⟩ := lookup_eq_some_iff.mp found
  have storable := scanned.storable _ (List.getElem_mem inside)
  obtain ⟨written, entries⟩ := scanned.entries.attach call name index false (by omega) storable
    (scanned.entries.mapped index inside).2
  obtain ⟨others, -, counted, -⟩ := attachModule_effect call name index false ring
  rw [attachedNames, if_pos inside, overwrittenName_eq_self begins, List.set_getElem_self] at entries
  rw [overwrittenName_eq_self begins] at written
  constructor
  · exact fun noTrace => failed.mp noTrace.failed
  · intro refused
    constructor
    case failed => exact failed.mpr refused
    case inside =>
      intro touched isTouched
      rw [touchedEntry, if_pos header, openRing_of_not_clears keeps] at isTouched
      simp only [scanned.entries.findModule_eq, found, Option.getD_some, Option.some.injEq] at isTouched
      exact isTouched ▸ bound
    case count => rw [attached, Option.isNone_some, counted, Bool.and_false, if_neg Bool.false_ne_true]
    case names =>
      intro id registered
      rw [attached, Option.isNone_some]
      by_cases same : id = index
      · subst same
        rw [written, (scanned.entries.mapped id inside).2]
      · rw [others id same]
    case ids =>
      intro other
      rw [attached, Option.isNone_some, getMyID, getMyID, entries.findModule_eq,
        scanned.entries.findModule_eq]

/-- A name that is not found is written behind the registered ones. -/
theorem noTrace_of_absent (scanned : Scanned ring names) (given : call.moduleName = some name)
    (header : (call.create .global sizeofGlobal).isSome = true)
    (keeps : clearsHeader call ring = false) (absent : lookup names name = none) :
    NoTrace call name ring ↔
      ring.global.index < maxModuleCount ∧
        (ring.global.moduleInfo ring.global.index).blockViewStart = none ∧ blockRefused call ring := by
  have registered := scanned.registered
  have failed := initRing_failed_iff given ring header
  have attached := initRing_attach given ring header
  rw [openRing_of_not_clears keeps] at failed attached
  rw [scanned.entries.findModule_eq, absent, Option.getD_none, Option.isNone_none] at attached
  obtain ⟨kept, storable, named⟩ := scanned.kept ring.global.index
  obtain ⟨-, entries⟩ := scanned.entries.attach call name ring.global.index true registered storable named
  obtain ⟨others, -, counted, -⟩ := attachModule_effect call name ring.global.index true ring
  have written : compared name <+: overwrittenName name kept := List.prefix_append _ _
  have touches : touchedEntry call name ring = some ring.global.index := by
    rw [touchedEntry, if_pos header, openRing_of_not_clears keeps]
    simp only [scanned.entries.findModule_eq, absent, Option.getD_none]
  constructor
  · intro noTrace
    have room := noTrace.inside _ touches
    have same := noTrace.ids name
    rw [attached, getMyID, getMyID, entries.findModule_eq, scanned.entries.findModule_eq, absent] at same
    simp only [attachedNames] at same
    by_cases inside : ring.global.index < names.length
    · rw [if_pos inside, lookup_set absent room inside written] at same
      cases same
    · have last : ring.global.index = names.length := by omega
      rw [if_neg inside] at same
      refine ⟨room, scanned.entries.ends _ (by omega), ?_⟩
      by_contra granted
      rw [if_pos (Option.isSome_iff_ne_none.mpr granted), lookup_append absent (last ▸ room) written] at same
      cases same
  · rintro ⟨room, unmapped, refused⟩
    have last : ¬ ring.global.index < names.length := fun inside =>
      (scanned.entries.mapped _ inside).1 unmapped
    have notAll : mapsAll call ring = false := by
      by_contra all
      have block := block_of_mapsAll (Bool.eq_true_of_not_eq_false all)
      rw [refused] at block
      cases block
    have noBlock : ¬ (call.create .block (u64 (ring.global.blockSize + pageSize))).isSome = true := by
      rw [refused]
      exact Bool.false_ne_true
    rw [attachedNames, if_neg last, if_neg noBlock] at entries
    constructor
    case failed => exact failed.mpr notAll
    case inside =>
      intro touched isTouched
      rw [touches, Option.some.injEq] at isTouched
      exact isTouched ▸ room
    case count => rw [attached, counted, notAll, Bool.false_and, if_neg Bool.false_ne_true]
    case names =>
      intro id inside
      rw [attached, others id (by omega)]
    case ids =>
      intro other
      rw [attached, getMyID, getMyID, entries.findModule_eq, scanned.entries.findModule_eq]

/-- A list of one name is seen by the lookup of that name and of the empty one. -/
theorem lookup_singleton_iff {stored : List UInt8} :
    lookup [stored] name = some 0 ↔ compared name <+: stored := by
  rw [lookup_eq_some_iff]
  constructor
  · rintro ⟨-, _, begins, -⟩
    exact begins
  · intro begins
    exact ⟨by decide, Nat.zero_lt_one, begins, fun _ _ before => absurd before (Nat.not_lt_zero _)⟩

/-- Two names that are seen by the same lookups are the same. -/
theorem eq_of_lookups {first second : List UInt8} (storable : Storable first)
    (otherStorable : Storable second)
    (same : ∀ other, lookup [first] other = lookup [second] other) : first = second := by
  have sees : ∀ stored, (isStorable : Storable stored) → ∀ target,
      (lookup [target] ⟨stored, isStorable.noZero⟩ = some 0 ↔ stored <+: target) := by
    intro stored isStorable target
    have whole : compared ⟨stored, isStorable.noZero⟩ = stored := compared_of_short isStorable.short
    rw [lookup_singleton_iff, whole]
  have firstBegins := (sees first storable first).mpr (List.prefix_refl _)
  have secondBegins := (sees second otherStorable second).mpr (List.prefix_refl _)
  rw [same, sees first storable second] at firstBegins
  rw [← same, sees second otherStorable first] at secondBegins
  exact firstBegins.eq_of_length_le secondBegins.length_le

/-- In a cleared header no module is found, whatever had been registered before, so that the call
adds the first entry. -/
theorem findModule_of_clears (clears : clearsHeader call ring = true) :
    findModule (openRing call ring).global (some name) = none := by
  rw [(entries_of_clears clears).findModule_eq]
  rfl

/-- A call that clears the header writes the first entry. -/
theorem initRing_of_clears (given : call.moduleName = some name)
    (header : (call.create .global sizeofGlobal).isSome = true)
    (clears : clearsHeader call ring = true) :
    initRing call ring = attachModule call name 0 true (openRing call ring) := by
  have attached := initRing_attach given ring header
  rw [findModule_of_clears clears, Option.getD_none, Option.isNone_none, (openRing_of_clears clears).1] at attached
  exact attached

/-- Then it is the only one that is found, if its block view was mapped. -/
theorem getMyID_of_clears (given : call.moduleName = some name)
    (header : (call.create .global sizeofGlobal).isSome = true)
    (clears : clearsHeader call ring = true) (other : CString) :
    getMyID (initRing call ring).2 (some other) =
      lookup (if (call.create .block (u64 ((openRing call ring).global.blockSize + pageSize))).isSome
        then [compared name] else []) other := by
  obtain ⟨-, entries⟩ := (entries_of_clears clears).attach call name 0 true (Nat.le_refl 0)
    storable_nil (moduleName_of_clears clears 0)
  rw [attachedNames, List.length_nil, if_neg (Nat.lt_irrefl 0), overwrittenName_nil,
    List.nil_append] at entries
  rw [initRing_of_clears given header clears, getMyID, entries.findModule_eq]

/-- A ring without registrations is left alone as far as the lookups tell. -/
theorem noTrace_of_clears_iff (given : call.moduleName = some name)
    (header : (call.create .global sizeofGlobal).isSome = true)
    (clears : clearsHeader call ring = true)
    (failing : maxModuleCount ≤ ring.global.index ∨ mapsAll call (openRing call ring) = false) :
    NoTrace call name ring ↔ ring.global.index = 0 ∧
      ∀ other, getMyID (initRing call ring).2 (some other) = getMyID ring (some other) := by
  have failed := initRing_failed_iff given ring header
  have attached := initRing_of_clears given header clears
  have count := (openRing_of_clears clears).1
  obtain ⟨-, -, counted, -⟩ := attachModule_effect call name 0 true (openRing call ring)
  constructor
  · intro noTrace
    refine ⟨?_, noTrace.ids⟩
    have same := noTrace.count
    rw [attached, counted, failed.mp noTrace.failed, Bool.false_and, if_neg Bool.false_ne_true,
      count] at same
    exact same.symm
  · rintro ⟨unregistered, ids⟩
    have refused : mapsAll call (openRing call ring) = false := by
      apply failing.resolve_left
      rw [unregistered]
      decide
    constructor
    case failed => exact failed.mpr refused
    case inside =>
      intro touched isTouched
      rw [touchedEntry, if_pos header] at isTouched
      simp only [findModule_of_clears clears, Option.getD_none, count, Option.some.injEq] at isTouched
      rw [← isTouched]
      decide
    case count =>
      rw [attached, counted, refused, Bool.false_and, if_neg Bool.false_ne_true, count, unregistered]
    case names =>
      intro id inside
      omega
    case ids => exact ids

/-- One name or none is found as before exactly when it was left there by an earlier
failure, or nothing was. -/
theorem sameLookups_iff (scanned : Scanned ring names) (unregistered : ring.global.index = 0)
    (granted : Prop) [Decidable granted] :
    (∀ other, lookup (if granted then [compared name] else []) other = lookup names other) ↔
      if (ring.global.moduleInfo 0).blockViewStart = none then ¬ granted
      else granted ∧ (ring.global.moduleInfo 0).moduleName = terminated (compared name) := by
  have stale := scanned.stale
  cases names with
  | nil =>
    rw [if_pos (scanned.entries.ends 0 (Nat.le_refl 0))]
    constructor
    · intro same isGranted
      have found := same name
      rw [if_pos isGranted, lookup_singleton_iff.mpr (List.prefix_refl _)] at found
      cases found
    · intro refused other
      rw [if_neg refused]
  | cons stored rest =>
    have alone : rest = [] := by
      rw [List.length_cons] at stale
      exact List.eq_nil_of_length_eq_zero (by omega)
    subst alone
    obtain ⟨mapped, named⟩ := scanned.entries.mapped 0 Nat.zero_lt_one
    have storable := scanned.storable stored List.mem_cons_self
    rw [if_neg mapped, named]
    constructor
    · intro same
      by_cases isGranted : granted
      · simp only [if_pos isGranted] at same
        exact ⟨isGranted, congrArg terminated (eq_of_lookups storable (compared_storable name)
          fun other => (same other).symm)⟩
      · simp only [if_neg isGranted] at same
        have seen : lookup [stored] ⟨[], fun _ member => by cases member⟩ = some 0 := by
          apply lookup_singleton_iff.mpr
          rw [compared, List.take_nil]
          exact List.nil_prefix
        rw [← same] at seen
        cases seen
    · rintro ⟨isGranted, same⟩ other
      rw [if_pos isGranted, terminated_inj storable (compared_storable name) same]

/-- A call that clears the header leaves its own name or none. -/
theorem noTrace_of_cleared (scanned : Scanned ring names) (given : call.moduleName = some name)
    (header : (call.create .global sizeofGlobal).isSome = true)
    (clears : clearsHeader call ring = true)
    (failing : maxModuleCount ≤ ring.global.index ∨ mapsAll call (openRing call ring) = false) :
    NoTrace call name ring ↔
      ring.global.index = 0 ∧
        if (ring.global.moduleInfo 0).blockViewStart = none then blockRefused call (openRing call ring)
        else ¬ blockRefused call (openRing call ring) ∧
          (ring.global.moduleInfo 0).moduleName = terminated (compared name) := by
  rw [noTrace_of_clears_iff given header clears failing]
  apply and_congr_right
  intro unregistered
  simp only [getMyID_of_clears given header clears]
  simp only [getMyID, scanned.entries.findModule_eq]
  have refused : blockRefused call (openRing call ring) ↔ ¬ (call.create .block
      (u64 ((openRing call ring).global.blockSize + pageSize))).isSome = true := by
    rw [blockRefused, ← Option.not_isSome_iff_eq_none]
  rw [sameLookups_iff scanned unregistered, refused, not_not]

/-- A call that fails for want of room or of memory leaves no trace exactly when it is traceless,
which is a condition on the table and on the memory that is refused. -/
theorem noTrace_iff (calls : List InitCall) (ring : Ring)
    (reached : Runs.run attempt Ring.zero calls = some ring) (call : InitCall) (name : CString)
    (given : call.moduleName = some name)
    (failing : maxModuleCount ≤ ring.global.index ∨ mapsAll call (openRing call ring) = false) :
    NoTrace call name ring ↔ Traceless call name ring := by
  obtain ⟨names, scanned⟩ := scanned_run calls ring reached
  rw [Traceless]
  cases header : call.create .global sizeofGlobal with
  | none =>
    have refused : initRing call ring = (none, ring) := by simp only [initRing, header]
    have untouched : touchedEntry call name ring = none := by simp [touchedEntry, header]
    refine iff_of_true ?_ (.inl rfl)
    constructor
    case failed => rw [refused]
    case inside =>
      rw [untouched]
      exact fun _ impossible => by cases impossible
    case count => rw [refused]
    case names =>
      rw [refused]
      exact fun _ _ => rfl
    case ids =>
      rw [refused]
      exact fun _ => rfl
  | some addr =>
    have granted := Option.isSome_of_eq_some header
    simp only [reduceCtorEq, false_or]
    cases clears : clearsHeader call ring with
    | true =>
      rw [if_pos rfl]
      exact noTrace_of_cleared scanned given granted clears failing
    | false =>
      rw [if_neg Bool.false_ne_true, scanned.entries.findModule_eq]
      cases found : lookup names name with
      | some index => exact noTrace_of_found scanned given granted clears found
      | none => exact noTrace_of_absent scanned given granted clears found

end Traces

/-- The module name `"B"` of the example runs, which does not begin as `"A"` does. -/
def nameB : CString := ⟨[66], by simp⟩

/-- A call of `InitRing` with a module name, on which one memory is refused. -/
def refusedCall (refused : Region) (name : CString) : InitCall :=
  ⟨fun region _ => if region = refused then none else some 0, some name, 4096, 16, false⟩

/-- A second module that is refused the block view, in front of which nothing has been written that
a search could find. -/
theorem noTrace_block_refused :
    ∃ ring, Runs.run attempt Ring.zero [namedCall nameA] = some ring ∧
      NoTrace (refusedCall .block nameB) nameB ring := by
  refine ⟨_, rfl, ?_⟩
  apply (noTrace_iff [namedCall nameA] _ rfl (refusedCall .block nameB) nameB rfl (.inr rfl)).mpr
  right
  exact ⟨by decide, rfl, rfl⟩

/-- A second module that is refused the meta view is found nevertheless: its name and its block view
stand in the entry behind the registered ones. -/
theorem found_after_failure :
    ∃ ring, Runs.run attempt Ring.zero [namedCall nameA] = some ring ∧
      NewName ring nameB ∧ mapsAll (refusedCall .metaPool nameB) (openRing (refusedCall .metaPool nameB) ring) = false ∧
      (initRing (refusedCall .metaPool nameB) ring).1 = none ∧
      getMyID ring (some nameB) = none ∧
      getMyID (initRing (refusedCall .metaPool nameB) ring).2 (some nameB) = some 1 ∧
      ¬ NoTrace (refusedCall .metaPool nameB) nameB ring := by
  refine ⟨_, rfl, ?_, rfl, rfl, rfl, rfl, ?_⟩
  · intro id registered begins
    obtain rfl : id = 0 := Nat.lt_one_iff.mp registered
    obtain ⟨rest, same⟩ := begins
    have first : some (66 : UInt8) = some 65 := congrArg List.head? same
    exact absurd first (by decide)
  · intro noTrace
    have same : some 1 = none := noTrace.ids nameB
    cases same

end OpenTaker

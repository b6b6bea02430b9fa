import OpenTaker.Runs
import Mathlib.Data.Set.Card

/-!
# Shared pointers

A `CSharedPtr` keeps a raw pointer and a reference count that it shares with its
copies. `CCountRef::releaseRef` counts one handle down and answers whether it was the
last one. The destructor and the assignment compare this answer with 0 and delete the
object when they are equal, so that the object goes with a handle that is not the last
and stays when the last one goes.

The counts themselves are right: each is the number of handles that share it. It
follows that an object is owned properly exactly as long as it loses no handle.
-/

namespace OpenTaker

/-- `CCountRef`. Its `atomic_t` has 64 bits, more than there can be handles. -/
structure CountRef where
  nRef : Int
  destroyed : Bool

/-- A new `CCountRef`, which starts at zero and has not been destroyed. -/
def CountRef.new : CountRef := ⟨0, false⟩

/-- `CCountRef::addRef`, which does not test whether the count was zero before. -/
def CountRef.addRef (countRef : CountRef) : CountRef := { countRef with nRef := countRef.nRef + 1 }

/-- `releaseRef`: whether the count has been destroyed, and the count. -/
def CountRef.releaseRef (countRef : CountRef) : Bool × CountRef :=
  if countRef.nRef ≤ 0 then (false, countRef)
  else if countRef.nRef - 1 = 0 then (true, ⟨countRef.nRef - 1, true⟩)
  else (false, { countRef with nRef := countRef.nRef - 1 })

/-- A `CSharedPtr`: the pointer it hands out, and the count that it shares with its copies. -/
structure SharedPtr where
  rawPtr : Option Nat
  countRef : Nat

/-- The handles, the counts they share, and how often each object has been deleted. -/
structure SharedHeap where
  handles : Nat → Option SharedPtr
  counts : Nat → CountRef
  /-- The counts allocated so far. -/
  allocated : Nat
  deletions : Nat → Nat
  /-- The objects that were given to a constructor. -/
  given : Nat → Bool

namespace SharedHeap

/-- Nothing has been constructed: no handle, no count, no object. -/
def empty : SharedHeap where
  handles := fun _ => none
  counts := fun _ => .new
  allocated := 0
  deletions := fun _ => 0
  given := fun _ => false

/-- Enter a handle, with the pointer it has from now on. -/
def enter (heap : SharedHeap) (handle : Nat) (ptr : SharedPtr) : SharedHeap :=
  { heap with handles := Function.update heap.handles handle (some ptr) }

/-- Count a handle up, in the count that it shares. -/
def addRef (heap : SharedHeap) (countRef : Nat) : SharedHeap :=
  { heap with
    counts := Function.update heap.counts countRef (heap.counts countRef).addRef }

/-- `CSharedPtr(T*)`, and `CSharedPtr()` for NULL: a pointer with a count of its own. -/
def construct (heap : SharedHeap) (handle : Nat) (rawPtr : Option Nat) : SharedHeap :=
  let counted :=
    { heap with
      counts := Function.update heap.counts heap.allocated .new
      allocated := heap.allocated + 1
      given := fun object => heap.given object || rawPtr == some object }
  (counted.enter handle ⟨rawPtr, heap.allocated⟩).addRef heap.allocated

/-- What the destructor and the assignment do with the old pointer: count it down, and
`if(0 == releaseRef() && m_rawPtr) delete m_rawPtr`. -/
def letGo (heap : SharedHeap) (ptr : SharedPtr) : SharedHeap :=
  let (released, count) := (heap.counts ptr.countRef).releaseRef
  { heap with
    counts := Function.update heap.counts ptr.countRef count
    deletions := fun object =>
      if released = false ∧ ptr.rawPtr = some object then heap.deletions object + 1
      else heap.deletions object }

/-- Take a handle out, after its destructor has run. -/
def remove (heap : SharedHeap) (handle : Nat) : SharedHeap :=
  { heap with handles := Function.update heap.handles handle none }

end SharedHeap

/-- An operation on handles: a constructor, an assignment or a destructor. -/
inductive PtrStep where
  | construct (handle : Nat) (rawPtr : Option Nat)
  | copy (handle source : Nat)
  | assign (handle source : Nat)
  | destroy (handle : Nat)
deriving DecidableEq

/-- Perform one operation. A handle is constructed once, each raw pointer is given once,
and only live handles are used. -/
def SharedHeap.step (heap : SharedHeap) : PtrStep → Option SharedHeap
  | .construct handle rawPtr =>
      if (heap.handles handle).isNone ∧ rawPtr.all (fun object => !heap.given object) then
        some (heap.construct handle rawPtr)
      else none
  | .copy handle source =>
      match heap.handles handle, heap.handles source with
      | none, some ptr => some ((heap.enter handle ptr).addRef ptr.countRef)
      | _, _ => none
  | .assign handle source =>
      match heap.handles handle, heap.handles source with
      | some old, some ptr =>
          if handle = source then some heap
          else some (((heap.letGo old).enter handle ptr).addRef ptr.countRef)
      | _, _ => none
  | .destroy handle =>
      match heap.handles handle with
      | some ptr => some ((heap.letGo ptr).remove handle)
      | none => none

namespace SharedHeap

/-- Some handle refers to the object, so that it has to stay. -/
def Refers (heap : SharedHeap) (object : Nat) : Prop :=
  ∃ handle ptr, heap.handles handle = some ptr ∧ ptr.rawPtr = some object

/-- Every object that was given to a handle has been deleted once when no handle refers
to it any more, and not before. -/
structure Owned (heap : SharedHeap) : Prop where
  kept : ∀ object, heap.given object = true → heap.Refers object → heap.deletions object = 0
  deleted : ∀ object, heap.given object = true → ¬ heap.Refers object → heap.deletions object = 1

/-- The handle refers to an object, and would lose it by a destruction. -/
def Holds (heap : SharedHeap) (handle : Nat) : Prop :=
  ∃ ptr object, heap.handles handle = some ptr ∧ ptr.rawPtr = some object

/-- The operation takes a handle from an object: it destroys the handle or assigns
another handle to it. -/
def Loses (heap : SharedHeap) : PtrStep → Prop
  | .assign handle source =>
      handle ≠ source ∧ heap.Holds handle ∧ (heap.handles source).isSome
  | .destroy handle => heap.Holds handle
  | _ => False

/-! ## The counts -/

/-- The handles that share a count, as a set: the count should be their number. -/
def sharers (heap : SharedHeap) (countRef : Nat) : Set Nat :=
  { handle | ∃ ptr, heap.handles handle = some ptr ∧ ptr.countRef = countRef }

/-- Some handle is this pointer, which a copy is taken from. -/
def Has (heap : SharedHeap) (ptr : SharedPtr) : Prop := ∃ handle, heap.handles handle = some ptr

/-- Each count is the number of handles that share it, and sharing a count is the same
as referring to the same object. -/
structure Counted (heap : SharedHeap) : Prop where
  finite : ∀ countRef, (heap.sharers countRef).Finite
  counts : ∀ countRef, (heap.counts countRef).nRef = (heap.sharers countRef).ncard
  /-- No handle uses a count before it is allocated. -/
  allocated : ∀ ptr, heap.Has ptr → ptr.countRef < heap.allocated
  shared : ∀ ptr other, heap.Has ptr → heap.Has other → ptr.countRef = other.countRef →
    ptr.rawPtr = other.rawPtr
  alone : ∀ ptr other object, heap.Has ptr → heap.Has other → ptr.rawPtr = some object →
    other.rawPtr = some object → ptr.countRef = other.countRef
  given : ∀ ptr object, heap.Has ptr → ptr.rawPtr = some object → heap.given object = true

/-- Without pointers there is nothing to count, and every count is that of nobody. -/
theorem counted_empty : Counted empty where
  finite countRef := by simp [sharers, empty]
  counts countRef := by simp [sharers, empty, CountRef.new]
  allocated _ has := by simp [Has, empty] at has
  shared _ _ has := by simp [Has, empty] at has
  alone _ _ _ has := by simp [Has, empty] at has
  given _ _ has := by simp [Has, empty] at has

section Operations

variable {heap : SharedHeap} {handle : Nat} {ptr : SharedPtr}

/-- Entering a handle changes what that handle has, and nothing else. -/
theorem enter_handles (other : Nat) :
    (heap.enter handle ptr).handles other = if other = handle then some ptr else heap.handles other := by
  simp only [enter, Function.update_apply]

/-- Removing a handle is the same with nothing in its place. -/
theorem remove_handles (other : Nat) :
    (heap.remove handle).handles other = if other = handle then none else heap.handles other := by
  simp only [remove, Function.update_apply]

/-- A new handle joins those that share its count. -/
theorem sharers_enter (free : heap.handles handle = none) (countRef : Nat) :
    (heap.enter handle ptr).sharers countRef =
      if ptr.countRef = countRef then insert handle (heap.sharers countRef)
      else heap.sharers countRef := by
  ext other
  simp only [sharers, Set.mem_ofPred_eq, enter_handles]
  by_cases same : other = handle
  · subst same
    by_cases joins : ptr.countRef = countRef <;> simp [joins, free]
  · by_cases joins : ptr.countRef = countRef <;> simp [joins, same]

/-- A handle that is taken out leaves those that share its count. -/
theorem sharers_remove (countRef : Nat) :
    (heap.remove handle).sharers countRef = heap.sharers countRef \ {handle} := by
  ext other
  simp only [sharers, Set.mem_ofPred_eq, remove_handles, Set.mem_sdiff, Set.mem_singleton_iff]
  by_cases same : other = handle <;> simp [same]

/-- A live pointer is among the sharers of its count, so that the count is not zero. -/
theorem mem_sharers (live : heap.handles handle = some ptr) :
    handle ∈ heap.sharers ptr.countRef := ⟨ptr, live, rfl⟩

/-- A handle that is free shares nothing, which a new pointer of that name relies on. -/
theorem not_mem_sharers (free : heap.handles handle = none) (countRef : Nat) :
    handle ∉ heap.sharers countRef := by
  rintro ⟨ptr, live, -⟩
  rw [free] at live
  cases live

/-- The count changes with `addRef`, but not who shares it: sharers are told from the handles. -/
theorem sharers_addRef (counted countRef : Nat) :
    (heap.addRef counted).sharers countRef = heap.sharers countRef := rfl

/-- Nor does letting go, which comes before the handle gets its new pointer. -/
theorem sharers_letGo (countRef : Nat) :
    (heap.letGo ptr).sharers countRef = heap.sharers countRef := rfl

/-- What a handle is after one has been entered. -/
theorem has_enter (other : SharedPtr) (has : (heap.enter handle ptr).Has other) :
    other = ptr ∨ heap.Has other := by
  obtain ⟨entered, same⟩ := has
  rw [enter_handles] at same
  split at same
  · exact .inl (Option.some.inj same).symm
  · exact .inr ⟨entered, same⟩

/-- What a handle has after one was removed it had before, so that the invariant of the others
carries over. -/
theorem has_remove (other : SharedPtr) (has : (heap.remove handle).Has other) : heap.Has other := by
  obtain ⟨kept, same⟩ := has
  rw [remove_handles] at same
  split at same
  · cases same
  · exact ⟨kept, same⟩

/-- A count that a handle shares says whether the handle is the last one. -/
theorem releaseRef_eq {countRef : CountRef} (positive : 1 ≤ countRef.nRef) :
    countRef.releaseRef.1 = decide (countRef.nRef = 1) ∧
      countRef.releaseRef.2.nRef = countRef.nRef - 1 := by
  have notReleased : ¬ countRef.nRef ≤ 0 := by omega
  simp only [CountRef.releaseRef, if_neg notReleased]
  by_cases last : countRef.nRef = 1
  · rw [if_pos (by omega)]
    exact ⟨(decide_eq_true last).symm, rfl⟩
  · rw [if_neg (by omega)]
    exact ⟨(decide_eq_false last).symm, rfl⟩

namespace Counted

/-- The count of a live handle counts at least that handle. -/
theorem positive (counted : Counted heap) (live : heap.handles handle = some ptr) :
    1 ≤ (heap.counts ptr.countRef).nRef := by
  have some : 0 < (heap.sharers ptr.countRef).ncard :=
    (Set.ncard_pos (counted.finite _)).mpr ⟨handle, mem_sharers live⟩
  rw [counted.counts]
  omega

/-- A handle that joins a count is counted: those that share it are one more, and so is the number. -/
theorem joined {countRef : Nat} (finite : (heap.sharers countRef).Finite)
    (counts : (heap.counts countRef).nRef = (heap.sharers countRef).ncard)
    (free : heap.handles handle = none) :
    (((heap.enter handle ptr).addRef ptr.countRef).sharers countRef).Finite ∧
      (((heap.enter handle ptr).addRef ptr.countRef).counts countRef).nRef =
        (((heap.enter handle ptr).addRef ptr.countRef).sharers countRef).ncard := by
  rw [sharers_addRef, sharers_enter free]
  by_cases same : ptr.countRef = countRef
  · subst same
    rw [if_pos rfl, Set.ncard_insert_of_notMem (not_mem_sharers free _) finite]
    refine ⟨finite.insert handle, ?_⟩
    simp only [addRef, enter, Function.update_self, CountRef.addRef, counts, Nat.cast_add,
      Nat.cast_one]
  · rw [if_neg same]
    refine ⟨finite, ?_⟩
    simp only [addRef, enter, Function.update_of_ne (Ne.symm same), counts]

/-- A copy adds a sharer and one to the count, so that both still agree. -/
theorem copy (counted : Counted heap) (free : heap.handles handle = none) (source : heap.Has ptr) :
    Counted ((heap.enter handle ptr).addRef ptr.countRef) := by
  have has : ∀ other, ((heap.enter handle ptr).addRef ptr.countRef).Has other → heap.Has other := by
    intro other entered
    rcases has_enter other entered with rfl | before
    · exact source
    · exact before
  constructor
  case finite =>
    exact fun countRef => (joined (counted.finite countRef) (counted.counts countRef) free).1
  case counts =>
    exact fun countRef => (joined (counted.finite countRef) (counted.counts countRef) free).2
  case allocated => exact fun other present => counted.allocated other (has other present)
  case shared =>
    exact fun first second firstHas secondHas =>
      counted.shared first second (has first firstHas) (has second secondHas)
  case alone =>
    exact fun first second object firstHas secondHas =>
      counted.alone first second object (has first firstHas) (has second secondHas)
  case given => exact fun other object present => counted.given other object (has other present)

/-- A pointer made from a raw one starts a count of its own. It is asked that no other count has
been given the same object. -/
theorem construct (counted : Counted heap) (free : heap.handles handle = none)
    (rawPtr : Option Nat) (fresh : ∀ object, rawPtr = some object → heap.given object = false) :
    Counted (heap.construct handle rawPtr) := by
  have unused : heap.sharers heap.allocated = ∅ := by
    ext other
    simp only [Set.mem_empty_iff_false, iff_false]
    rintro ⟨ptr, live, same⟩
    have before := counted.allocated ptr ⟨other, live⟩
    omega
  have has : ∀ ptr, (heap.construct handle rawPtr).Has ptr →
      ptr = ⟨rawPtr, heap.allocated⟩ ∨ heap.Has ptr := fun ptr present => has_enter ptr present
  have ungiven : ∀ ptr object, heap.Has ptr → ptr.rawPtr = some object → rawPtr ≠ some object := by
    intro ptr object present refers same
    have already := counted.given ptr object present refers
    rw [fresh object same] at already
    cases already
  have counts : ∀ countRef, ((heap.construct handle rawPtr).sharers countRef).Finite ∧
      ((heap.construct handle rawPtr).counts countRef).nRef =
        ((heap.construct handle rawPtr).sharers countRef).ncard := by
    intro countRef
    refine joined (counted.finite countRef) ?_ free
    by_cases same : countRef = heap.allocated
    · subst same
      have started : (0 : Int) = (heap.sharers heap.allocated).ncard := by
        rw [unused, Set.ncard_empty, Nat.cast_zero]
      exact (congrArg CountRef.nRef (Function.update_self _ _ _)).trans started
    · exact (congrArg CountRef.nRef (Function.update_of_ne same _ _)).trans (counted.counts countRef)
  constructor
  case finite => exact fun countRef => (counts countRef).1
  case counts => exact fun countRef => (counts countRef).2
  case allocated =>
    intro ptr present
    rcases has ptr present with rfl | before
    · exact Nat.lt_succ_self _
    · exact Nat.lt_succ_of_lt (counted.allocated ptr before)
  case shared =>
    intro first second firstHas secondHas same
    rcases has first firstHas with rfl | firstBefore
    · rcases has second secondHas with rfl | secondBefore
      · rfl
      · exact absurd same (Nat.ne_of_gt (counted.allocated second secondBefore))
    · rcases has second secondHas with rfl | secondBefore
      · exact absurd same (Nat.ne_of_lt (counted.allocated first firstBefore))
      · exact counted.shared first second firstBefore secondBefore same
  case alone =>
    intro first second object firstHas secondHas firstRefers secondRefers
    rcases has first firstHas with rfl | firstBefore
    · rcases has second secondHas with rfl | secondBefore
      · rfl
      · exact absurd firstRefers (ungiven second object secondBefore secondRefers)
    · rcases has second secondHas with rfl | secondBefore
      · exact absurd secondRefers (ungiven first object firstBefore firstRefers)
      · exact counted.alone first second object firstBefore secondBefore firstRefers secondRefers
  case given =>
    intro ptr object present refers
    simp only [SharedHeap.construct, addRef, enter, Bool.or_eq_true, beq_iff_eq]
    rcases has ptr present with rfl | before
    · exact .inr refers
    · exact .inl (counted.given ptr object before refers)

/-- A destructor takes one sharer and one from the count. The counts stay right, whatever the answer
of `releaseRef` is then taken for. -/
theorem destroy (counted : Counted heap) (live : heap.handles handle = some ptr) :
    Counted ((heap.letGo ptr).remove handle) := by
  have has : ∀ other, ((heap.letGo ptr).remove handle).Has other → heap.Has other :=
    fun other present => has_remove other present
  have leaves : ∀ countRef, ((heap.letGo ptr).remove handle).sharers countRef =
      heap.sharers countRef \ {handle} := fun countRef => by rw [sharers_remove, sharers_letGo]
  constructor
  case finite =>
    intro countRef
    rw [leaves]
    exact (counted.finite countRef).sdiff
  case counts =>
    intro countRef
    rw [leaves]
    by_cases same : countRef = ptr.countRef
    · subst same
      rw [Set.ncard_sdiff_singleton_of_mem (mem_sharers live)]
      have released := (releaseRef_eq (counted.positive live)).2
      have positive := counted.positive live
      rw [counted.counts] at released positive
      simp only [letGo, remove, Function.update_self, released]
      omega
    · have elsewhere : handle ∉ heap.sharers countRef := by
        rintro ⟨other, same', joins⟩
        rw [live] at same'
        cases same'
        exact same joins.symm
      rw [Set.sdiff_singleton_eq_self elsewhere, ← counted.counts countRef]
      simp only [letGo, remove, Function.update_of_ne same]
  case allocated => exact fun other present => counted.allocated other (has other present)
  case shared =>
    exact fun first second firstHas secondHas =>
      counted.shared first second (has first firstHas) (has second secondHas)
  case alone =>
    exact fun first second object firstHas secondHas =>
      counted.alone first second object (has first firstHas) (has second secondHas)
  case given => exact fun other object present => counted.given other object (has other present)

/-- Assignment is destruction followed by copying, by which its lemma follows from those of the two. -/
theorem assign {old : SharedPtr} {source : Nat} (counted : Counted heap)
    (live : heap.handles handle = some old) (other : handle ≠ source)
    (sourceLive : heap.handles source = some ptr) :
    Counted (((heap.letGo old).enter handle ptr).addRef ptr.countRef) := by
  have split : (heap.letGo old).enter handle ptr =
      ((heap.letGo old).remove handle).enter handle ptr := by
    simp only [enter, remove, Function.update_idem]
  have free : ((heap.letGo old).remove handle).handles handle = none := by
    rw [remove_handles, if_pos rfl]
  have stays : ((heap.letGo old).remove handle).Has ptr := by
    refine ⟨source, ?_⟩
    rw [remove_handles, if_neg (Ne.symm other)]
    exact sourceLive
  rw [split]
  exact (counted.destroy live).copy free stays

end Counted

/-! ## What is deleted -/

/-- No object has lost a handle: none has been deleted, and each is referred to. -/
structure Kept (heap : SharedHeap) : Prop where
  counted : Counted heap
  undeleted : ∀ object, heap.deletions object = 0
  referred : ∀ object, heap.given object = true → heap.Refers object

/-- Nothing has been given before the first pointer, so that nothing can have been deleted or lost. -/
theorem kept_empty : Kept empty where
  counted := counted_empty
  undeleted _ := rfl
  referred _ given := by simp [empty] at given

/-- Objects that are all referred to and not deleted are owned properly. It is the side of ownership
that the source can keep. -/
theorem Kept.owned (kept : Kept heap) : Owned heap where
  kept object _ _ := kept.undeleted object
  deleted object given unreferred := absurd (kept.referred object given) unreferred

/-- A pointer to no object deletes none when it is let go. -/
theorem letGo_deletions_of_null (null : ptr.rawPtr = none) :
    (heap.letGo ptr).deletions = heap.deletions := by
  funext object
  simp only [letGo, null, reduceCtorEq, and_false, if_false]

/-- The object is deleted unless the handle that lets it go is the last one. -/
theorem letGo_deletions {object : Nat} (counted : Counted heap)
    (live : heap.handles handle = some ptr) (refers : ptr.rawPtr = some object) :
    (heap.letGo ptr).deletions object =
      heap.deletions object + if (heap.sharers ptr.countRef).ncard = 1 then 0 else 1 := by
  have released := (releaseRef_eq (counted.positive live)).1
  simp only [letGo, released, refers, and_true, counted.counts, Nat.cast_eq_one,
    decide_eq_false_iff_not]
  by_cases last : (heap.sharers ptr.countRef).ncard = 1
  · rw [if_neg (not_not_intro last), if_pos last, Nat.add_zero]
  · rw [if_pos last, if_neg last]

/-- A handle is the only one of its count exactly when no other refers to its object. -/
theorem Counted.last_iff {object : Nat} (counted : Counted heap)
    (live : heap.handles handle = some ptr) (refers : ptr.rawPtr = some object) :
    (heap.sharers ptr.countRef).ncard = 1 ↔
      ¬ ∃ other, other ≠ handle ∧
        ∃ sharer, heap.handles other = some sharer ∧ sharer.rawPtr = some object := by
  rw [Set.ncard_eq_one]
  constructor
  · rintro ⟨only, single⟩ ⟨other, distinct, sharer, otherLive, otherRefers⟩
    have same : sharer.countRef = ptr.countRef :=
      counted.alone sharer ptr object ⟨other, otherLive⟩ ⟨handle, live⟩ otherRefers refers
    have mine : handle ∈ heap.sharers ptr.countRef := mem_sharers live
    have others : other ∈ heap.sharers ptr.countRef := ⟨sharer, otherLive, same⟩
    rw [single, Set.mem_singleton_iff] at mine others
    exact distinct (others.trans mine.symm)
  · intro alone
    refine ⟨handle, Set.eq_singleton_iff_unique_mem.mpr ⟨mem_sharers live, ?_⟩⟩
    rintro other ⟨sharer, otherLive, joins⟩
    by_contra distinct
    have otherRefers : sharer.rawPtr = some object :=
      (counted.shared sharer ptr ⟨other, otherLive⟩ ⟨handle, live⟩ joins).trans refers
    exact alone ⟨other, distinct, sharer, otherLive, otherRefers⟩

/-- An object that loses a handle is either deleted under the other handles or not
deleted with its last one. -/
theorem Kept.lost {object : Nat} (kept : Kept heap) (live : heap.handles handle = some ptr)
    (refers : ptr.rawPtr = some object) (after : SharedHeap)
    (deletions : after.deletions = (heap.letGo ptr).deletions) (given : after.given = heap.given)
    (others : after.Refers object ↔
      ∃ other, other ≠ handle ∧
        ∃ sharer, heap.handles other = some sharer ∧ sharer.rawPtr = some object) :
    ¬ Owned after := by
  intro owned
  have wasGiven : after.given object = true := by
    rw [given]
    exact kept.counted.given ptr object ⟨handle, live⟩ refers
  have count : after.deletions object =
      if (heap.sharers ptr.countRef).ncard = 1 then 0 else 1 := by
    rw [deletions, letGo_deletions kept.counted live refers, kept.undeleted, Nat.zero_add]
  have lastIff := kept.counted.last_iff live refers
  by_cases last : (heap.sharers ptr.countRef).ncard = 1
  · have unreferred : ¬ after.Refers object := fun still => lastIff.mp last (others.mp still)
    rw [if_pos last, owned.deleted object wasGiven unreferred] at count
    cases count
  · have still : after.Refers object := others.mpr (not_not.mp fun none => last (lastIff.mpr none))
    rw [if_neg last, owned.kept object wasGiven still] at count
    cases count

/-- A handle that is entered where there was none takes no object away. -/
theorem refers_enter {object : Nat} (unheld : ¬ heap.Holds handle) (refers : heap.Refers object) :
    (heap.enter handle ptr).Refers object := by
  obtain ⟨other, sharer, otherLive, otherRefers⟩ := refers
  have distinct : other ≠ handle := by
    rintro rfl
    exact unheld ⟨sharer, object, otherLive, otherRefers⟩
  exact ⟨other, sharer, by rw [enter_handles, if_neg distinct, otherLive], otherRefers⟩

/-- A free handle holds no object, whatever its name was used for before. -/
theorem not_holds_of_free (free : heap.handles handle = none) : ¬ heap.Holds handle := by
  rintro ⟨ptr, object, live, -⟩
  rw [free] at live
  cases live

/-- A live pointer that holds nothing has NULL in it, so that its `letGo` has no object to delete. -/
theorem null_of_not_holds (live : heap.handles handle = some ptr) (unheld : ¬ heap.Holds handle) :
    ptr.rawPtr = none := by
  apply Option.eq_none_iff_forall_ne_some.mpr
  exact fun object refers => unheld ⟨ptr, object, live, refers⟩

namespace Kept

/-- A constructor keeps every object, in those runs in which no raw pointer is given twice. -/
theorem construct (kept : Kept heap) (free : heap.handles handle = none) (rawPtr : Option Nat)
    (fresh : ∀ object, rawPtr = some object → heap.given object = false) :
    Kept (heap.construct handle rawPtr) where
  counted := kept.counted.construct free rawPtr fresh
  undeleted := kept.undeleted
  referred := by
    intro object given
    simp only [SharedHeap.construct, addRef, enter, Bool.or_eq_true, beq_iff_eq] at given
    rcases given with before | now
    · exact refers_enter (not_holds_of_free free) (kept.referred object before)
    · exact ⟨handle, ⟨rawPtr, heap.allocated⟩, Function.update_self _ _ _, now⟩

/-- So does a copy, which shares an object that is kept. -/
theorem copy (kept : Kept heap) (free : heap.handles handle = none) (source : heap.Has ptr) :
    Kept ((heap.enter handle ptr).addRef ptr.countRef) where
  counted := kept.counted.copy free source
  undeleted := kept.undeleted
  referred object given := refers_enter (not_holds_of_free free) (kept.referred object given)

/-- Assigning keeps every object when the pointer that is written holds none. Otherwise `letGo`
would delete one that others hold, or lose the last handle of one. -/
theorem assign {old : SharedPtr} {source : Nat} (kept : Kept heap)
    (live : heap.handles handle = some old) (unheld : ¬ heap.Holds handle)
    (other : handle ≠ source) (sourceLive : heap.handles source = some ptr) :
    Kept (((heap.letGo old).enter handle ptr).addRef ptr.countRef) where
  counted := kept.counted.assign live other sourceLive
  undeleted object := by
    have unchanged : (heap.letGo old).deletions = heap.deletions :=
      letGo_deletions_of_null (null_of_not_holds live unheld)
    exact (congrFun unchanged object).trans (kept.undeleted object)
  referred object given := by
    have refers : (heap.letGo old).Refers object := kept.referred object given
    have entered : ((heap.letGo old).enter handle ptr).Refers object := refers_enter unheld refers
    exact entered

/-- A destructor of a pointer that holds nothing keeps every object. -/
theorem destroy (kept : Kept heap) (live : heap.handles handle = some ptr)
    (unheld : ¬ heap.Holds handle) : Kept ((heap.letGo ptr).remove handle) where
  counted := kept.counted.destroy live
  undeleted object := by
    have unchanged : (heap.letGo ptr).deletions = heap.deletions :=
      letGo_deletions_of_null (null_of_not_holds live unheld)
    exact (congrFun unchanged object).trans (kept.undeleted object)
  referred object given := by
    obtain ⟨other, sharer, otherLive, otherRefers⟩ := kept.referred object given
    have distinct : other ≠ handle := by
      rintro rfl
      exact unheld ⟨sharer, object, otherLive, otherRefers⟩
    refine ⟨other, sharer, ?_, otherRefers⟩
    rw [remove_handles, if_neg distinct]
    exact otherLive

end Kept

end Operations

/-- What each operation that is possible does, with what it asks of the handles in front of it. -/
theorem step_cases {heap next : SharedHeap} {label : PtrStep} (stepped : heap.step label = some next) :
    (∃ handle rawPtr, label = .construct handle rawPtr ∧ heap.handles handle = none ∧
      (∀ object, rawPtr = some object → heap.given object = false) ∧
      next = heap.construct handle rawPtr) ∨
    (∃ handle source ptr, label = .copy handle source ∧ heap.handles handle = none ∧
      heap.handles source = some ptr ∧ next = (heap.enter handle ptr).addRef ptr.countRef) ∨
    (∃ handle, label = .assign handle handle ∧ next = heap) ∨
    (∃ handle source old ptr, label = .assign handle source ∧ handle ≠ source ∧
      heap.handles handle = some old ∧ heap.handles source = some ptr ∧
      next = ((heap.letGo old).enter handle ptr).addRef ptr.countRef) ∨
    (∃ handle ptr, label = .destroy handle ∧ heap.handles handle = some ptr ∧
      next = (heap.letGo ptr).remove handle) := by
  cases label with
  | construct handle rawPtr =>
    simp only [step, Option.ite_none_right_eq_some, Option.some.injEq, Option.isNone_iff_eq_none,
      Option.all_eq_true, Bool.not_eq_true'] at stepped
    exact .inl ⟨handle, rawPtr, rfl, stepped.1.1, stepped.1.2, stepped.2.symm⟩
  | copy handle source =>
    simp only [step] at stepped
    split at stepped
    · rename_i ptr free live
      exact .inr (.inl ⟨handle, source, ptr, rfl, free, live, (Option.some.inj stepped).symm⟩)
    · cases stepped
  | assign handle source =>
    simp only [step] at stepped
    split at stepped
    · rename_i old ptr live sourceLive
      split at stepped
      · rename_i same
        subst same
        exact .inr (.inr (.inl ⟨handle, rfl, (Option.some.inj stepped).symm⟩))
      · rename_i other
        exact .inr (.inr (.inr (.inl ⟨handle, source, old, ptr, rfl, other, live, sourceLive,
          (Option.some.inj stepped).symm⟩)))
    · cases stepped
  | destroy handle =>
    simp only [step] at stepped
    split at stepped
    · rename_i ptr live
      exact .inr (.inr (.inr (.inr ⟨handle, ptr, rfl, live, (Option.some.inj stepped).symm⟩)))
    · cases stepped

/-- As long as no object loses a handle, none is deleted. -/
theorem Kept.step {heap next : SharedHeap} {label : PtrStep} (kept : Kept heap)
    (keeps : ¬ heap.Loses label) (stepped : heap.step label = some next) : Kept next := by
  rcases step_cases stepped with
    ⟨handle, rawPtr, rfl, free, fresh, rfl⟩ | ⟨handle, source, ptr, rfl, free, live, rfl⟩ |
    ⟨handle, rfl, rfl⟩ | ⟨handle, source, old, ptr, rfl, other, live, sourceLive, rfl⟩ |
    ⟨handle, ptr, rfl, live, rfl⟩
  · exact kept.construct free rawPtr fresh
  · exact kept.copy free ⟨source, live⟩
  · exact kept
  · have unheld : ¬ heap.Holds handle := fun holds =>
      keeps ⟨other, holds, Option.isSome_of_eq_some sourceLive⟩
    exact kept.assign live unheld other sourceLive
  · exact kept.destroy live keeps

/-- The first object that loses a handle is not owned properly any more. -/
theorem Kept.broken {heap next : SharedHeap} {label : PtrStep} (kept : Kept heap)
    (loses : heap.Loses label) (stepped : heap.step label = some next) : ¬ Owned next := by
  rcases step_cases stepped with
    ⟨handle, rawPtr, rfl, -⟩ | ⟨handle, source, ptr, rfl, -⟩ | ⟨handle, rfl, -⟩ |
    ⟨handle, source, old, ptr, rfl, other, live, sourceLive, rfl⟩ | ⟨handle, ptr, rfl, live, rfl⟩
  · exact loses.elim
  · exact loses.elim
  · exact absurd rfl loses.1
  · obtain ⟨-, ⟨held, object, holds, refers⟩, -⟩ := loses
    obtain rfl : held = old := Option.some.inj (holds.symm.trans live)
    refine kept.lost live refers _ (by rfl) (by rfl) ?_
    constructor
    · rintro ⟨refering, sharer, entered, sharerRefers⟩
      change ((heap.letGo held).enter handle ptr).handles refering = some sharer at entered
      rw [enter_handles] at entered
      split at entered
      · obtain rfl : ptr = sharer := Option.some.inj entered
        exact ⟨source, Ne.symm other, ptr, sourceLive, sharerRefers⟩
      · rename_i distinct
        exact ⟨refering, distinct, sharer, entered, sharerRefers⟩
    · rintro ⟨refering, distinct, sharer, sharerLive, sharerRefers⟩
      refine ⟨refering, sharer, ?_, sharerRefers⟩
      change ((heap.letGo held).enter handle ptr).handles refering = some sharer
      rw [enter_handles, if_neg distinct]
      exact sharerLive
  · obtain ⟨held, object, holds, refers⟩ := loses
    obtain rfl : held = ptr := Option.some.inj (holds.symm.trans live)
    refine kept.lost live refers _ (by rfl) (by rfl) ?_
    simp only [Refers, remove_handles]
    constructor
    · rintro ⟨refering, sharer, stays, sharerRefers⟩
      split at stays
      · cases stays
      · rename_i distinct
        exact ⟨refering, distinct, sharer, stays, sharerRefers⟩
    · rintro ⟨refering, distinct, sharer, sharerLive, sharerRefers⟩
      exact ⟨refering, sharer, (if_neg distinct).trans sharerLive, sharerRefers⟩

/-- An operation that takes a handle from an object is possible. -/
theorem loses_taken {heap : SharedHeap} {label : PtrStep} (loses : heap.Loses label) :
    ∃ next, heap.step label = some next := by
  cases label with
  | construct handle rawPtr => exact loses.elim
  | copy handle source => exact loses.elim
  | assign handle source =>
    obtain ⟨other, ⟨old, _, live, -⟩, sourceLive⟩ := loses
    obtain ⟨ptr, sourceLive⟩ := Option.isSome_iff_exists.mp sourceLive
    simp only [step, live, sourceLive, if_neg other]
    exact ⟨_, rfl⟩
  | destroy handle =>
    obtain ⟨ptr, _, live, -⟩ := loses
    simp only [step, live]
    exact ⟨_, rfl⟩

/-- Every object is deleted exactly once, with the last handle that refers to it, in
exactly the runs in which no operation takes a handle from an object. -/
theorem owned_throughout_iff (labels : List PtrStep) :
    Runs.Throughout step Owned empty labels ↔
      Runs.Meets step (fun heap label => ¬ heap.Loses label) empty labels := by
  apply Runs.throughout_iff_meets step _ Kept Owned
  · exact fun _ kept => kept.owned
  · exact fun _ _ _ kept keeps stepped => kept.step keeps stepped
  · exact fun _ _ loses => loses_taken (not_not.mp loses)
  · exact fun _ _ _ kept loses stepped => kept.broken (not_not.mp loses) stepped
  · exact kept_empty

/-- The first of two handles that goes takes the object with it, and a handle that was
the only one leaves it behind. -/
theorem deleted_while_shared_kept_when_last :
    (∃ heap, Runs.run step empty [.construct 0 (some 7), .copy 1 0, .destroy 0] = some heap ∧
      heap.given 7 = true ∧ heap.Refers 7 ∧ heap.deletions 7 = 1) ∧
    ∃ heap, Runs.run step empty [.construct 0 (some 7), .destroy 0] = some heap ∧
      heap.given 7 = true ∧ ¬ heap.Refers 7 ∧ heap.deletions 7 = 0 := by
  refine ⟨⟨_, rfl, rfl, ⟨1, ⟨some 7, 0⟩, rfl, rfl⟩, rfl⟩, ⟨_, rfl, rfl, ?_, rfl⟩⟩
  rintro ⟨handle, ptr, live, -⟩
  simp only [remove_handles] at live
  split at live
  · cases live
  · rename_i other
    have untouched : (empty.enter 0 ⟨some 7, 0⟩).handles handle = some ptr := live
    rw [enter_handles, if_neg other] at untouched
    cases untouched

end SharedHeap

end OpenTaker

import OpenTaker.LinkedSegments
import OpenTaker.Runs

/-!
# Object pools with a delete list

A `CObjectPool2` hands out objects of blocks that grow by doubling, and reuses the objects
that have been released. Those stand in a list from `m_firstDeleteNode` to
`m_lastDeleteNode`, whose last node stays: what its link says is not defined, and the list is
taken for empty when only this node is left.

One thread calls `getObject` and another one releases, without a lock. Every load and store
of what they share is a step of its own, in any order of the two, and where the order of two
loads of one expression is open, either is taken. Between the calls the holders of objects
write their links. An allocation may fail, and the call ends then without an object.
-/

namespace OpenTaker

open LinkedSegments

/-- An object with its link, by the number of its block and its index in it. -/
structure ObjectNode where
  block : Nat
  index : Nat
deriving DecidableEq

/-- What `u_int32` can count to, by which the sizes of blocks are limited. -/
def u32Values : Nat := 4294967296

/-- The arguments of the constructor: the sizes of the first block and of the largest one. -/
structure BlockSizes where
  blockSize : Nat
  maxBlockSize : Nat
  positive : 0 < blockSize
  fits : blockSize < u32Values
  doubles : maxBlockSize ≤ 2147483648

/-- Where the getter stands in `getObject`, with what it has loaded. -/
inductive GetObjectPc where
  | idle
  /-- `m_firstDeleteNode != NULL` -/
  | testing
  /-- `m_firstDeleteNode != m_lastDeleteNode` -/
  | comparing
  | comparingFirst (first : Option ObjectNode)
  | comparingLast (last : Option ObjectNode)
  /-- `cur = m_firstDeleteNode` -/
  | loadingCur
  /-- `m_firstDeleteNode->nextNode` -/
  | loadingFirst (cur : Option ObjectNode)
  | loadingNext (cur first : Option ObjectNode)
  | storing (cur next : Option ObjectNode)
  /-- `m_curIndex >= m_blockSize` -/
  | indexing
  | growing
  | taking
deriving DecidableEq

/-- Where the releaser stands with the nodes of its list. -/
inductive ReleasePc where
  | idle
  | testing (nodes : List ObjectNode)
  | asserting (nodes : List ObjectNode)
  | storingLast (nodes : List ObjectNode)
  | storingFirst (nodes : List ObjectNode)
  | loadingLast (nodes : List ObjectNode)
  | linking (nodes : List ObjectNode) (last : Option ObjectNode)
  | movingLast (nodes : List ObjectNode)
deriving DecidableEq

/-- The nodes that are being released, from the first to the last of their list. -/
def ReleasePc.nodes : ReleasePc → List ObjectNode
  | .idle => []
  | .testing nodes | .asserting nodes | .storingLast nodes | .storingFirst nodes
  | .loadingLast nodes | .linking nodes _ | .movingLast nodes => nodes

/-- What the allocations of `newBlock` do: both succeed, or one of them fails. -/
inductive Allocation where
  | allocated
  /-- There is no memory for `objArray`. -/
  | noArray
  /-- There is no memory for the `ObjectBlock`. -/
  | noBlock
deriving DecidableEq

/-- A `CObjectPool2`, with the places of its getter and of its releaser between two accesses. -/
structure ObjectPool2 where
  /-- The sizes of the arrays of `m_objBlkList` in the order of their allocation, the last
  one being its head. -/
  objBlkList : List (Option Nat)
  firstDeleteNode : Option ObjectNode
  lastDeleteNode : Option ObjectNode
  nextNode : ObjectNode → Option ObjectNode
  blockSize : Nat
  curIndex : Nat
  maxBlockSize : Nat
  getter : GetObjectPc
  releaser : ReleasePc
  /-- An assertion has failed, or NULL was dereferenced. -/
  aborted : Bool
  /-- The objects that were returned and not released since. -/
  live : List ObjectNode
  /-- The objects that were released and reused, in this order, for the history only. -/
  released : List ObjectNode
  reused : List ObjectNode

namespace ObjectPool2

/-- The constructor, in a memory with any links: the first block is allocated by the first call. -/
def new (sizes : BlockSizes) (nextNode : ObjectNode → Option ObjectNode) : ObjectPool2 where
  objBlkList := []
  firstDeleteNode := none
  lastDeleteNode := none
  nextNode := nextNode
  blockSize := sizes.blockSize
  curIndex := sizes.blockSize
  maxBlockSize := sizes.maxBlockSize
  getter := .idle
  releaser := .idle
  aborted := false
  live := []
  released := []
  reused := []

/-- An assertion has failed, or memory has run out and the code stops. -/
def abort (pool : ObjectPool2) : ObjectPool2 := { pool with aborted := true }

/-- `m_blockSize` after `newBlock` may have doubled it, which it does for every block but the first. -/
def doubled (pool : ObjectPool2) : Nat :=
  if pool.blockSize < pool.maxBlockSize ∧ pool.objBlkList ≠ [] then 2 * pool.blockSize % u32Values
  else pool.blockSize

/-- `newBlock`, and the end of the call when it fails. -/
def newBlock (pool : ObjectPool2) : Allocation → ObjectPool2
  | .allocated =>
      { pool with
        blockSize := pool.doubled
        objBlkList := pool.objBlkList ++ [some pool.doubled]
        curIndex := 0
        getter := .taking }
  | .noArray =>
      { pool with
        blockSize := pool.doubled, objBlkList := pool.objBlkList ++ [none], getter := .idle }
  | .noBlock => { pool with blockSize := pool.doubled, getter := .idle }

/-- The object at the cursor: `m_objBlkList->objArray[m_curIndex]`, in the newest block. -/
def cursorNode (pool : ObjectPool2) : ObjectNode := ⟨pool.objBlkList.length - 1, pool.curIndex⟩

/-- Return a released object, with the store of `m_firstDeleteNode` before. -/
def reuse (pool : ObjectPool2) (cur : ObjectNode) (next : Option ObjectNode) : ObjectPool2 :=
  { pool with
    firstDeleteNode := next
    getter := .idle
    live := pool.live ++ [cur]
    reused := pool.reused ++ [cur] }

/-- Return the object at the cursor, and move the cursor behind it. -/
def take (pool : ObjectPool2) : ObjectPool2 :=
  { pool with
    curIndex := (pool.curIndex + 1) % u32Values
    getter := .idle
    live := pool.live ++ [pool.cursorNode] }

/-- The next access of the getter, who is alone: releases run beside it. -/
def getObject (pool : ObjectPool2) (lastFirst : Bool) (allocation : Allocation) : Option ObjectPool2 :=
  match pool.getter with
  | .idle => none
  | .testing =>
      some { pool with getter := if pool.firstDeleteNode = none then .indexing else .comparing }
  | .comparing =>
      some { pool with
        getter :=
          if lastFirst then .comparingLast pool.lastDeleteNode else .comparingFirst pool.firstDeleteNode }
  | .comparingFirst first =>
      some { pool with getter := if first = pool.lastDeleteNode then .indexing else .loadingCur }
  | .comparingLast last =>
      some { pool with getter := if pool.firstDeleteNode = last then .indexing else .loadingCur }
  | .loadingCur => some { pool with getter := .loadingFirst pool.firstDeleteNode }
  | .loadingFirst cur => some { pool with getter := .loadingNext cur pool.firstDeleteNode }
  | .loadingNext cur (some first) => some { pool with getter := .storing cur (pool.nextNode first) }
  | .loadingNext _ none => some pool.abort
  | .storing (some cur) next => some (pool.reuse cur next)
  | .storing none _ => some pool.abort
  | .indexing => some { pool with getter := if pool.curIndex ≥ pool.blockSize then .growing else .taking }
  | .growing => some (pool.newBlock allocation)
  | .taking => some (if pool.blockSize > pool.curIndex then pool.take else pool.abort)

/-- The next access of the releaser, in `releaseObjectList(from, to)` with the list from the
first to the last of the nodes. -/
def releaseObjectList (pool : ObjectPool2) : Option ObjectPool2 :=
  match pool.releaser with
  | .idle => none
  | .testing nodes =>
      some { pool with
        releaser := if pool.lastDeleteNode = none then .asserting nodes else .loadingLast nodes }
  | .asserting nodes =>
      some (if pool.firstDeleteNode = none then { pool with releaser := .storingLast nodes } else pool.abort)
  | .storingLast nodes =>
      some { pool with lastDeleteNode := nodes.getLast?, releaser := .storingFirst nodes }
  | .storingFirst nodes => some { pool with firstDeleteNode := nodes.head?, releaser := .idle }
  | .loadingLast nodes => some { pool with releaser := .linking nodes pool.lastDeleteNode }
  | .linking nodes (some last) =>
      some { pool with
        nextNode := Function.update pool.nextNode last nodes.head?, releaser := .movingLast nodes }
  | .linking _ none => some pool.abort
  | .movingLast nodes => some { pool with lastDeleteNode := nodes.getLast?, releaser := .idle }

/-- A list can be released by its holder: different live objects, linked in their order. -/
def Releasable (pool : ObjectPool2) (nodes : List ObjectNode) : Prop :=
  nodes ≠ [] ∧ nodes.Nodup ∧ (∀ node ∈ nodes, node ∈ pool.live) ∧ Linked pool.nextNode nodes

/-- Whether a list of nodes may be released can be decided: they are out, different, and none is
under way. -/
instance (pool : ObjectPool2) (nodes : List ObjectNode) : Decidable (pool.Releasable nodes) :=
  inferInstanceAs (Decidable (_ ∧ _ ∧ _ ∧ _))

/-- The objects of the list are not live any more. -/
def startRelease (pool : ObjectPool2) (nodes : List ObjectNode) : ObjectPool2 :=
  { pool with
    releaser := .testing nodes
    live := pool.live.filter (· ∉ nodes)
    released := pool.released ++ nodes }

end ObjectPool2

/-- One step: a call of `getObject` or of a release, the next access inside of one, or a write
of its link by the holder of an object. `releaseObject(obj)` is the release of the list from
`obj` to `obj`. -/
inductive ObjectPool2Step where
  | callGetObject
  | getObject (lastFirst : Bool) (allocation : Allocation)
  | callReleaseObjectList (nodes : List ObjectNode)
  | releaseObjectList
  | write (node : ObjectNode) (value : Option ObjectNode)
deriving DecidableEq

namespace ObjectPool2Step

/-- `releaseObject` is `releaseObjectList` for one object, as in the source. -/
def callReleaseObject (obj : ObjectNode) : ObjectPool2Step := .callReleaseObjectList [obj]

end ObjectPool2Step

namespace ObjectPool2

/-- Perform one step: an access of the getter, or of one of the releasing threads. -/
def step (pool : ObjectPool2) : ObjectPool2Step → Option ObjectPool2
  | .callGetObject => if pool.getter = .idle then some { pool with getter := .testing } else none
  | .getObject lastFirst allocation => pool.getObject lastFirst allocation
  | .callReleaseObjectList nodes =>
      if pool.releaser = .idle ∧ pool.Releasable nodes then some (pool.startRelease nodes) else none
  | .releaseObjectList => pool.releaseObjectList
  | .write node value =>
      if node ∈ pool.live then some { pool with nextNode := Function.update pool.nextNode node value }
      else none

/-- The object is one of an allocated block, so that its link may be read and written. -/
def InsideBlock (pool : ObjectPool2) (node : ObjectNode) : Prop :=
  ∃ size, pool.objBlkList[node.block]? = some (some size) ∧ node.index < size

/-- The delete list goes through these nodes: the two pointers are its ends, and the links lead from
one to the other. -/
structure DeleteList (pool : ObjectPool2) (nodes : List ObjectNode) : Prop where
  first : pool.firstDeleteNode = nodes.head?
  last : pool.lastDeleteNode = nodes.getLast?
  linked : Linked pool.nextNode nodes

/-- No object was returned while it was live, each lies in an allocated block, released
objects are reused in their order, and between the calls the delete list goes through those
that were released and not reused. -/
structure Correct (pool : ObjectPool2) : Prop where
  unaborted : pool.aborted = false
  handedOutOnce : pool.live.Nodup
  inside : ∀ node ∈ pool.live, pool.InsideBlock node
  inOrder : pool.reused <+: pool.released
  deleteList : pool.getter = .idle → pool.releaser = .idle →
    pool.DeleteList (pool.released.drop pool.reused.length)

/-- When the object at the cursor is taken, the newest block has been allocated with
`m_blockSize` objects. -/
def Backed (pool : ObjectPool2) : ObjectPool2Step → Prop
  | .getObject .. => pool.getter = .taking → pool.objBlkList.getLast? = some (some pool.blockSize)
  | _ => True

/-- No allocation fails when `newBlock` has doubled the block size. -/
def Affordable (pool : ObjectPool2) : ObjectPool2Step → Prop
  | .getObject _ allocation =>
      pool.getter = .growing → pool.doubled ≠ pool.blockSize → allocation = .allocated
  | _ => True

/-- Whether the memory for a step can be paid for is a question about its allocation alone. -/
instance (pool : ObjectPool2) (label : ObjectPool2Step) : Decidable (pool.Affordable label) :=
  match label with
  | .getObject _ allocation =>
      inferInstanceAs (Decidable (pool.getter = .growing → pool.doubled ≠ pool.blockSize →
        allocation = .allocated))
  | .callGetObject | .callReleaseObjectList _ | .releaseObjectList | .write .. => isTrue trivial

end ObjectPool2

end OpenTaker

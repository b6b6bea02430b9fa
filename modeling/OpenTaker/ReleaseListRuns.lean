import OpenTaker.ReleaseLists

/-!
# Object pools with a delete list over every run

The released nodes that have not been reused are a queue: the getter takes its first node
when there are two at least, so that the last one, whose link the releaser is about to
write, is never taken. What either side has loaded of the queue stays right whatever the
other one does: the getter alone takes from it, and the releaser alone adds to it.

Objects that are not in the queue come from the newest block, as long as the cursor and the
block size speak of this block. They stop doing so when `newBlock` doubles the block size and
finds no memory then.
-/

namespace OpenTaker.ObjectPool2

open LinkedSegments

/-- What holds of the values that the getter has loaded, the delete list being a queue. -/
def GetterKnows (blockSize curIndex : Nat) (queue : List ObjectNode) : GetObjectPc → Prop
  | .idle | .testing | .indexing => True
  | .comparing => queue ≠ []
  | .comparingFirst first => queue ≠ [] ∧ first = queue.head?
  | .comparingLast last => ∃ node ∈ queue, last = some node
  | .loadingCur => 2 ≤ queue.length
  | .loadingFirst cur => 2 ≤ queue.length ∧ cur = queue.head?
  | .loadingNext cur first => 2 ≤ queue.length ∧ cur = queue.head? ∧ first = queue.head?
  | .storing cur next =>
      ∃ head second rest, queue = head :: second :: rest ∧ cur = some head ∧ next = some second
  | .growing => blockSize ≤ curIndex
  | .taking => curIndex < blockSize

/-- What the releaser knows of the queue and of `m_lastDeleteNode`. -/
def ReleaserKnows (nextNode : ObjectNode → Option ObjectNode) (last : Option ObjectNode)
    (queue : List ObjectNode) : ReleasePc → Prop
  | .idle | .testing _ => last = queue.getLast?
  | .asserting _ | .storingLast _ => last = queue.getLast? ∧ queue = []
  | .storingFirst nodes => last = nodes.getLast? ∧ queue = []
  | .loadingLast _ => last = queue.getLast? ∧ queue ≠ []
  | .linking _ found => last = queue.getLast? ∧ queue ≠ [] ∧ found = queue.getLast?
  | .movingLast nodes =>
      last = queue.getLast? ∧ queue ≠ [] ∧ ∀ node, queue.getLast? = some node → nextNode node = nodes.head?

/-- An object of an allocated block that the cursor has passed. -/
structure Issued (pool : ObjectPool2) (node : ObjectNode) : Prop where
  inside : pool.InsideBlock node
  passed : node.block + 1 = pool.objBlkList.length → node.index < pool.curIndex

/-- The objects that are live, in the queue or being released. -/
def holdings (pool : ObjectPool2) (queue : List ObjectNode) : List ObjectNode :=
  pool.live ++ (queue ++ pool.releaser.nodes)

/-- The pool with its queue: the released objects in the order of their links, which the getter
takes from the front. -/
structure Kept (pool : ObjectPool2) (queue : List ObjectNode) : Prop where
  unaborted : pool.aborted = false
  history : pool.released = pool.reused ++ (queue ++ pool.releaser.nodes)
  distinct : (pool.holdings queue).Nodup
  issued : ∀ node ∈ pool.holdings queue, pool.Issued node
  linked : Linked pool.nextNode queue
  releasing : Linked pool.nextNode pool.releaser.nodes
  nonempty : pool.releaser ≠ .idle → pool.releaser.nodes ≠ []
  first : pool.firstDeleteNode = queue.head?
  getter : GetterKnows pool.blockSize pool.curIndex queue pool.getter
  releaser : ReleaserKnows pool.nextNode pool.lastDeleteNode queue pool.releaser
  cursor : pool.objBlkList.getLast? = some (some pool.blockSize) ∨
    ∀ size, pool.objBlkList.getLast? = some (some size) → size ≤ pool.curIndex
  positive : 0 < pool.blockSize
  fits : pool.blockSize < u32Values
  doubles : pool.maxBlockSize ≤ 2147483648

variable {pool next : ObjectPool2} {queue nodes : List ObjectNode} {node : ObjectNode}

/-! ## What the other side does -/

/-- What the getter has loaded stays right when nodes are added behind. -/
theorem GetterKnows.append {blockSize curIndex : Nat} {pc : GetObjectPc}
    (knows : GetterKnows blockSize curIndex queue pc) (nodes : List ObjectNode) :
    GetterKnows blockSize curIndex (queue ++ nodes) pc := by
  have longer : 2 ≤ queue.length → 2 ≤ (queue ++ nodes).length := by
    rw [List.length_append]
    omega
  have head : 2 ≤ queue.length → (queue ++ nodes).head? = queue.head? := fun long =>
    List.head?_append_of_ne_nil _ (List.ne_nil_of_length_pos (Nat.lt_of_lt_of_le Nat.two_pos long))
  cases pc with
  | idle | testing | indexing => trivial
  | comparing => exact List.append_ne_nil_of_left_ne_nil knows _
  | comparingFirst first =>
    refine ⟨List.append_ne_nil_of_left_ne_nil knows.1 _, ?_⟩
    rw [List.head?_append_of_ne_nil _ knows.1]
    exact knows.2
  | comparingLast last =>
    obtain ⟨node, member, same⟩ := knows
    exact ⟨node, List.mem_append_left _ member, same⟩
  | loadingCur => exact longer knows
  | loadingFirst cur => exact ⟨longer knows.1, knows.2.trans (head knows.1).symm⟩
  | loadingNext cur first =>
    exact ⟨longer knows.1, knows.2.1.trans (head knows.1).symm, knows.2.2.trans (head knows.1).symm⟩
  | storing cur next =>
    obtain ⟨first, second, rest, rfl, isCur, isNext⟩ := knows
    exact ⟨first, second, rest ++ nodes, rfl, isCur, isNext⟩
  | growing | taking => exact knows

/-- What the releaser knows stays right when the first of two nodes is taken. -/
theorem ReleaserKnows.tail {nextNode : ObjectNode → Option ObjectNode} {last : Option ObjectNode}
    {head second : ObjectNode} {rest : List ObjectNode} {pc : ReleasePc}
    (knows : ReleaserKnows nextNode last (head :: second :: rest) pc) :
    ReleaserKnows nextNode last (second :: rest) pc := by
  have same : (head :: second :: rest).getLast? = (second :: rest).getLast? := by
    simp only [List.getLast?_cons_cons]
  cases pc with
  | idle | testing => exact knows.trans same
  | asserting | storingLast => exact absurd knows.2 (List.cons_ne_nil _ _)
  | storingFirst => exact absurd knows.2 (List.cons_ne_nil _ _)
  | loadingLast => exact ⟨knows.1.trans same, List.cons_ne_nil _ _⟩
  | linking => exact ⟨knows.1.trans same, List.cons_ne_nil _ _, knows.2.2.trans same⟩
  | movingLast => exact ⟨knows.1.trans same, List.cons_ne_nil _ _, same ▸ knows.2.2⟩

/-- What the releaser knows stays right when the link of a node out of the queue is written. -/
theorem ReleaserKnows.elsewhere {nextNode : ObjectNode → Option ObjectNode} {last : Option ObjectNode}
    {pc : ReleasePc} (knows : ReleaserKnows nextNode last queue pc) (absent : node ∉ queue)
    (value : Option ObjectNode) :
    ReleaserKnows (Function.update nextNode node value) last queue pc := by
  cases pc with
  | movingLast nodes =>
    refine ⟨knows.1, knows.2.1, fun found isLast => ?_⟩
    have distinct : found ≠ node := by
      rintro rfl
      exact absent (List.mem_of_getLast? isLast)
    rw [Function.update_of_ne distinct]
    exact knows.2.2 found isLast
  | idle | testing | asserting | storingLast | storingFirst | loadingLast | linking => exact knows

/-! ## The getter -/

namespace Kept

/-- The getter goes on without a change of the pool. -/
theorem getterAt (kept : Kept pool queue) {pc : GetObjectPc}
    (knows : GetterKnows pool.blockSize pool.curIndex queue pc) : Kept { pool with getter := pc } queue where
  unaborted := kept.unaborted
  history := kept.history
  distinct := kept.distinct
  issued node member := ⟨(kept.issued node member).inside, (kept.issued node member).passed⟩
  linked := kept.linked
  releasing := kept.releasing
  nonempty := kept.nonempty
  first := kept.first
  getter := knows
  releaser := kept.releaser
  cursor := kept.cursor
  positive := kept.positive
  fits := kept.fits
  doubles := kept.doubles

/-- The queue is not empty where `m_firstDeleteNode` is not NULL. -/
theorem queue_ne_nil (kept : Kept pool queue) (loaded : pool.firstDeleteNode ≠ none) : queue ≠ [] := by
  rintro rfl
  exact loaded kept.first

/-- While the queue is not empty, `m_lastDeleteNode` is its last node. -/
theorem last_eq (kept : Kept pool queue) (filled : queue ≠ []) : pool.lastDeleteNode = queue.getLast? := by
  have knows := kept.releaser
  cases place : pool.releaser with
  | idle | testing =>
    rw [place] at knows
    exact knows
  | asserting | storingLast | storingFirst =>
    rw [place] at knows
    exact absurd knows.2 filled
  | loadingLast | linking | movingLast =>
    rw [place] at knows
    exact knows.1

/-- A node of the queue that is not its first one makes the queue long enough. -/
theorem two_le {found : ObjectNode} (member : found ∈ queue) (other : queue.head? ≠ some found) :
    2 ≤ queue.length := by
  cases queue with
  | nil => cases member
  | cons head rest =>
    cases rest with
    | nil =>
      rw [List.mem_singleton] at member
      exact absurd (by rw [member]; rfl) other
    | cons second rest => exact Nat.le_add_left 2 _

/-- The first node of two is returned, and its successor becomes the first one. -/
theorem reused {head second : ObjectNode} {rest : List ObjectNode}
    (kept : Kept pool (head :: second :: rest)) : Kept (pool.reuse head (some second)) (second :: rest) where
  unaborted := kept.unaborted
  history := by
    refine kept.history.trans ?_
    exact (List.append_assoc pool.reused [head] _).symm
  distinct := by
    have distinct := kept.distinct
    have same : (pool.reuse head (some second)).holdings (second :: rest) =
        pool.holdings (head :: second :: rest) := by
      exact List.append_assoc pool.live [head] _
    rw [same]
    exact distinct
  issued node member := by
    have same : (pool.reuse head (some second)).holdings (second :: rest) =
        pool.holdings (head :: second :: rest) := by
      exact List.append_assoc pool.live [head] _
    rw [same] at member
    exact ⟨(kept.issued node member).inside, (kept.issued node member).passed⟩
  linked := kept.linked.rest
  releasing := kept.releasing
  nonempty := kept.nonempty
  first := rfl
  getter := trivial
  releaser := kept.releaser.tail
  cursor := kept.cursor
  positive := kept.positive
  fits := kept.fits
  doubles := kept.doubles

end Kept

/-- The number of the newest block, in which the cursor stands. -/
theorem cursorNode_block {size : Option Nat} (newest : pool.objBlkList.getLast? = some size) :
    pool.cursorNode.block + 1 = pool.objBlkList.length := by
  have filled : pool.objBlkList ≠ [] := by
    intro empty
    rw [empty] at newest
    cases newest
  exact Nat.sub_add_cancel (List.length_pos_of_ne_nil filled)

/-- The object at the cursor lies in the newest block just where its index does. -/
theorem inside_cursorNode :
    pool.InsideBlock pool.cursorNode ↔
      ∃ size, pool.objBlkList.getLast? = some (some size) ∧ pool.curIndex < size := by
  rw [List.getLast?_eq_getElem?]
  rfl

namespace Kept

/-- The object at the cursor is a fresh one. -/
theorem taken (kept : Kept pool queue) (backed : pool.objBlkList.getLast? = some (some pool.blockSize))
    (inside : pool.curIndex < pool.blockSize) : Kept pool.take queue := by
  have counted : (pool.curIndex + 1) % u32Values = pool.curIndex + 1 :=
    Nat.mod_eq_of_lt (Nat.lt_of_le_of_lt inside kept.fits)
  have newest := cursorNode_block backed
  have fresh : pool.cursorNode ∉ pool.holdings queue := by
    intro member
    exact absurd ((kept.issued _ member).passed newest) (Nat.lt_irrefl _)
  have moved : (pool.take.holdings queue).Perm (pool.cursorNode :: pool.holdings queue) := by
    have shape : pool.take.holdings queue =
        pool.live ++ [pool.cursorNode] ++ (queue ++ pool.releaser.nodes) := rfl
    rw [shape, List.append_assoc]
    exact List.perm_middle
  have issued : ∀ node ∈ pool.take.holdings queue, pool.take.Issued node := by
    intro node member
    rcases List.mem_cons.mp (moved.mem_iff.mp member) with isFresh | held
    · refine ⟨?_, fun _ => ?_⟩
      · rw [isFresh]
        exact inside_cursorNode.mpr ⟨pool.blockSize, backed, inside⟩
      · change node.index < (pool.curIndex + 1) % u32Values
        rw [counted, isFresh]
        exact Nat.lt_succ_self _
    · refine ⟨(kept.issued node held).inside, fun isNewest => ?_⟩
      change node.index < (pool.curIndex + 1) % u32Values
      rw [counted]
      exact Nat.lt_succ_of_lt ((kept.issued node held).passed isNewest)
  exact {
    unaborted := kept.unaborted
    history := kept.history
    distinct := moved.nodup_iff.mpr (List.nodup_cons.mpr ⟨fresh, kept.distinct⟩)
    issued := issued
    linked := kept.linked
    releasing := kept.releasing
    nonempty := kept.nonempty
    first := kept.first
    getter := trivial
    releaser := kept.releaser
    cursor := .inl backed
    positive := kept.positive
    fits := kept.fits
    doubles := kept.doubles }

/-- The block size is doubled without an overflow, as it is doubled only below the greatest one. -/
theorem doubled_bounds (kept : Kept pool queue) : 0 < pool.doubled ∧ pool.doubled < u32Values := by
  have positive := kept.positive
  have fits := kept.fits
  have doubles := kept.doubles
  unfold doubled
  split
  · rename_i grows
    have room : 2 * pool.blockSize < u32Values := by
      simp only [u32Values]
      omega
    rw [Nat.mod_eq_of_lt room]
    exact ⟨by omega, room⟩
  · exact ⟨positive, fits⟩

/-- The issued objects are not in a block that is added. -/
theorem issued_behind (kept : Kept pool queue) (member : node ∈ pool.holdings queue) (size : Option Nat) :
    (∃ inside, (pool.objBlkList ++ [size])[node.block]? = some (some inside) ∧ node.index < inside) ∧
      node.block + 1 ≠ (pool.objBlkList ++ [size]).length := by
  obtain ⟨inside, isBlock, below⟩ := (kept.issued node member).inside
  have old : node.block < pool.objBlkList.length := (List.getElem?_eq_some_iff.mp isBlock).1
  refine ⟨⟨inside, (List.getElem?_append_left old).trans isBlock, below⟩, ?_⟩
  rw [List.length_append, List.length_singleton]
  omega

/-- The blocks have changed, and where the getter stands. -/
theorem rebuilt (kept : Kept pool queue) {objBlkList : List (Option Nat)} {blockSize curIndex : Nat}
    {pc : GetObjectPc}
    (issued : ∀ node ∈ pool.holdings queue,
      (∃ size, objBlkList[node.block]? = some (some size) ∧ node.index < size) ∧
        (node.block + 1 = objBlkList.length → node.index < curIndex))
    (knows : GetterKnows blockSize curIndex queue pc)
    (cursor : objBlkList.getLast? = some (some blockSize) ∨
      ∀ size, objBlkList.getLast? = some (some size) → size ≤ curIndex)
    (bounds : 0 < blockSize ∧ blockSize < u32Values) :
    Kept { pool with
      objBlkList := objBlkList, blockSize := blockSize, curIndex := curIndex, getter := pc } queue where
  unaborted := kept.unaborted
  history := kept.history
  distinct := kept.distinct
  issued node member := ⟨(issued node member).1, (issued node member).2⟩
  linked := kept.linked
  releasing := kept.releasing
  nonempty := kept.nonempty
  first := kept.first
  getter := knows
  releaser := kept.releaser
  cursor := cursor
  positive := bounds.1
  fits := bounds.2
  doubles := kept.doubles

/-- What `newBlock` leaves, whether its allocations succeed or not. -/
theorem grown (kept : Kept pool queue) (used : pool.blockSize ≤ pool.curIndex) (allocation : Allocation) :
    Kept (pool.newBlock allocation) queue := by
  have bounds := kept.doubled_bounds
  cases allocation with
  | allocated =>
    refine kept.rebuilt (fun node member => ?_) bounds.1 (.inl List.getLast?_concat) bounds
    obtain ⟨inside, older⟩ := kept.issued_behind member (some pool.doubled)
    exact ⟨inside, fun newest => absurd newest older⟩
  | noArray =>
    refine kept.rebuilt (fun node member => ?_) trivial (.inr fun size newest => ?_) bounds
    · obtain ⟨inside, older⟩ := kept.issued_behind member none
      exact ⟨inside, fun newest => absurd newest older⟩
    · rw [List.getLast?_concat] at newest
      cases newest
  | noBlock =>
    refine kept.rebuilt (fun node member => ?_) trivial (.inr fun size newest => ?_) bounds
    · exact ⟨(kept.issued node member).inside, (kept.issued node member).passed⟩
    · -- the newest block has been used up
      rcases kept.cursor with isSize | below
      · rw [isSize, Option.some.injEq, Option.some.injEq] at newest
        exact newest ▸ used
      · exact below size newest

/-- Taking an object keeps the lists: from the free list, from the objects never given, or from the
released ones behind the last of them. -/
theorem getObject (kept : Kept pool queue) {lastFirst : Bool} {allocation : Allocation}
    (backed : pool.Backed (.getObject lastFirst allocation))
    (stepped : pool.getObject lastFirst allocation = some next) : ∃ queue, Kept next queue := by
  have knows := kept.getter
  unfold ObjectPool2.getObject at stepped
  cases place : pool.getter with
  | idle =>
    rw [place] at stepped
    cases stepped
  | testing =>
    rw [place] at stepped
    cases stepped
    refine ⟨queue, kept.getterAt ?_⟩
    split
    · trivial
    · rename_i loaded
      exact kept.queue_ne_nil loaded
  | comparing =>
    rw [place] at stepped knows
    cases stepped
    refine ⟨queue, kept.getterAt ?_⟩
    split
    · obtain ⟨last, isLast⟩ := Option.isSome_iff_exists.mp (List.getLast?_isSome.mpr knows)
      exact ⟨last, List.mem_of_getLast? isLast, (kept.last_eq knows).trans isLast⟩
    · exact ⟨knows, kept.first⟩
  | comparingFirst first =>
    rw [place] at stepped knows
    cases stepped
    refine ⟨queue, kept.getterAt ?_⟩
    split
    · trivial
    · rename_i distinct
      obtain ⟨last, isLast⟩ := Option.isSome_iff_exists.mp (List.getLast?_isSome.mpr knows.1)
      refine two_le (List.mem_of_getLast? isLast) fun isFirst => distinct ?_
      rw [knows.2, isFirst, kept.last_eq knows.1, isLast]
  | comparingLast last =>
    rw [place] at stepped knows
    cases stepped
    refine ⟨queue, kept.getterAt ?_⟩
    obtain ⟨node, member, rfl⟩ := knows
    split
    · trivial
    · rename_i distinct
      exact two_le member fun isFirst => distinct (kept.first.trans isFirst)
  | loadingCur =>
    rw [place] at stepped knows
    cases stepped
    exact ⟨queue, kept.getterAt ⟨knows, kept.first⟩⟩
  | loadingFirst cur =>
    rw [place] at stepped knows
    cases stepped
    exact ⟨queue, kept.getterAt ⟨knows.1, knows.2, kept.first⟩⟩
  | loadingNext cur first =>
    rw [place] at stepped knows
    obtain ⟨long, isCur, isFirst⟩ := knows
    match queue, long, isCur, isFirst, kept with
    | head :: second :: rest, _, isCur, isFirst, kept =>
      rw [isFirst] at stepped
      cases stepped
      exact ⟨_, kept.getterAt ⟨head, second, rest, rfl, isCur, kept.linked.next⟩⟩
  | storing cur next =>
    rw [place] at stepped knows
    obtain ⟨head, second, rest, rfl, rfl, rfl⟩ := knows
    cases stepped
    exact ⟨second :: rest, kept.reused⟩
  | indexing =>
    rw [place] at stepped
    cases stepped
    refine ⟨queue, kept.getterAt ?_⟩
    split
    · assumption
    · rename_i inside
      exact Nat.lt_of_not_le inside
  | growing =>
    rw [place] at stepped knows
    cases stepped
    exact ⟨queue, kept.grown knows allocation⟩
  | taking =>
    rw [place] at stepped knows
    cases stepped
    have inside : pool.blockSize > pool.curIndex := knows
    rw [if_pos inside]
    exact ⟨queue, kept.taken (backed place) knows⟩

/-! ## The releaser -/

/-- The releaser goes on with its nodes, and the pool is as it was. -/
theorem releaserAt (kept : Kept pool queue) {pc : ReleasePc} (same : pc.nodes = pool.releaser.nodes)
    (going : pool.releaser ≠ .idle) {last : Option ObjectNode}
    (knows : ReleaserKnows pool.nextNode last queue pc) :
    Kept { pool with lastDeleteNode := last, releaser := pc } queue := by
  have holdings : ({ pool with lastDeleteNode := last, releaser := pc } : ObjectPool2).holdings queue =
      pool.holdings queue := by
    unfold ObjectPool2.holdings
    rw [same]
  exact {
    unaborted := kept.unaborted
    history := by
      rw [same]
      exact kept.history
    distinct := by
      rw [holdings]
      exact kept.distinct
    issued := fun node member => by
      rw [holdings] at member
      exact ⟨(kept.issued node member).inside, (kept.issued node member).passed⟩
    linked := kept.linked
    releasing := by
      rw [same]
      exact kept.releasing
    nonempty := fun _ => by
      rw [same]
      exact kept.nonempty going
    first := kept.first
    getter := kept.getter
    releaser := knows
    cursor := kept.cursor
    positive := kept.positive
    fits := kept.fits
    doubles := kept.doubles }

/-- The nodes that the releaser has stand in the queue now, behind those that were there. -/
theorem appended (kept : Kept pool queue) {first last : Option ObjectNode}
    (isFirst : first = (queue ++ pool.releaser.nodes).head?)
    (isLast : last = (queue ++ pool.releaser.nodes).getLast?)
    (linked : Linked pool.nextNode (queue ++ pool.releaser.nodes)) :
    Kept { pool with firstDeleteNode := first, lastDeleteNode := last, releaser := .idle }
      (queue ++ pool.releaser.nodes) := by
  have holdings : ({ pool with firstDeleteNode := first, lastDeleteNode := last, releaser := .idle } :
      ObjectPool2).holdings (queue ++ pool.releaser.nodes) = pool.holdings queue := by
    simp only [ObjectPool2.holdings, ReleasePc.nodes, List.append_nil]
  exact {
    unaborted := kept.unaborted
    history := by
      simp only [ReleasePc.nodes, List.append_nil]
      exact kept.history
    distinct := by
      rw [holdings]
      exact kept.distinct
    issued := fun node member => by
      rw [holdings] at member
      exact ⟨(kept.issued node member).inside, (kept.issued node member).passed⟩
    linked := linked
    releasing := linked_nil
    nonempty := fun idle => absurd rfl idle
    first := isFirst
    getter := kept.getter.append _
    releaser := isLast
    cursor := kept.cursor
    positive := kept.positive
    fits := kept.fits
    doubles := kept.doubles }

/-- The nodes in the queue are not those that are being released. -/
theorem apart (kept : Kept pool queue) (member : node ∈ queue) : node ∉ pool.releaser.nodes := by
  have distinct := (List.nodup_append.mp kept.distinct).2.1
  intro released
  exact (List.nodup_append.mp distinct).2.2 node member node released rfl

/-- The last node of the queue is linked to the first one of the list. -/
theorem linkedLast (kept : Kept pool queue) {last : ObjectNode}
    (place : pool.releaser = .linking nodes (some last)) (isLast : queue.getLast? = some last) :
    Kept { pool with
      nextNode := Function.update pool.nextNode last nodes.head?, releaser := .movingLast nodes } queue := by
  have member := List.mem_of_getLast? isLast
  have filled : queue ≠ [] := List.ne_nil_of_mem member
  have same : (ReleasePc.movingLast nodes).nodes = pool.releaser.nodes := by
    rw [place]
    rfl
  have holdings : ({ pool with
      nextNode := Function.update pool.nextNode last nodes.head?, releaser := .movingLast nodes } :
      ObjectPool2).holdings queue = pool.holdings queue := by
    unfold ObjectPool2.holdings
    rw [same]
  have distinct := (List.nodup_append.mp (List.nodup_append.mp kept.distinct).2.1).1
  exact {
    unaborted := kept.unaborted
    history := by
      rw [same]
      exact kept.history
    distinct := by
      rw [holdings]
      exact kept.distinct
    issued := fun node member => by
      rw [holdings] at member
      exact ⟨(kept.issued node member).inside, (kept.issued node member).passed⟩
    linked := kept.linked.lastWritten distinct isLast _
    releasing := by
      rw [same]
      exact kept.releasing.elsewhere _ (kept.apart member)
    nonempty := fun _ => by
      rw [same]
      exact kept.nonempty (by rw [place]; nofun)
    first := kept.first
    getter := kept.getter
    releaser := ⟨kept.last_eq filled, filled, fun node isNode => by
      rw [isLast, Option.some.injEq] at isNode
      subst isNode
      exact Function.update_self _ _ _⟩
    cursor := kept.cursor
    positive := kept.positive
    fits := kept.fits
    doubles := kept.doubles }

/-- Releasing a list hangs it behind the last released object, in the order of the pointers that
were written. -/
theorem releaseObjectList (kept : Kept pool queue) (stepped : pool.releaseObjectList = some next) :
    ∃ queue, Kept next queue := by
  have knows := kept.releaser
  have nonempty := kept.nonempty
  unfold ObjectPool2.releaseObjectList at stepped
  cases place : pool.releaser with
  | idle =>
    rw [place] at stepped
    cases stepped
  | testing nodes =>
    rw [place] at stepped knows
    cases stepped
    have isLast : pool.lastDeleteNode = queue.getLast? := knows
    refine ⟨queue, kept.releaserAt ?_ (by rw [place]; nofun) ?_⟩
    · rw [place]
      split <;> rfl
    · split
      · rename_i isNull
        exact ⟨isLast, List.getLast?_eq_none_iff.mp (isLast.symm.trans isNull)⟩
      · rename_i isNode
        refine ⟨isLast, fun empty => isNode ?_⟩
        rw [isLast, empty]
        rfl
  | asserting nodes =>
    rw [place] at stepped knows
    cases stepped
    have isNull : pool.firstDeleteNode = none := by
      rw [kept.first, knows.2]
      rfl
    rw [if_pos isNull]
    exact ⟨queue, kept.releaserAt (by rw [place]; rfl) (by rw [place]; nofun) knows⟩
  | storingLast nodes =>
    rw [place] at stepped knows
    cases stepped
    exact ⟨queue, kept.releaserAt (by rw [place]; rfl) (by rw [place]; nofun) ⟨rfl, knows.2⟩⟩
  | storingFirst nodes =>
    rw [place] at stepped knows
    cases stepped
    obtain ⟨isLast, rfl⟩ := knows
    have same : pool.releaser.nodes = nodes := by
      rw [place]
      rfl
    refine ⟨_, kept.appended ?_ ?_ kept.releasing⟩
    · rw [same]
      rfl
    · rw [same]
      exact isLast
  | loadingLast nodes =>
    rw [place] at stepped knows
    cases stepped
    exact ⟨queue, kept.releaserAt (by rw [place]; rfl) (by rw [place]; nofun) ⟨knows.1, knows.2, knows.1⟩⟩
  | linking nodes last =>
    rw [place] at stepped knows
    obtain ⟨isLast, filled, found⟩ := knows
    cases last with
    | none => exact absurd (List.getLast?_eq_none_iff.mp found.symm) filled
    | some last =>
      cases stepped
      exact ⟨queue, kept.linkedLast place found.symm⟩
  | movingLast nodes =>
    rw [place] at stepped knows nonempty
    cases stepped
    obtain ⟨isLast, filled, linked⟩ := knows
    have same : pool.releaser.nodes = nodes := by
      rw [place]
      rfl
    refine ⟨_, kept.appended ?_ ?_ (kept.linked.append kept.releasing ?_)⟩
    · rw [List.head?_append_of_ne_nil _ filled]
      exact kept.first
    · rw [same]
      exact (List.getLast?_append_of_ne_nil _ (nonempty nofun)).symm
    · intro last isLastNode head isHead
      rw [same] at isHead
      exact (linked last isLastNode).trans isHead

end Kept

/-! ## Calls and holders -/

namespace Kept

/-- A list that is released is not live any more. -/
theorem started (kept : Kept pool queue) (idle : pool.releaser = .idle) (releasable : pool.Releasable nodes) :
    Kept (pool.startRelease nodes) queue := by
  obtain ⟨nonempty, distinct, live, linked⟩ := releasable
  have liveDistinct := (List.nodup_append.mp kept.distinct).1
  have knows := kept.releaser
  rw [idle] at knows
  have split : (pool.live.filter (· ∉ nodes) ++ nodes).Perm pool.live := by
    have parted : (pool.live.filter (· ∉ nodes) ++ nodes).Nodup := by
      refine List.nodup_append.mpr ⟨liveDistinct.filter _, distinct, fun node kept other released => ?_⟩
      rintro rfl
      exact absurd released (of_decide_eq_true (List.mem_filter.mp kept).2)
    refine (List.perm_ext_iff_of_nodup parted liveDistinct).mpr fun node => ?_
    rw [List.mem_append, List.mem_filter, decide_eq_true_eq]
    constructor
    · rintro (⟨member, -⟩ | released)
      · exact member
      · exact live node released
    · intro member
      by_cases released : node ∈ nodes
      · exact .inr released
      · exact .inl ⟨member, released⟩
  have moved : ((pool.startRelease nodes).holdings queue).Perm (pool.holdings queue) := by
    have before : pool.holdings queue = pool.live ++ queue := by
      simp only [ObjectPool2.holdings, idle, ReleasePc.nodes, List.append_nil]
    have after : (pool.startRelease nodes).holdings queue =
        pool.live.filter (· ∉ nodes) ++ (queue ++ nodes) := rfl
    rw [before, after]
    refine (List.perm_append_comm.append_left _).trans ?_
    rw [← List.append_assoc]
    exact split.append_right queue
  exact {
    unaborted := kept.unaborted
    history := by
      have history := kept.history
      rw [idle, ReleasePc.nodes, List.append_nil] at history
      change pool.released ++ nodes = pool.reused ++ (queue ++ nodes)
      rw [history, List.append_assoc]
    distinct := moved.nodup_iff.mpr kept.distinct
    issued := fun node member =>
      have issued := kept.issued node (moved.mem_iff.mp member)
      ⟨issued.inside, issued.passed⟩
    linked := kept.linked
    releasing := linked
    nonempty := fun _ => nonempty
    first := kept.first
    getter := kept.getter
    releaser := knows
    cursor := kept.cursor
    positive := kept.positive
    fits := kept.fits
    doubles := kept.doubles }

/-- The holder of an object writes its link, which is not that of an object in the queue. -/
theorem written (kept : Kept pool queue) (live : node ∈ pool.live) (value : Option ObjectNode) :
    Kept { pool with nextNode := Function.update pool.nextNode node value } queue := by
  have apart := (List.nodup_append.mp kept.distinct).2.2 node live
  have notQueued : node ∉ queue := fun member => apart node (List.mem_append_left _ member) rfl
  have notReleased : node ∉ pool.releaser.nodes := fun member =>
    apart node (List.mem_append_right _ member) rfl
  exact {
    unaborted := kept.unaborted
    history := kept.history
    distinct := kept.distinct
    issued := fun node member => ⟨(kept.issued node member).inside, (kept.issued node member).passed⟩
    linked := kept.linked.elsewhere value notQueued
    releasing := kept.releasing.elsewhere value notReleased
    nonempty := kept.nonempty
    first := kept.first
    getter := kept.getter
    releaser := kept.releaser.elsewhere notQueued value
    cursor := kept.cursor
    positive := kept.positive
    fits := kept.fits
    doubles := kept.doubles }

/-- Each step keeps the pool, where the cursor speaks of the newest block. -/
theorem step (kept : Kept pool queue) {label : ObjectPool2Step} (backed : pool.Backed label)
    (stepped : pool.step label = some next) : ∃ queue, Kept next queue := by
  cases label with
  | callGetObject =>
    obtain ⟨-, same⟩ := Option.ite_none_right_eq_some.mp stepped
    cases same
    exact ⟨queue, kept.getterAt trivial⟩
  | getObject lastFirst allocation => exact kept.getObject backed stepped
  | callReleaseObjectList nodes =>
    obtain ⟨⟨idle, releasable⟩, same⟩ := Option.ite_none_right_eq_some.mp stepped
    cases same
    exact ⟨queue, kept.started idle releasable⟩
  | releaseObjectList => exact kept.releaseObjectList stepped
  | write node value =>
    obtain ⟨live, same⟩ := Option.ite_none_right_eq_some.mp stepped
    cases same
    exact ⟨queue, kept.written live value⟩

/-- The queue is what was released and not reused, and all is as it should be. -/
theorem correct (kept : Kept pool queue) : Correct pool where
  unaborted := kept.unaborted
  handedOutOnce := (List.nodup_append.mp kept.distinct).1
  inside node live := (kept.issued node (List.mem_append_left _ live)).inside
  inOrder := ⟨_, kept.history.symm⟩
  deleteList _ idle := by
    have filled : pool.released.drop pool.reused.length = queue := by
      rw [kept.history, List.drop_left, idle, ReleasePc.nodes, List.append_nil]
    have knows := kept.releaser
    rw [idle] at knows
    rw [filled]
    exact ⟨kept.first, knows, kept.linked⟩

end Kept

/-- A new pool has an empty queue, and no object has been given to anybody. -/
theorem kept_new (sizes : BlockSizes) (nextNode : ObjectNode → Option ObjectNode) :
    Kept (new sizes nextNode) [] where
  unaborted := rfl
  history := rfl
  distinct := List.nodup_nil
  issued := nofun
  linked := linked_nil
  releasing := linked_nil
  nonempty idle := absurd rfl idle
  first := rfl
  getter := trivial
  releaser := rfl
  cursor := .inr nofun
  positive := sizes.positive
  fits := sizes.fits
  doubles := sizes.doubles

/-- An object that is taken when the cursor speaks of no block lies outside. -/
theorem Kept.broken (kept : Kept pool queue) {label : ObjectPool2Step} (unbacked : ¬ pool.Backed label)
    (stepped : pool.step label = some next) : ¬ Correct next := by
  cases label with
  | getObject lastFirst allocation =>
    simp only [Backed, not_forall] at unbacked
    obtain ⟨place, other⟩ := unbacked
    have knows := kept.getter
    rw [place] at knows
    have inside : pool.blockSize > pool.curIndex := knows
    simp only [ObjectPool2.step, ObjectPool2.getObject, place, if_pos inside] at stepped
    cases stepped
    intro correct
    have taken : pool.InsideBlock pool.cursorNode :=
      correct.inside pool.cursorNode (List.mem_append_right _ (List.mem_singleton_self _))
    obtain ⟨size, newest, below⟩ := inside_cursorNode.mp taken
    exact absurd (kept.cursor.resolve_left other size newest) (Nat.not_le.mpr below)
  | callGetObject | callReleaseObjectList | releaseObjectList | write => exact absurd trivial unbacked

/-! ## Allocations that succeed -/

/-- What is left of the newest block has been allocated. -/
def Filled (pool : ObjectPool2) : Prop :=
  pool.curIndex < pool.blockSize → pool.objBlkList.getLast? = some (some pool.blockSize)

namespace Filled

/-- A step that leaves the blocks alone, apart from the cursor that moves on. -/
theorem congr (filled : Filled pool) (objBlkList : next.objBlkList = pool.objBlkList)
    (blockSize : next.blockSize = pool.blockSize)
    (curIndex : next.curIndex < pool.blockSize → pool.curIndex < pool.blockSize) : Filled next := by
  intro inside
  rw [objBlkList, blockSize]
  rw [blockSize] at inside
  exact filled (curIndex inside)

/-- A block that was newly made has objects, when its allocation has not failed. -/
theorem newBlock (used : pool.blockSize ≤ pool.curIndex) {allocation : Allocation}
    (affordable : pool.doubled ≠ pool.blockSize → allocation = .allocated) :
    Filled (pool.newBlock allocation) := by
  cases allocation with
  | allocated => exact fun _ => List.getLast?_concat
  | noArray | noBlock =>
    have same : pool.doubled = pool.blockSize := by
      by_contra other
      cases affordable other
    intro inside
    change pool.curIndex < pool.doubled at inside
    rw [same] at inside
    exact absurd inside (Nat.not_lt.mpr used)

/-- As long as each allocation can be paid for, a taken object leaves the pool filled. -/
theorem getObject (kept : Kept pool queue) (filled : Filled pool) {lastFirst : Bool} {allocation : Allocation}
    (affordable : pool.Affordable (.getObject lastFirst allocation))
    (stepped : pool.getObject lastFirst allocation = some next) : Filled next := by
  have knows := kept.getter
  unfold ObjectPool2.getObject at stepped
  cases place : pool.getter with
  | idle =>
    rw [place] at stepped
    cases stepped
  | testing | comparing | comparingFirst | comparingLast | loadingCur | loadingFirst | indexing =>
    rw [place] at stepped
    cases stepped
    exact filled
  | loadingNext cur first =>
    rw [place] at stepped
    cases first <;> cases stepped <;> exact filled
  | storing cur next =>
    rw [place] at stepped
    cases cur <;> cases stepped <;> exact filled
  | growing =>
    rw [place] at stepped knows
    cases stepped
    exact newBlock knows (affordable place)
  | taking =>
    rw [place] at stepped knows
    cases stepped
    split
    · exact filled.congr rfl rfl fun _ => knows
    · exact filled

/-- A release allocates nothing, so that the pool stays filled. -/
theorem releaseObjectList (filled : Filled pool) (stepped : pool.releaseObjectList = some next) :
    Filled next := by
  unfold ObjectPool2.releaseObjectList at stepped
  cases place : pool.releaser with
  | idle =>
    rw [place] at stepped
    cases stepped
  | testing | storingLast | storingFirst | loadingLast | movingLast =>
    rw [place] at stepped
    cases stepped
    exact filled
  | asserting nodes =>
    rw [place] at stepped
    cases stepped
    split <;> exact filled
  | linking nodes last =>
    rw [place] at stepped
    cases last <;> cases stepped <;> exact filled

/-- Each access keeps the pool filled under that condition, by the cases of the three operations. -/
theorem step (kept : Kept pool queue) (filled : Filled pool) {label : ObjectPool2Step}
    (affordable : pool.Affordable label) (stepped : pool.step label = some next) : Filled next := by
  cases label with
  | callGetObject | callReleaseObjectList | write =>
    obtain ⟨-, same⟩ := Option.ite_none_right_eq_some.mp stepped
    cases same
    exact filled
  | getObject lastFirst allocation => exact filled.getObject kept affordable stepped
  | releaseObjectList => exact filled.releaseObjectList stepped

/-- An object is taken of a block that has been allocated. -/
theorem backed (kept : Kept pool queue) (filled : Filled pool) (label : ObjectPool2Step) :
    pool.Backed label := by
  cases label with
  | getObject lastFirst allocation =>
    intro place
    have knows := kept.getter
    rw [place] at knows
    exact filled knows
  | callGetObject | callReleaseObjectList | releaseObjectList | write => trivial

end Filled

/-- The pool is correct throughout just the runs in which the cursor speaks of the newest
block whenever an object is taken at it, and these are among others all in which no
allocation fails after the block size was doubled. -/
theorem correct_iff (sizes : BlockSizes) (nextNode : ObjectNode → Option ObjectNode)
    (labels : List ObjectPool2Step) :
    (Runs.Throughout step Correct (new sizes nextNode) labels ↔
      Runs.Meets step Backed (new sizes nextNode) labels) ∧
    (Runs.Meets step Affordable (new sizes nextNode) labels →
      Runs.Throughout step Correct (new sizes nextNode) labels) := by
  have initial := kept_new sizes nextNode
  constructor
  · apply Runs.throughout_iff_meets step Backed (fun pool => ∃ queue, Kept pool queue) Correct
    · exact fun _ ⟨_, kept⟩ => kept.correct
    · exact fun _ _ _ ⟨_, kept⟩ backed stepped => kept.step backed stepped
    · intro pool label unbacked
      cases label with
      | getObject lastFirst allocation =>
        simp only [Backed, not_forall] at unbacked
        obtain ⟨place, -⟩ := unbacked
        exact ⟨_, by simp only [step, getObject, place]; rfl⟩
      | callGetObject | callReleaseObjectList | releaseObjectList | write => exact absurd trivial unbacked
    · exact fun _ _ _ ⟨_, kept⟩ unbacked stepped => kept.broken unbacked stepped
    · exact ⟨[], initial⟩
  · apply Runs.throughout_of_meets step Affordable (fun pool => (∃ queue, Kept pool queue) ∧ Filled pool) Correct
    · exact fun _ ⟨⟨_, kept⟩, _⟩ => kept.correct
    · rintro pool label next ⟨⟨queue, kept⟩, filled⟩ affordable stepped
      exact ⟨kept.step (filled.backed kept label) stepped, filled.step kept affordable stepped⟩
    · exact ⟨⟨[], initial⟩, fun inside => absurd inside (Nat.lt_irrefl _)⟩

/-- Blocks of one object, then of two, as small as the sizes can be. -/
def smallBlocks : BlockSizes := ⟨1, 2, by decide, by decide, by decide⟩

/-- A call of `getObject` that takes the object at the cursor, after it has been found that
no released one can be reused. -/
def takes (accesses : Nat) (allocation : Allocation) : List ObjectPool2Step :=
  .callGetObject :: List.replicate accesses (.getObject false allocation)

/-- Three objects are got, the first two released in the other order, and one of them is reused,
while the third one is still out. -/
theorem correct_small_blocks :
    Runs.Throughout step Correct (new smallBlocks fun _ => none)
      (takes 4 .allocated ++ takes 4 .allocated ++ takes 3 .allocated ++
        [.write ⟨1, 0⟩ (some ⟨0, 0⟩), .callReleaseObjectList [⟨1, 0⟩, ⟨0, 0⟩]] ++
        List.replicate 4 .releaseObjectList ++ takes 7 .allocated) :=
  (correct_iff smallBlocks (fun _ => none) _).2 (by decide +kernel)

/-- The allocation of the second block fails. The next object is the second one of a block of one,
because the size has been doubled before the allocation. -/
theorem outside_after_failed_block :
    ¬ Runs.Throughout step Correct (new smallBlocks fun _ => none)
        (takes 4 .allocated ++ takes 3 .noBlock ++ takes 3 .allocated) ∧
      ∃ final, Runs.run step (new smallBlocks fun _ => none)
          (takes 4 .allocated ++ takes 3 .noBlock ++ takes 3 .allocated) = some final ∧
        final.live = [⟨0, 0⟩, ⟨0, 1⟩] ∧ final.objBlkList = [some 1] := by
  have ran := Runs.run_reaches step (new smallBlocks fun _ => none)
    (takes 4 .allocated ++ takes 3 .noBlock ++ takes 3 .allocated)
    (fun final => final.live = [⟨0, 0⟩, ⟨0, 1⟩] ∧ final.objBlkList = [some 1]) (by decide +kernel)
  refine ⟨fun throughout => ?_, ran⟩
  obtain ⟨final, reached, live, blocks⟩ := ran
  have correct := Runs.throughout_final step Correct _ final _ throughout reached
  obtain ⟨size, found, below⟩ := correct.inside ⟨0, 1⟩ (by rw [live]; simp)
  rw [blocks] at found
  cases found
  exact absurd below (by decide)

end OpenTaker.ObjectPool2

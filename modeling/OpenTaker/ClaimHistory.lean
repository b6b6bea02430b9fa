import OpenTaker.RingOrder
import Mathlib.Data.List.Basic

/-!
# The history of claims

A block's history is followed by its claim number, so that the same block on two
laps is two claims: the claim with number `k` takes block `k` modulo the number
of blocks. The ring itself keeps no such numbers. What it keeps is the size field
of each block, which it uses as a ready flag and resets when the block is freed.
The invariant here ties the size to the status of the youngest claim of each
block, and says that older claims of the same block have been freed.
-/

namespace OpenTaker

open CursorPipeline CyclicPositions

/-- What has happened to the block of a claim number so far, from not yet claimed to freed by the
producer that reclaims it. -/
inductive BlkStatus where
  | unclaimed
  | claimed
  | published
  | freed
deriving DecidableEq

/-! ## Consecutive claim numbers -/

/-- The blocks of consecutive claim numbers, which go round the ring from the block of the first
one. -/
def blocksFrom (blocks start count : Nat) : List Nat :=
  (List.range' start count).map (· % blocks)

/-- The history grows at its end, by the block of the next claim. -/
theorem blocksFrom_succ (blocks count : Nat) :
    blocksFrom blocks 0 (count + 1) = blocksFrom blocks 0 count ++ [count % blocks] := by
  simp [blocksFrom, List.range'_concat]

/-- Seen from its start, the first block is that of the first number. -/
theorem blocksFrom_cons (blocks start count : Nat) :
    blocksFrom blocks start (count + 1) = start % blocks :: blocksFrom blocks (start + 1) count := by
  simp [blocksFrom, List.range'_succ]

/-- There is one block in the list for each number counted off, also where the count wraps around
the ring. -/
@[simp] theorem blocksFrom_length (blocks start count : Nat) :
    (blocksFrom blocks start count).length = count := by
  simp [blocksFrom]

/-- The block of a claim number is its remainder, as claims go round the ring. -/
theorem blocksFrom_get (blocks count number : Nat) (inside : number < count) :
    (blocksFrom blocks 0 count)[number]? = some (number % blocks) := by
  simp [blocksFrom, inside]

/-- The same with a default, as the ring's models look claims up. -/
theorem blocksFrom_getD (blocks count number : Nat) (inside : number < count) :
    (blocksFrom blocks 0 count).getD number 0 = number % blocks := by
  rw [List.getD_eq_getElem?_getD, blocksFrom_get blocks count number inside, Option.getD_some]

/-- The blocks of a smaller number of claims come first. -/
theorem blocksFrom_prefix (blocks : Nat) {fewer count : Nat} (bound : fewer ≤ count) :
    blocksFrom blocks 0 fewer <+: blocksFrom blocks 0 count := by
  obtain ⟨rest, rfl⟩ := Nat.exists_eq_add_of_le bound
  refine ⟨blocksFrom blocks fewer rest, ?_⟩
  have joined : List.range' 0 fewer ++ List.range' fewer rest = List.range' 0 (fewer + rest) := by
    simpa using @List.range'_append_1 0 fewer rest
  rw [blocksFrom, blocksFrom, ← List.map_append, joined, blocksFrom]

/-! ## The ready flag -/

/-- The size is the ready flag of the youngest claim of each block, and the block
carries its own position. -/
structure Flagged (blocks tail : Nat) (metaBlk : Nat → PktMetaBlk)
    (status : Nat → BlkStatus) : Prop where
  unclaimed : ∀ number, status number = .unclaimed ↔ tail ≤ number
  /-- A claim that is not freed is the youngest of its block. -/
  live : ∀ number, status number = .claimed ∨ status number = .published → tail ≤ number + blocks
  flag : ∀ number < tail, tail ≤ number + blocks →
    ((metaBlk (number % blocks)).size ≠ 0 ↔ status number = .published)
  placed : ∀ number < tail, (metaBlk (number % blocks)).blkPos = number % blocks
  /-- A block that has never been claimed is empty. -/
  fresh : ∀ position < blocks, tail ≤ position → (metaBlk position).size = 0

/-- Nothing has been claimed on a started ring: all flags are clear, and every number is unclaimed. -/
theorem Started.flagged {modules blocks : Nat} {ring : Ring} (started : Started modules blocks ring) :
    Flagged blocks 0 ring.metaBlk (fun _ => .unclaimed) where
  unclaimed number := by simp
  live _ impossible := by simp at impossible
  flag number inside := absurd inside (Nat.not_lt_zero number)
  placed number inside := absurd inside (Nat.not_lt_zero number)
  fresh position _ _ := by rw [started.cleared position]; rfl

namespace Flagged

variable {blocks tail : Nat} {metaBlk : Nat → PktMetaBlk} {status : Nat → BlkStatus}

/-- Writing the block of a live claim, with a size that matches its new status,
keeps the flags: no other live claim has this block. -/
theorem rewrite (flagged : Flagged blocks tail metaBlk status) (number : Nat)
    (block : PktMetaBlk) (after : BlkStatus)
    (live : status number = .claimed ∨ status number = .published)
    (kept : after = .published ∨ after = .freed)
    (agrees : block.size ≠ 0 ↔ after = .published)
    (position : block.blkPos = (metaBlk (number % blocks)).blkPos) :
    Flagged blocks tail (Function.update metaBlk (number % blocks) block)
      (Function.update status number after) := by
  have youngest := flagged.live number live
  have below : number < tail := by
    by_contra outside
    have fresh := (flagged.unclaimed number).mpr (by omega)
    simp [fresh] at live
  constructor
  case unclaimed =>
    intro other
    by_cases same : other = number
    · subst same
      rcases kept with rfl | rfl <;> simp <;> omega
    · simpa [same] using flagged.unclaimed other
  case live =>
    intro other
    by_cases same : other = number
    · subst same
      exact fun _ => youngest
    · simpa [same] using flagged.live other
  case flag =>
    intro other inside within
    by_cases same : other = number
    · subst same
      simpa using agrees
    · have young : tail - blocks ≤ other := by omega
      have distinct : other % blocks ≠ number % blocks := fun cells =>
        same (cells_distinct young (by omega) (by omega) (by omega) cells)
      simpa [same, distinct] using flagged.flag other inside within
  case placed =>
    intro other inside
    by_cases cells : other % blocks = number % blocks
    · rw [cells, Function.update_self, position]
      exact flagged.placed number below
    · rw [Function.update_of_ne cells]
      exact flagged.placed other inside
  case fresh =>
    intro cell bound above
    have distinct : cell ≠ number % blocks := by
      have small := Nat.mod_le number blocks
      omega
    rw [Function.update_of_ne distinct]
    exact flagged.fresh cell bound above

/-- Writing a block without a change of its size and position keeps the flags. -/
theorem touch (flagged : Flagged blocks tail metaBlk status) (position : Nat) (block : PktMetaBlk)
    (size : block.size = (metaBlk position).size)
    (place : block.blkPos = (metaBlk position).blkPos) :
    Flagged blocks tail (Function.update metaBlk position block) status := by
  have sizes : ∀ other, (Function.update metaBlk position block other).size =
      (metaBlk other).size := by
    intro other
    by_cases same : other = position
    · subst same
      rw [Function.update_self, size]
    · rw [Function.update_of_ne same]
  have places : ∀ other, (Function.update metaBlk position block other).blkPos =
      (metaBlk other).blkPos := by
    intro other
    by_cases same : other = position
    · subst same
      rw [Function.update_self, place]
    · rw [Function.update_of_ne same]
  constructor
  case unclaimed => exact flagged.unclaimed
  case live => exact flagged.live
  case flag =>
    intro number inside within
    rw [sizes]
    exact flagged.flag number inside within
  case placed =>
    intro number inside
    rw [places]
    exact flagged.placed number inside
  case fresh =>
    intro cell bound above
    rw [sizes]
    exact flagged.fresh cell bound above

/-- When the tail block is empty, its claim of the earlier lap, once published, has
been freed. -/
theorem freed_of_empty (flagged : Flagged blocks tail metaBlk status) (positive : 0 < blocks)
    (number : Nat) (earlier : tail = number + blocks)
    (empty : (metaBlk (tail % blocks)).size = 0)
    (history : status number = .published ∨ status number = .freed) : status number = .freed := by
  rw [earlier, Nat.add_mod_right] at empty
  have flag := flagged.flag number (by omega) (by omega)
  exact history.resolve_left fun published => flag.mpr published empty

/-- When the claim of the earlier lap has been freed, the tail block is empty. -/
theorem empty_of_freed (flagged : Flagged blocks tail metaBlk status) (positive : 0 < blocks)
    (recycled : ∀ number, tail = number + blocks → status number = .freed) :
    (metaBlk (tail % blocks)).size = 0 := by
  by_cases firstLap : tail < blocks
  · rw [Nat.mod_eq_of_lt firstLap]
    exact flagged.fresh tail firstLap (Nat.le_refl _)
  · obtain ⟨number, earlier⟩ := Nat.exists_eq_add_of_le' (Nat.le_of_not_lt firstLap)
    have freed := recycled number earlier
    have flag := flagged.flag number (by omega) (by omega)
    rw [earlier, Nat.add_mod_right]
    by_contra full
    have published := flag.mp full
    rw [freed] at published
    cases published

/-- Claiming the tail block, when its claim of the earlier lap has been freed, keeps
the flags. -/
theorem append (flagged : Flagged blocks tail metaBlk status) (positive : 0 < blocks)
    (block : PktMetaBlk) (empty : block.size = 0) (position : block.blkPos = tail % blocks)
    (recycled : ∀ number, tail = number + blocks → status number = .freed) :
    Flagged blocks (tail + 1) (Function.update metaBlk (tail % blocks) block)
      (Function.update status tail .claimed) := by
  constructor
  case unclaimed =>
    intro number
    by_cases same : number = tail
    · subst same
      simp
    · simp only [Function.update, same, ↓reduceDIte, flagged.unclaimed]
      omega
  case live =>
    intro number
    by_cases same : number = tail
    · subst same
      omega
    · simp only [Function.update, same, ↓reduceDIte]
      intro live
      have youngest := flagged.live number live
      by_contra beyond
      have old := recycled number (by omega)
      simp [old] at live
  case flag =>
    intro number inside within
    by_cases same : number = tail
    · subst same
      simp [empty]
    · have young : tail + 1 - blocks ≤ number := by omega
      have distinct : number % blocks ≠ tail % blocks := fun equal =>
        same (cells_distinct young (by omega) (by omega) (by omega) equal)
      simpa [same, distinct] using flagged.flag number (by omega) (by omega)
  case placed =>
    intro number inside
    by_cases equal : number % blocks = tail % blocks
    · simp [equal, position]
    · have notTail : number ≠ tail := fun same => equal (by rw [same])
      simpa [equal] using flagged.placed number (by omega)
  case fresh =>
    intro cell bound above
    have distinct : cell ≠ tail % blocks := by
      have small := Nat.mod_le tail blocks
      omega
    rw [Function.update_of_ne distinct]
    exact flagged.fresh cell bound (by omega)

end Flagged

/-! ## The ledger of claims -/

/-- What is known of a ring whose modules only pass published blocks: the ring
represents its cursors, the claims are numbered in order, and what a module has passed
has been published. -/
structure Ledger (modules blocks : Nat) (ring : Ring) (cursors : Cursors) (claims : List Nat)
    (status : Nat → BlkStatus) : Prop where
  represents : Represents modules blocks ring cursors
  claimed : claims = blocksFrom blocks 0 cursors.tail
  passedReady : ∀ id < modules, ∀ number < cursors.passed id,
    status number = .published ∨ status number = .freed
  flagged : Flagged blocks cursors.tail ring.metaBlk status

/-- A started ring has nothing claimed, which is the empty history. -/
theorem Started.ledger {modules blocks : Nat} {ring : Ring} (started : Started modules blocks ring) :
    Ledger modules blocks ring noCursors [] (fun _ => .unclaimed) where
  represents := started.represents
  claimed := rfl
  passedReady _ _ number inside := absurd inside (Nat.not_lt_zero number)
  flagged := started.flagged

namespace Ledger

variable {modules blocks : Nat} {ring : Ring} {cursors : Cursors} {claims : List Nat}
  {status : Nat → BlkStatus}

/-- With room and an empty tail block, the claim of the earlier lap has been freed. -/
theorem recycled (ledger : Ledger modules blocks ring cursors claims status) (several : 2 ≤ blocks)
    (nonempty : 1 ≤ modules) (room : cursors.tail < cursors.passed 0 + (blocks - 2))
    (empty : (ring.metaBlk (cursors.tail % blocks)).size = 0) (number : Nat)
    (earlier : cursors.tail = number + blocks) : status number = .freed :=
  ledger.flagged.freed_of_empty (by omega) number earlier empty
    (ledger.passedReady 0 (by omega) number (by omega))

/-- Taking the tail block adds one claim to the history: its number is the old tail, and the block
is that of the tail. -/
theorem take (ledger : Ledger modules blocks ring cursors claims status) (positive : 0 < blocks)
    (room : cursors.tail < cursors.passed 0 + (blocks - 2))
    (inside : blockInside blocks (cursors.tail % blocks) = true)
    (recycled : ∀ number, cursors.tail = number + blocks → status number = .freed) :
    Ledger modules blocks (Represents.afterClaim ring blocks cursors) cursors.append
      (claims ++ [cursors.tail % blocks]) (Function.update status cursors.tail .claimed) where
  represents := ledger.represents.claim room inside
  claimed := by
    simp only [append_tail, blocksFrom_succ]
    rw [ledger.claimed]
  passedReady id bound number passed := by
    have history := ledger.passedReady id bound number passed
    have earlier : number ≠ cursors.tail := by
      have behind := ledger.represents.ordered.le_tail id bound
      have below : number < cursors.passed id := passed
      omega
    simpa [earlier] using history
  flagged := ledger.flagged.append positive (claimedBlock ring _)
    (ledger.flagged.empty_of_freed positive recycled) rfl recycled

/-- The number of a claim names its block: the history holds under it the remainder by the number of
blocks. -/
theorem claims_getD (ledger : Ledger modules blocks ring cursors claims status) (number : Nat)
    (claimed : status number ≠ .unclaimed) : claims.getD number 0 = number % blocks := by
  rw [ledger.claimed]
  apply blocksFrom_getD
  by_contra outside
  exact claimed ((ledger.flagged.unclaimed number).mpr (by omega))

/-- Writing the block of a live claim when it is published or freed keeps the ledger. -/
theorem rewrite (ledger : Ledger modules blocks ring cursors claims status) (number : Nat)
    (block : PktMetaBlk) (after : BlkStatus)
    (live : status number = .claimed ∨ status number = .published)
    (kept : after = .published ∨ after = .freed) (agrees : block.size ≠ 0 ↔ after = .published)
    (position : block.blkPos = (ring.metaBlk (number % blocks)).blkPos) :
    Ledger modules blocks (ring.setMetaBlk (number % blocks) block) cursors claims
      (Function.update status number after) where
  represents := ledger.represents.setMetaBlk _ _
  claimed := ledger.claimed
  passedReady id bound other passed := by
    by_cases same : other = number
    · subst same
      simpa using kept
    · simpa [same] using ledger.passedReady id bound other passed
  flagged := ledger.flagged.rewrite number block after live kept agrees position

/-- Writing a block without a change of its size and position keeps the ledger. -/
theorem touch (ledger : Ledger modules blocks ring cursors claims status) (position : Nat)
    (block : PktMetaBlk) (size : block.size = (ring.metaBlk position).size)
    (place : block.blkPos = (ring.metaBlk position).blkPos) :
    Ledger modules blocks (ring.setMetaBlk position block) cursors claims status where
  represents := ledger.represents.setMetaBlk _ _
  claimed := ledger.claimed
  passedReady := ledger.passedReady
  flagged := ledger.flagged.touch position block size place

/-- A move over published blocks keeps the ledger: it touches a cursor and the flags of blocks, and
no claim. -/
theorem move (ledger : Ledger modules blocks ring cursors claims status) (id count : Nat)
    (within : cursors.passed id + count ≤ limit modules cursors id)
    (ready : ∀ offset < count, status (cursors.passed id + offset) = .published ∨
      status (cursors.passed id + offset) = .freed) :
    Ledger modules blocks (ring.setBlkPtr id ((cursors.passed id + count) % blocks))
      (cursors.advance id count) claims status where
  represents := ledger.represents.move id count within
  claimed := ledger.claimed
  passedReady other bound number passed := by
    by_cases same : other = id
    · subst same
      simp only [advance_passed_self] at passed
      by_cases old : number < cursors.passed other
      · exact ledger.passedReady other bound number old
      · obtain ⟨offset, rfl⟩ := Nat.exists_eq_add_of_le (Nat.le_of_not_lt old)
        exact ready offset (by omega)
    · simp only [advance_passed_other cursors id other count same] at passed
      exact ledger.passedReady other bound number passed
  flagged := ledger.flagged

/-- Two live claims have different blocks: they are less than one lap of the ring apart. -/
theorem live_distinct (ledger : Ledger modules blocks ring cursors claims status)
    (first second : Nat)
    (firstLive : status first = .claimed ∨ status first = .published)
    (secondLive : status second = .claimed ∨ status second = .published)
    (same : first % blocks = second % blocks) : first = second := by
  have below : ∀ number, status number = .claimed ∨ status number = .published →
      number < cursors.tail := by
    intro number live
    by_contra outside
    have unclaimed := (ledger.flagged.unclaimed number).mpr (by omega)
    simp [unclaimed] at live
  have firstBelow := below first firstLive
  have secondBelow := below second secondLive
  have firstYoung := ledger.flagged.live first firstLive
  have secondYoung := ledger.flagged.live second secondLive
  have young : cursors.tail - blocks ≤ first := by omega
  exact cells_distinct young (by omega) (by omega) (by omega) same

end Ledger

end OpenTaker

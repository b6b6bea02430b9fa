import OpenTaker.RingOrder

/-!
# The sizes of a ring

`InitRing` derives the number of slots from the block size by a floor logarithm
and an `int` shift, the number of meta blocks by a ceiling division, and the
bytes of the block array by a 32-bit product. The slots are a power of two above
a hundredth of the block size as long as the shift stays below 2^31; from there on
x86-64 shifts by the count modulo 32 and the result no longer covers the block.

The result below gives the exact range of block sizes and capacities for which
everything fits. It assumes of the memory allocator that it refuses sizes no
allocation can have, which leaves out one count of the shift.
-/

namespace OpenTaker

/-! ## The logarithm and the shift -/

/-- The halving loop counts up to the floor logarithm. -/
theorem log2Loop_eq (fuel value count : Nat) (small : value < 2 ^ fuel) :
    log2Loop fuel value count = count + Nat.log2 value := by
  induction fuel generalizing value count with
  | zero =>
    have zero : value = 0 := by omega
    subst zero
    rfl
  | succ fuel inductionHypothesis =>
    have unfolded := Nat.log2_def value
    rw [log2Loop]
    by_cases last : value / 2 = 0
    · rw [if_pos last, unfolded, if_neg (by omega), Nat.add_zero]
    · have half : value / 2 < 2 ^ fuel := by
        rw [Nat.pow_succ] at small
        omega
      rw [if_neg last, inductionHypothesis (value / 2) (count + 1) half, unfolded,
        if_pos (by omega)]
      omega

/-- The loop of `Log2` is the logarithm of the library on all numbers of 64 bits. -/
theorem log2_eq (value : Nat) (wide : value < 2 ^ 64) : log2 value = Nat.log2 value := by
  rw [log2, log2Loop_eq 64 value 0 wide, Nat.zero_add]

/-- The shift looks only at the count modulo 32, and leaves a power of two, a number
with the sign bit of an `int` extended to 64 bits, or nothing. -/
theorem shiftLeft_two (count : Nat) :
    u64OfInt (shiftLeftInt 2 count) =
      if count % 32 < 30 then 2 ^ (count % 32 + 1)
      else if count % 32 = 30 then 2 ^ 64 - 2 ^ 31 else 0 := by
  have table : ∀ rest : Fin 32, u64OfInt (i32 (u32 (2 * 2 ^ rest.val))) =
      if rest.val < 30 then 2 ^ (rest.val + 1)
      else if rest.val = 30 then 2 ^ 64 - 2 ^ 31 else 0 := by decide
  exact table ⟨count % 32, Nat.mod_lt count (by decide)⟩

/-! ## The header of an accepted ring -/

/-- The number of slots the sizing aims at: the power of two above a hundredth of the
block size. -/
def slotsFor (blockSize : Nat) : Nat := 2 ^ (Nat.log2 (blockSize / averagePacketSize) + 1)

/-- Sizing in one started ring: what the numbers of the header must satisfy for its memories to fit. -/
structure SizingSound (blockSize capacity : Nat) (ring : Ring) : Prop where
  powerOfTwo : ∃ bits, getMetaCount ring = 2 ^ bits
  enough : blockSize / averagePacketSize < getMetaCount ring
  asserted : startWorkAsserts ring.global = true
  notTooMany : (getMetaBlkCount ring - 1) * initCapacity capacity < getMetaCount ring
  covering : getMetaCount ring ≤ getMetaBlkCount ring * initCapacity capacity
  poolRequest : getMetaCount ring * sizeofPacketMeta ≤ ring.global.metaPoolSize
  blockRequest : getMetaBlkCount ring * sizeofPktMetaBlk ≤ metaBlockSize ring.global

/-- The header left by the process that sizes the ring. -/
structure SizedHeader (call : InitCall) (global : Global) : Prop where
  blockCount : global.metaBlkCount = initMetaBlkCount call.blockSize call.capacity
  poolSize : global.metaPoolSize = u64 (initMetaCount call.blockSize * sizeofPacketMeta)
  capacity : global.metaBlkCapacity = initCapacity call.capacity
  noColumns : global.offset = 0

/-- The header that is computed has the sizes the call asks for. -/
theorem initGlobal_sizedHeader (call : InitCall) :
    SizedHeader call (initGlobal call.blockSize call.capacity) where
  blockCount := rfl
  poolSize := rfl
  capacity := rfl
  noColumns := rfl

/-- Attaching leaves the sizes alone, so that they are those of the call that sized the ring. -/
theorem SizedHeader.attached {sizing call : InitCall} {index : Nat} {created : Bool}
    {ring next : Ring} (sized : SizedHeader sizing ring.global)
    (done : AttachDone call index created ring next) : SizedHeader sizing next.global := by
  rw [done.header]
  exact ⟨sized.blockCount, sized.poolSize, sized.capacity, sized.noColumns⟩

/-- The sized header, with the counts `StartWork` derives from it. -/
structure SizedBy (call : InitCall) (ring : Ring) : Prop where
  blockCount : ring.global.metaBlkCount = initMetaBlkCount call.blockSize call.capacity
  poolSize : ring.global.metaPoolSize = u64 (initMetaCount call.blockSize * sizeofPacketMeta)
  capacity : ring.global.metaBlkCapacity = initCapacity call.capacity
  noColumns : ring.global.offset = 0
  metaSize : ring.global.metaSize = sizeofPacketMeta
  slotMask : ring.global.metaCount =
    u32 (u64Pred (ring.global.metaPoolSize / sizeofPacketMeta))
  granted : (call.create .metaPool ring.global.metaPoolSize).isSome = true

/-- `StartWork` on a sized header: it stores the size of a slot and the number of slots less one. -/
theorem SizedHeader.startWork {call : InitCall} {opened next : Ring}
    (sized : SizedHeader call opened.global)
    (granted : (call.create .metaPool opened.global.metaPoolSize).isSome = true)
    (works : startWork opened = some next) : SizedBy call next := by
  have metaSize : u32 (sizeofPacketMeta + opened.global.offset) = sizeofPacketMeta := by
    rw [sized.noColumns]
    rfl
  simp only [OpenTaker.startWork, metaSize] at works
  split at works
  · cases works
  · obtain rfl := Option.some.inj works
    constructor
    case blockCount => rw [setMetaCount_blockCount, sized.blockCount]
    case poolSize => rw [setMetaCount_poolSize, sized.poolSize]
    case capacity => rw [setMetaCount_capacity, sized.capacity]
    case noColumns => rw [setMetaCount_offset, sized.noColumns]
    case metaSize => rw [setMetaCount_metaSize]
    case slotMask => rw [setMetaCount_metaCount, setMetaCount_poolSize]
    case granted =>
      rw [setMetaCount_poolSize]
      exact granted

/-- `StartWork` refuses a ring without a block size, so that one that works has been sized. -/
theorem startWork_blockSize {ring next : Ring} (works : startWork ring = some next) :
    ring.global.blockSize ≠ 0 := by
  intro zero
  simp [startWork, zero] at works

/-- An attach leaves the block size of the ring. -/
theorem AttachDone.blockSize {call : InitCall} {index : Nat} {created : Bool} {ring next : Ring}
    (done : AttachDone call index created ring next) :
    next.global.blockSize = ring.global.blockSize := by
  rw [done.header]

/-- An attach leaves the size of the meta memory. -/
theorem AttachDone.poolSize {call : InitCall} {index : Nat} {created : Bool} {ring next : Ring}
    (done : AttachDone call index created ring next) :
    next.global.metaPoolSize = ring.global.metaPoolSize := by
  rw [done.header]

/-- The first process of a ring, whose memory is fresh or reset, sizes it. -/
theorem sizedBy_of_accepted {call : InitCall} {ring next : Ring} {id : Nat}
    (first : call.reset = true ∨ ring.global = Global.zero)
    (accepted : (initRing call ring).1 = some id)
    (works : startWork (initRing call ring).2 = some next) : SizedBy call next := by
  have opened : (openRing call ring).global =
      if call.blockSize ≠ 0 then initGlobal call.blockSize call.capacity else Global.zero := by
    have zeroed : (if call.reset then { ring with global := Global.zero } else ring).global =
        Global.zero := by
      rcases first with reset | fresh
      · rw [if_pos reset]
      · split
        · rfl
        · exact fresh
    simp only [openRing, zeroed]
    by_cases sized : call.blockSize = 0
    · rw [if_neg (fun both => both.2 sized), if_neg (not_not.mpr sized), zeroed]
    · rw [if_pos ⟨rfl, sized⟩, if_pos sized]
  have attached : ∀ index created after, AttachDone call index created (openRing call ring) after →
      startWork after = some next → SizedBy call next := by
    intro index created after done works
    have sized : call.blockSize ≠ 0 := by
      intro zero
      apply startWork_blockSize works
      rw [done.blockSize, opened, if_neg (not_not.mpr zero)]
      rfl
    rw [if_pos sized] at opened
    have header : SizedHeader call (openRing call ring).global :=
      opened ▸ initGlobal_sizedHeader call
    exact (header.attached done).startWork (done.poolSize ▸ done.granted) works
  have done := initRing_done call ring (initRing call ring).2 id (Prod.ext accepted rfl)
  generalize (initRing call ring).2 = after at done works
  cases done with
  | opens unnamed =>
    obtain ⟨registered, -⟩ := startWork_some works
    have noIndex : (openRing call ring).global.index = 0 := by
      rw [opened]
      split <;> rfl
    omega
  | attaches named found done => exact attached _ _ after done works
  | registers named absent done => exact attached _ _ after done works

/-! ## Any number of calls -/

/-- The block size fits its type, and the allocator refuses sizes no allocation can have. -/
structure InitCall.Possible (call : InitCall) : Prop where
  wide : call.blockSize < 2 ^ 64
  refuses : ∀ region size, 2 ^ 63 ≤ size → call.create region size = none

/-- After any number of calls: without a block size nothing has been sized, and with
one some call sized the ring and the modules were given its meta memory. -/
def SizedOnce (ring : Ring) : Prop :=
  ring.global.blockSize = 0 ∨ ∃ call : InitCall, call.Possible ∧ SizedHeader call ring.global ∧
    (1 ≤ ring.global.index → (call.create .metaPool ring.global.metaPoolSize).isSome = true)

/-- Opening a ring keeps its sizes, forgets them or computes them. -/
theorem SizedOnce.openRing {ring : Ring} (sized : SizedOnce ring) {call : InitCall}
    (possible : call.Possible) : SizedOnce (openRing call ring) := by
  simp only [OpenTaker.openRing]
  have computed : SizedOnce { ring with global := initGlobal call.blockSize call.capacity } :=
    .inr ⟨call, possible, initGlobal_sizedHeader call, fun counted => absurd counted (Nat.not_succ_le_zero 0)⟩
  by_cases reset : call.reset = true
  · simp only [reset, ↓reduceIte]
    split
    · exact computed
    · exact .inl rfl
  · simp only [reset, Bool.false_eq_true, ↓reduceIte]
    split
    · exact computed
    · exact sized

/-- Attaching asks the allocator of the call for the meta memory. -/
theorem SizedOnce.attached {ring next : Ring} (sized : SizedOnce ring) {call : InitCall}
    (possible : call.Possible) {index : Nat} {created : Bool}
    (done : AttachDone call index created ring next) : SizedOnce next := by
  rcases sized with zero | ⟨sizing, sizes, header, -⟩
  · exact .inl (done.blockSize.trans zero)
  · right
    refine ⟨{ sizing with create := call.create }, ⟨sizes.wide, possible.refuses⟩, ?_, ?_⟩
    · obtain ⟨blockCount, poolSize, capacity, noColumns⟩ := header.attached done
      exact ⟨blockCount, poolSize, capacity, noColumns⟩
    · intro counted
      rw [done.poolSize]
      exact done.granted

/-- After every call the ring is sized by one call, or not at all. An attach in between has got its
meta memory. -/
theorem sizedOnce_step (ring : Ring) (call : InitCall) (next : Ring) (sized : SizedOnce ring)
    (possible : call.Possible) (stepped : setupStep ring call = some next) : SizedOnce next := by
  have opened := sized.openRing possible
  obtain ⟨id, done⟩ := setupStep_done stepped
  cases done with
  | opens unnamed => exact opened
  | attaches named found done => exact opened.attached possible done
  | registers named absent done => exact opened.attached possible done

/-- However often a ring is set up before it is started, it has been sized by a call. -/
theorem sizedBy_of_setUp {calls : List InitCall} {opened ring : Ring}
    (possible : ∀ call ∈ calls, call.Possible)
    (ran : Runs.run setupStep Ring.zero calls = some opened)
    (works : startWork opened = some ring) : ∃ call : InitCall, call.Possible ∧ SizedBy call ring := by
  have sized : SizedOnce opened :=
    Runs.run_invariant_meets setupStep (fun _ call => call.Possible) SizedOnce sizedOnce_step
      Ring.zero opened calls (.inl rfl) (Runs.meets_of_forall _ _ _ _ possible) ran
  obtain ⟨counted, -⟩ := startWork_some works
  rcases sized with zero | ⟨call, allowed, header, granted⟩
  · exact absurd zero (startWork_blockSize works)
  · exact ⟨call, allowed, header.startWork (granted counted) works⟩

/-! ## The counts -/

/-- The number of slots as the source computes it: a shift by less than 32, whose result is signed
at 31. -/
theorem initMetaCount_eq (blockSize : Nat) (wide : blockSize < 2 ^ 64) :
    initMetaCount blockSize =
      if Nat.log2 (blockSize / averagePacketSize) % 32 < 30 then
        2 ^ (Nat.log2 (blockSize / averagePacketSize) % 32 + 1)
      else if Nat.log2 (blockSize / averagePacketSize) % 32 = 30 then 2 ^ 64 - 2 ^ 31 else 0 := by
  have quotient : blockSize / averagePacketSize < 2 ^ 64 :=
    Nat.lt_of_le_of_lt (Nat.div_le_self _ _) wide
  rw [initMetaCount, log2_eq _ quotient, shiftLeft_two]

/-- The capacity is positive: a zero stands for the default. -/
theorem initCapacity_pos (capacity : Nat) : 0 < initCapacity capacity := by
  simp only [initCapacity, defMetablockCapacity]
  split <;> omega

/-- The ceiling division is exact while the slots are few. -/
theorem initMetaBlkCount_eq (blockSize capacity : Nat) (positive : 0 < initMetaCount blockSize)
    (small : initMetaCount blockSize ≤ 2 ^ 30) :
    initMetaBlkCount blockSize capacity =
      (initMetaCount blockSize - 1) / initCapacity capacity + 1 := by
  have quotient : (initMetaCount blockSize - 1) / initCapacity capacity ≤
      initMetaCount blockSize - 1 := Nat.div_le_self _ _
  rw [initMetaBlkCount, u64Pred_eq positive (by omega), u64_of_lt (by omega), u32_of_lt (by omega)]

namespace SizedBy

variable {call : InitCall} {ring : Ring}

/-- A power of two of slots passes through the pool size and the mask unchanged. -/
theorem getMetaCount_of_pow (sized : SizedBy call ring) (bits : Nat) (small : bits ≤ 30)
    (count : initMetaCount call.blockSize = 2 ^ bits) :
    getMetaCount ring = 2 ^ bits ∧ ring.global.metaPoolSize = 2 ^ bits * sizeofPacketMeta := by
  have bound : 2 ^ bits ≤ 2 ^ 30 := Nat.pow_le_pow_right (by decide) small
  have positive := Nat.two_pow_pos bits
  have poolSize : ring.global.metaPoolSize = 2 ^ bits * sizeofPacketMeta := by
    rw [sized.poolSize, count, u64_of_lt (by simp only [sizeofPacketMeta]; omega)]
  have mask : ring.global.metaCount = 2 ^ bits - 1 := by
    rw [sized.slotMask, poolSize, Nat.mul_div_cancel _ (by decide),
      u64Pred_eq positive (by omega), u32_of_lt (by omega)]
  refine ⟨?_, poolSize⟩
  rw [getMetaCount, mask, Nat.sub_add_cancel positive, u32_of_lt (by omega)]

/-- When nothing is left of the shift, the mask wraps and there are no slots. -/
theorem getMetaCount_of_zero (sized : SizedBy call ring)
    (count : initMetaCount call.blockSize = 0) : getMetaCount ring = 0 := by
  have poolSize : ring.global.metaPoolSize = 0 := by
    rw [sized.poolSize, count]
    rfl
  rw [getMetaCount, sized.slotMask, poolSize]
  decide

/-- The slots an accepted ring can have. The sign-extended count asks for a pool no
allocation can have. -/
theorem slots (sized : SizedBy call ring) (wide : call.blockSize < 2 ^ 64)
    (refuses : ∀ region size, 2 ^ 63 ≤ size → call.create region size = none) :
    (Nat.log2 (call.blockSize / averagePacketSize) % 32 < 30 ∧
      initMetaCount call.blockSize =
        2 ^ (Nat.log2 (call.blockSize / averagePacketSize) % 32 + 1)) ∨
    (Nat.log2 (call.blockSize / averagePacketSize) % 32 = 31 ∧
      initMetaCount call.blockSize = 0) := by
  have count := initMetaCount_eq call.blockSize wide
  have rest : Nat.log2 (call.blockSize / averagePacketSize) % 32 < 32 := Nat.mod_lt _ (by decide)
  split at count
  · rename_i low
    exact .inl ⟨low, count⟩
  · split at count
    · have granted := sized.granted
      have excessive : 2 ^ 63 ≤ ring.global.metaPoolSize := by
        rw [sized.poolSize, count]
        decide
      rw [refuses _ _ excessive] at granted
      cases granted
    · exact .inr ⟨by omega, count⟩

/-- Below the sign bit the slots are the power of two the sizing aims at. -/
theorem slots_of_low (sized : SizedBy call ring) (wide : call.blockSize < 2 ^ 64)
    (low : Nat.log2 (call.blockSize / averagePacketSize) < 30) :
    getMetaCount ring = slotsFor call.blockSize ∧
      ring.global.metaPoolSize = slotsFor call.blockSize * sizeofPacketMeta ∧
      ring.global.metaBlkCount =
        (slotsFor call.blockSize - 1) / initCapacity call.capacity + 1 := by
  have count := initMetaCount_eq call.blockSize wide
  rw [Nat.mod_eq_of_lt (by omega), if_pos low] at count
  obtain ⟨slots, pool⟩ := sized.getMetaCount_of_pow _ (by omega) count
  have bound : slotsFor call.blockSize ≤ 2 ^ 30 := Nat.pow_le_pow_right (by decide) (by omega)
  refine ⟨slots, pool, ?_⟩
  rw [sized.blockCount, initMetaBlkCount_eq _ _ (count ▸ Nat.two_pow_pos _) (count ▸ bound), count]
  rfl

/-- From the sign bit on the slots no longer exceed a hundredth of the block size. -/
theorem slots_of_high (sized : SizedBy call ring) (wide : call.blockSize < 2 ^ 64)
    (refuses : ∀ region size, 2 ^ 63 ≤ size → call.create region size = none)
    (high : 30 ≤ Nat.log2 (call.blockSize / averagePacketSize)) :
    getMetaCount ring ≤ call.blockSize / averagePacketSize := by
  rcases sized.slots wide refuses with ⟨low, count⟩ | ⟨-, count⟩
  · obtain ⟨slots, -⟩ := sized.getMetaCount_of_pow _ (by omega) count
    have small : getMetaCount ring ≤ 2 ^ 30 := by
      rw [slots]
      exact Nat.pow_le_pow_right (by decide) (by omega)
    have nonzero : call.blockSize / averagePacketSize ≠ 0 := by
      intro zero
      rw [zero] at high
      simp at high
    have atLeast : 32 ≤ Nat.log2 (call.blockSize / averagePacketSize) := by omega
    have large := (Nat.le_log2 nonzero).mp atLeast
    omega
  · rw [sized.getMetaCount_of_zero count]
    exact Nat.zero_le _

end SizedBy

/-- A ring sized below the sign bit is sound when the assertion of `StartWork` holds
and the block array fits in its 32-bit request. -/
theorem sizingSound_of_low_iff {blockSize capacity : Nat} {ring : Ring}
    (slots : getMetaCount ring = slotsFor blockSize)
    (poolSize : ring.global.metaPoolSize = slotsFor blockSize * sizeofPacketMeta)
    (blockCount : ring.global.metaBlkCount = (slotsFor blockSize - 1) / initCapacity capacity + 1)
    (noColumns : ring.global.offset = 0) :
    SizingSound blockSize capacity ring ↔
      400 ≤ blockSize ∧ slotsFor blockSize ≤ (2 ^ 27 - 1) * initCapacity capacity := by
  have positive := initCapacity_pos capacity
  have slotsPositive : 0 < slotsFor blockSize := Nat.two_pow_pos _
  have aimed : blockSize / averagePacketSize < slotsFor blockSize := Nat.lt_log2_self
  -- The assertion asks for a multiple of eight.
  have asserted : startWorkAsserts ring.global = true ↔ 400 ≤ blockSize := by
    have modulus : startWorkAsserts ring.global = true ↔ slotsFor blockSize % 8 = 0 := by
      rw [startWorkAsserts, noColumns, ← slots, getMetaCount]
      simp
    rw [modulus, slotsFor, averagePacketSize]
    by_cases enough : 2 ≤ Nat.log2 (blockSize / 100)
    · obtain ⟨more, exponent⟩ := Nat.exists_eq_add_of_le enough
      have quotient : blockSize / 100 ≠ 0 := by
        intro zero
        rw [zero] at enough
        simp at enough
      have large := (Nat.le_log2 quotient).mp enough
      have three : 2 + more + 1 = more + 3 := by omega
      rw [exponent, three, Nat.pow_add]
      omega
    · have small : blockSize < 400 := by
        by_contra large
        exact enough ((Nat.le_log2 (by omega)).mpr (by omega))
      have exponent : Nat.log2 (blockSize / 100) = 0 ∨ Nat.log2 (blockSize / 100) = 1 := by omega
      rcases exponent with zero | one
      · rw [zero]
        omega
      · rw [one]
        omega
  have quotient := Nat.div_add_mod (slotsFor blockSize - 1) (initCapacity capacity)
  have remainder := Nat.mod_lt (slotsFor blockSize - 1) positive
  have covering : slotsFor blockSize ≤ ring.global.metaBlkCount * initCapacity capacity := by
    rw [blockCount, Nat.add_mul, Nat.mul_comm _ (initCapacity capacity)]
    omega
  have fits : ring.global.metaBlkCount * sizeofPktMetaBlk ≤ metaBlockSize ring.global ↔
      slotsFor blockSize ≤ (2 ^ 27 - 1) * initCapacity capacity := by
    have blocks : ring.global.metaBlkCount < 2 ^ 27 ↔
        slotsFor blockSize ≤ (2 ^ 27 - 1) * initCapacity capacity := by
      rw [blockCount, show (slotsFor blockSize - 1) / initCapacity capacity + 1 < 2 ^ 27 ↔
        (slotsFor blockSize - 1) / initCapacity capacity < 2 ^ 27 - 1 by omega,
        Nat.div_lt_iff_lt_mul positive]
      omega
    rw [← blocks, metaBlockSize, u32, sizeofPktMetaBlk]
    omega
  constructor
  · intro sound
    exact ⟨asserted.mp sound.asserted, fits.mp sound.blockRequest⟩
  · rintro ⟨enough, few⟩
    exact {
      powerOfTwo := ⟨_, slots⟩
      enough := slots ▸ aimed
      asserted := asserted.mpr enough
      notTooMany := by
        rw [slots, getMetaBlkCount, blockCount, Nat.add_sub_cancel,
          Nat.mul_comm _ (initCapacity capacity)]
        omega
      covering := slots ▸ covering
      poolRequest := by rw [slots, poolSize]
      blockRequest := fits.mpr few }

/-- An accepted and started ring is sized soundly exactly for block sizes from 400
bytes to below 100 GiB whose slots fit in fewer than 2^27 blocks. -/
theorem sizing_sound_iff (call : InitCall) (ring next : Ring) (id : Nat)
    (wide : call.blockSize < 2 ^ 64)
    (refuses : ∀ region size, 2 ^ 63 ≤ size → call.create region size = none)
    (first : call.reset = true ∨ ring.global = Global.zero)
    (accepted : (initRing call ring).1 = some id)
    (works : startWork (initRing call ring).2 = some next) :
    SizingSound call.blockSize call.capacity next ↔
      400 ≤ call.blockSize ∧ call.blockSize < averagePacketSize * 2 ^ 30 ∧
        slotsFor call.blockSize ≤ (2 ^ 27 - 1) * initCapacity call.capacity := by
  have sized := sizedBy_of_accepted first accepted works
  have bounded : call.blockSize < averagePacketSize * 2 ^ 30 ↔
      call.blockSize / averagePacketSize < 2 ^ 30 := by
    rw [Nat.div_lt_iff_lt_mul (by decide), Nat.mul_comm]
  by_cases low : Nat.log2 (call.blockSize / averagePacketSize) < 30
  · obtain ⟨slots, poolSize, blockCount⟩ := sized.slots_of_low wide low
    rw [sizingSound_of_low_iff slots poolSize blockCount sized.noColumns, bounded]
    have below : call.blockSize / averagePacketSize < 2 ^ 30 :=
      Nat.lt_of_lt_of_le Nat.lt_log2_self (Nat.pow_le_pow_right (by decide) low)
    simp only [below, true_and]
  · have small := sized.slots_of_high wide refuses (by omega)
    constructor
    · intro sound
      have enough := sound.enough
      omega
    · rintro ⟨-, below, -⟩
      have nonzero : call.blockSize / averagePacketSize ≠ 0 := by
        intro zero
        simp [zero] at low
      exact absurd ((Nat.log2_lt nonzero).mpr (bounded.mp below)) low

/-- A call of a module named `A` for a ring of a given block size and capacity. -/
def sizingCall (blockSize capacity : Nat) : InitCall where
  create := grantPossible
  moduleName := some nameA
  blockSize := blockSize
  capacity := capacity
  reset := false

/-- The condition is met by a block of one megabyte with the default capacity, which lies inside of
all three bounds. -/
theorem sizing_sound_iff_megabyte :
    ∃ next, startWork (initRing (sizingCall 1048576 0) Ring.zero).2 = some next ∧
      (SizingSound 1048576 0 next ↔
        400 ≤ 1048576 ∧ 1048576 < averagePacketSize * 2 ^ 30 ∧
          slotsFor 1048576 ≤ (2 ^ 27 - 1) * initCapacity 0) := by
  have completes : (startWork (initRing (sizingCall 1048576 0) Ring.zero).2).isSome = true := by
    decide
  have works := (Option.some_get completes).symm
  have refuses : ∀ region size, 2 ^ 63 ≤ size →
      (sizingCall 1048576 0).create region size = none := by
    intro region size large
    exact if_neg (by omega)
  exact ⟨_, works, sizing_sound_iff (sizingCall 1048576 0) Ring.zero _ 0 (by decide) refuses
    (.inr rfl) (by decide) works⟩

/-- A block of 8 GiB with one slot in each meta block has 2^27 slots and as many meta
blocks, whose array is requested with zero bytes. -/
theorem sizing_truncates_block_array :
    (initRing (sizingCall (8 * 2 ^ 30) 1) Ring.zero).1 = some 0 ∧
      ∃ next, startWork (initRing (sizingCall (8 * 2 ^ 30) 1) Ring.zero).2 = some next ∧
        ¬ SizingSound (8 * 2 ^ 30) 1 next := by
  refine ⟨by decide, ?_⟩
  obtain ⟨next, works, checked⟩ := (Option.any_eq_true _ _).mp
    (show (startWork (initRing (sizingCall (8 * 2 ^ 30) 1) Ring.zero).2).any (fun next =>
      decide (getMetaBlkCount next = 2 ^ 27 ∧ metaBlockSize next.global = 0)) = true by decide)
  obtain ⟨blocks, request⟩ := of_decide_eq_true checked
  refine ⟨next, works, fun sound => ?_⟩
  have requested := sound.blockRequest
  rw [blocks, request] at requested
  exact absurd requested (by decide)

end OpenTaker

import OpenTaker.RingViews
import OpenTaker.Runs

/-!
# Rings do not share memory

Through any number of calls of `InitRing`, successful or not, with resets and uses of the rings in
between, two views are the same memory of the same ring, or they do not overlap. This needs
rings that are sized the same way each time: the map answers with the memory of the first request,
and a ring that is reset and sized larger would write behind it.
-/

namespace OpenTaker

open NamedMemory

variable {names : List UInt8 → Prop} {sizes : List UInt8 → RingSizes}

/-! ## The map while a ring is set up -/

/-- The map is well placed, and the memories of the rings have the bytes their sizes ask for. -/
structure MapPlaced (names : List UInt8 → Prop) (sizes : List UInt8 → RingSizes)
    (addrMap : AddrMap) : Prop where
  placed : WellPlaced addrMap
  bytes : ∀ name, names name → ∀ region block, find addrMap (shareName name region) = some block →
    block.bytes = allocSize ((sizes name).global.request region)

/-- Setting up a ring keeps the entries and adds some for the ring only. -/
structure Grows (name : List UInt8) (regions : Region → Prop) (addrMap next : AddrMap) : Prop where
  keeps : ∀ key block, find addrMap key = some block → find next key = some block
  only : ∀ key, (∀ region, regions region → key ≠ shareName name region) →
    find next key = find addrMap key

namespace Grows

variable {name : List UInt8} {regions : Region → Prop} {addrMap next last : AddrMap}

/-- A map that does not change has grown by nothing. -/
theorem refl : Grows name regions addrMap addrMap := ⟨fun _ _ found => found, fun _ _ => rfl⟩

/-- Two growths for one ring make one, as an attach maps its memories one after the other. -/
theorem trans (first : Grows name regions addrMap next) (second : Grows name regions next last) :
    Grows name regions addrMap last where
  keeps key block found := second.keeps key block (first.keeps key block found)
  only key others := (second.only key others).trans (first.only key others)

/-- What grows by some of the regions grows by more of them as well. -/
theorem mono {more : Region → Prop} (grows : Grows name regions addrMap next)
    (includes : ∀ region, regions region → more region) : Grows name more addrMap next where
  keeps := grows.keeps
  only key others := grows.only key fun region member => others region (includes region member)

end Grows

namespace RingCall

variable (call : RingCall)

/-- Asking for a memory of the size that the ring's arguments give. -/
theorem create_placed (separate : Separate names) (used : names call.ringName)
    (sound : Sound call.alloc) {addrMap : AddrMap} (map : MapPlaced names sizes addrMap)
    (region : Region) (size : Nat) (asks : size = (sizes call.ringName).global.request region) :
    MapPlaced names sizes (call.create region size addrMap).2 ∧
      Grows call.ringName (· = region) addrMap (call.create region size addrMap).2 ∧
      ∃ block, find (call.create region size addrMap).2 (shareName call.ringName region) =
        some block ∧ block.addr = (call.create region size addrMap).1 := by
  have grows : Grows call.ringName (· = region) addrMap (call.create region size addrMap).2 :=
    { keeps := fun key block found => request_keeps call.alloc addrMap _ _ found
      only := fun key others => request_other call.alloc addrMap _ _ (others region rfl) }
  obtain ⟨block, found, answered, known⟩ :=
    request_found call.alloc addrMap (shareName call.ringName region) (allocSize size)
  have rightBytes : block.bytes = allocSize ((sizes call.ringName).global.request region) := by
    rcases known with before | ⟨-, new⟩
    · exact map.bytes _ used region block before
    · rw [new, asks]
  refine ⟨⟨map.placed.request sound _ _, ?_⟩, grows, block, found, answered⟩
  intro name isUsed other second foundSecond
  by_cases same : shareName name other = shareName call.ringName region
  · obtain ⟨rfl, rfl⟩ := separate.shareName_inj isUsed used same
    cases found.symm.trans foundSecond
    exact rightBytes
  · rw [grows.only _ (fun _ isRegion => isRegion ▸ same)] at foundSecond
    exact map.bytes name isUsed other second foundSecond

end RingCall

/-! ## One ring -/

/-- The views of a ring's modules are what the map keeps for the ring. -/
def ViewsPlaced (addrMap : AddrMap) (name : List UInt8) (ring : Ring) : Prop :=
  ∀ id region seen, (ring.global.moduleInfo id).view region = some seen →
    ∃ block, find addrMap (shareName name region) = some block ∧ block.addr = some seen

/-- The ring is sized as it always is, and its views are right. -/
structure RingPlaced (sizes : RingSizes) (addrMap : AddrMap) (name : List UInt8) (ring : Ring) :
    Prop where
  header : SizedAs sizes ring.global
  views : ViewsPlaced addrMap name ring

/-- A ring stays in its place while the map grows, for itself or for another ring, as no entry is
ever moved. -/
theorem RingPlaced.grows {ringSizes : RingSizes} {addrMap next : AddrMap} {name other : List UInt8}
    {regions : Region → Prop} {ring : Ring} (ringPlaced : RingPlaced ringSizes addrMap name ring)
    (grows : Grows other regions addrMap next) : RingPlaced ringSizes next name ring where
  header := ringPlaced.header
  views id region seen isSeen := by
    obtain ⟨block, found, at_seen⟩ := ringPlaced.views id region seen isSeen
    exact ⟨block, grows.keeps _ _ found, at_seen⟩

/-- What holds between the three memories that are mapped one after the other. -/
structure Attaching (names : List UInt8 → Prop) (sizes : List UInt8 → RingSizes)
    (name : List UInt8) (start : AddrMap) (ring : Ring) (addrMap : AddrMap) : Prop where
  map : MapPlaced names sizes addrMap
  sized : SameSizes (sizes name).global ring.global
  views : ViewsPlaced addrMap name ring
  grown : Grows name (· ≠ .global) start addrMap

namespace RingCall

variable (call : RingCall)

/-- One memory is asked for and its view written, or refused. -/
theorem attaching_map (separate : Separate names) (used : names call.ringName)
    (sound : Sound call.alloc) {start addrMap : AddrMap} {ring next : Ring}
    (attaching : Attaching names sizes call.ringName start ring addrMap) {region : Region}
    (notHeader : region ≠ .global) (size : Nat) (asks : size = ring.global.request region)
    (maps : MapsView region (call.create region size addrMap).1 ring next) :
    Attaching names sizes call.ringName start next (call.create region size addrMap).2 := by
  obtain ⟨map, grows, block, found, answered⟩ := call.create_placed separate used sound
    attaching.map region size (asks.trans (attaching.sized.request region))
  refine ⟨map, attaching.sized.trans maps.sizes, ?_,
    attaching.grown.trans (grows.mono fun _ isRegion => isRegion ▸ notHeader)⟩
  intro id other seen isSeen
  rcases maps.views id other seen isSeen with before | ⟨rfl, given⟩
  · obtain ⟨block, foundBefore, at_seen⟩ := attaching.views id other seen before
    exact ⟨block, grows.keeps _ _ foundBefore, at_seen⟩
  · exact ⟨block, found, answered.trans given⟩

/-- Mapping the three memories places what it maps, however far it gets: a refused one ends the call
and changes nothing more. -/
theorem attach_placed (separate : Separate names) (used : names call.ringName)
    (sound : Sound call.alloc) {start : AddrMap} {ring : Ring}
    (attaching : Attaching names sizes call.ringName start ring start) (name : CString)
    (index : Nat) (created : Bool) :
    Attaching names sizes call.ringName start (call.attach name index created ring start).2.1
      (call.attach name index created ring start).2.2 := by
  have first := call.attaching_map separate used sound attaching (by simp)
    (u64 (ring.global.blockSize + pageSize)) (by simp only [Global.request])
    (mapBlockView_maps (call.given _) name index ring)
  unfold attach
  generalize call.create .block (u64 (ring.global.blockSize + pageSize)) start = asked at first ⊢
  obtain ⟨addr, addrMap⟩ := asked
  dsimp only at first ⊢
  generalize mapBlockView (call.given addr) name index ring = stage at first ⊢
  obtain ⟨_ | _, afterBlock⟩ := stage
  · exact first
  have second := call.attaching_map separate used sound first (by simp)
    afterBlock.global.metaPoolSize rfl (mapMetaView_maps (call.given _) index afterBlock)
  dsimp only at second ⊢
  generalize call.create .metaPool afterBlock.global.metaPoolSize addrMap = asked at second ⊢
  obtain ⟨addr, addrMap⟩ := asked
  dsimp only at second ⊢
  generalize mapMetaView (call.given addr) index afterBlock = stage at second ⊢
  obtain ⟨_ | _, afterMeta⟩ := stage
  · exact second
  have third := call.attaching_map separate used sound second (by simp)
    (metaBlockSize afterMeta.global) rfl (mapMetaBlkView_maps (call.given _) index afterMeta)
  dsimp only at third ⊢
  generalize call.create .metaBlk (metaBlockSize afterMeta.global) addrMap = asked at third ⊢
  obtain ⟨addr, addrMap⟩ := asked
  dsimp only at third ⊢
  generalize mapMetaBlkView (call.given addr) index afterMeta = stage at third ⊢
  obtain ⟨_ | _, afterBlk⟩ := stage
  · exact third
  · exact ⟨third.map, ⟨third.sized.blockSize, third.sized.poolSize, third.sized.blockCount⟩,
      third.views, third.grown⟩

end RingCall

/-! ## Uses of a ring -/

/-- A step that keeps the sizes and the views of all modules maps no view. -/
theorem MapsView.same {ring next : Ring} (sizes : SameSizes ring.global next.global)
    (registered : next.global.index = ring.global.index)
    (views : ∀ id region, (next.global.moduleInfo id).view region =
      (ring.global.moduleInfo id).view region) : MapsView .global none ring next where
  sizes := sizes
  registered := registered
  views id region seen isSeen := .inl (by rw [← views, isSeen])

/-- The cursor of a module stands beside its views. -/
theorem setBlkPtr_view (ring : Ring) (id position other : Nat) (region : Region) :
    ((ring.setBlkPtr id position).global.moduleInfo other).view region =
      (ring.global.moduleInfo other).view region := by
  by_cases here : other = id
  · subst here
    cases region <;> simp [Ring.setBlkPtr, ModuleInfo.view]
  · simp [Ring.setBlkPtr, Ring.setModuleInfo, here]

/-- No call but a reset writes a size or a view. -/
theorem RingUse.apply_keeps (ring : Ring) (use : RingUse) (noReset : use ≠ .resetTheRing) :
    MapsView .global none ring (use.apply ring) := by
  have unchanged : MapsView .global none ring ring := .same .refl rfl fun _ _ => rfl
  have sameHeader : ∀ next : Ring, SameSizes ring.global next.global →
      next.global.index = ring.global.index → next.global.moduleInfo = ring.global.moduleInfo →
      MapsView .global none ring next :=
    fun next same registered table => .same same registered fun id region => by rw [table]
  cases use with
  | resetTheRing => exact absurd rfl noReset
  | stopRing => exact sameHeader _ ⟨rfl, rfl, rfl⟩ rfl rfl
  | startWork =>
    cases works : OpenTaker.startWork ring with
    | none => simpa [RingUse.apply, works] using unchanged
    | some next =>
      obtain ⟨-, metaSize, metaCount, rfl⟩ := startWork_some works
      simpa [RingUse.apply, works] using
        sameHeader (ring.setMetaCount metaSize metaCount) ⟨rfl, rfl, rfl⟩ rfl rfl
  | getEmptyMetaBlk =>
    simp only [RingUse.apply, OpenTaker.getEmptyMetaBlk]
    split
    · rename_i position claimed taken
      rw [(claimPass_taken taken).written]
      exact sameHeader _ ⟨rfl, rfl, rfl⟩ rfl rfl
    · exact unchanged
  | publish position size => exact sameHeader _ ⟨rfl, rfl, rfl⟩ rfl rfl
  | move2NextMetaBlk id count =>
    simp only [RingUse.apply, OpenTaker.move2NextMetaBlk]
    split
    · exact unchanged
    · have moved : ∀ position, MapsView .global none ring (ring.setBlkPtr id position) :=
        fun position => .same ⟨rfl, rfl, rfl⟩ rfl (setBlkPtr_view ring id position)
      split <;> split
      all_goals first | exact moved _ | exact unchanged
  | freeFullMetaBlk position => exact sameHeader _ ⟨rfl, rfl, rfl⟩ rfl rfl

/-- A cleared header has no views, so that a module sees nothing until it attaches again. -/
theorem zero_views (id : Nat) (region : Region) : (Global.zero.moduleInfo id).view region = none := by
  cases region <;> rfl

/-- A ring stays in its place through every call. -/
theorem RingPlaced.use {ringSizes : RingSizes} {addrMap : AddrMap} {name : List UInt8} {ring : Ring}
    (ringPlaced : RingPlaced ringSizes addrMap name ring) (use : RingUse) :
    RingPlaced ringSizes addrMap name (use.apply ring) := by
  by_cases reset : use = .resetTheRing
  · subst reset
    refine ⟨.cleared rfl .refl, ?_⟩
    intro id region seen isSeen
    simp [RingUse.apply, zero_views] at isSeen
  · have keeps := use.apply_keeps ring reset
    constructor
    · cases ringPlaced.header with
      | cleared noModule zeros =>
        exact .cleared (keeps.registered.trans noModule) (zeros.trans keeps.sizes)
      | sized same => exact .sized (same.trans keeps.sizes)
    · intro id region seen isSeen
      rcases keeps.views id region seen isSeen with before | ⟨-, never⟩
      · exact ringPlaced.views id region seen before
      · cases never

/-! ## The process -/

/-- Every opened ring of the process is in its place. -/
structure ProcessPlaced (names : List UInt8 → Prop) (sizes : List UInt8 → RingSizes)
    (process : RingProcess) : Prop where
  map : MapPlaced names sizes process.addrMap
  rings : ∀ name, names name → (process.handler name).isSome = true →
    RingPlaced (sizes name) process.addrMap name (process.rings name)

/-- What is asked of a call of `InitRing`. A ring is sized with its own arguments or, without a
block size, is joined when it has been sized; memory that is new is cleared, by the call or by
the system, and the module table has an entry left. -/
structure Admissible (names : List UInt8 → Prop) (sizes : List UInt8 → RingSizes)
    (process : RingProcess) (call : RingCall) : Prop where
  used : names call.ringName
  sound : Sound call.alloc
  sizedAs : call.blockSize ≠ 0 → sizes call.ringName = ⟨call.blockSize, call.capacity⟩
  joins : call.blockSize = 0 →
    call.reset = false ∧ (process.rings call.ringName).global.index ≠ 0
  clears : process.handler call.ringName = none →
    call.reset = true ∨ (process.rings call.ringName).global.index = 0
  room : (process.rings call.ringName).global.index < maxModuleCount

/-- The steps of a process: any call on an opened ring, and admissible calls of `InitRing`. -/
def Behaved (names : List UInt8 → Prop) (sizes : List UInt8 → RingSizes) (process : RingProcess) :
    RingProcess.Step → Prop
  | .init call => Admissible names sizes process call
  | .use name _ => names name

namespace ProcessPlaced

variable {process : RingProcess} {call : RingCall}

/-- The ring that `InitRing` opens is sized, whatever has been in its memory. -/
theorem opened_sized (placed : ProcessPlaced names sizes process)
    (admissible : Admissible names sizes process call) (addr : Option Nat)
    {regions : Region → Prop} {addrMap : AddrMap}
    (grows : Grows call.ringName regions process.addrMap addrMap) :
    SameSizes (sizes call.ringName).global
        (openRing (call.given addr) (process.rings call.ringName)).global ∧
      ViewsPlaced addrMap call.ringName
        (openRing (call.given addr) (process.rings call.ringName)) := by
  have written : call.blockSize ≠ 0 → ∀ ring : Ring,
      SameSizes (sizes call.ringName).global
          { ring with global := initGlobal call.blockSize call.capacity : Ring }.global ∧
        ViewsPlaced addrMap call.ringName
          { ring with global := initGlobal call.blockSize call.capacity } := by
    intro sizing ring
    rw [admissible.sizedAs sizing]
    refine ⟨.refl, ?_⟩
    intro id region seen isSeen
    exact absurd isSeen (by simpa [initGlobal] using (zero_views id region).symm ▸ (by simp))
  by_cases reset : call.reset = true
  · have sizing : call.blockSize ≠ 0 := by
      intro none
      simp [(admissible.joins none).1] at reset
    simpa [openRing, RingCall.given, reset, sizing, Global.zero] using written sizing _
  · by_cases noModule : (process.rings call.ringName).global.index = 0
    · have sizing : call.blockSize ≠ 0 := fun none => (admissible.joins none).2 noModule
      simpa [openRing, RingCall.given, reset, sizing, noModule] using written sizing _
    · have known : (process.handler call.ringName).isSome = true := by
        cases handled : process.handler call.ringName with
        | some addr => rfl
        | none => exact absurd (admissible.clears handled) (by simp [reset, noModule])
      have before := (placed.rings _ admissible.used known).grows grows
      have same : openRing (call.given addr) (process.rings call.ringName) =
          process.rings call.ringName := by
        simp [openRing, RingCall.given, reset, noModule]
      rw [same]
      refine ⟨?_, before.views⟩
      cases before.header with
      | cleared none zeros => exact absurd none noModule
      | sized sizes => exact sizes

/-- One ring of the process gets a new state and its map new entries. -/
theorem setRing (placed : ProcessPlaced names sizes process) (separate : Separate names)
    {name : List UInt8} (used : names name) {addrMap : AddrMap}
    (map : MapPlaced names sizes addrMap)
    (grows : Grows name (fun _ => True) process.addrMap addrMap) {ring : Ring}
    (ringPlaced : (process.setRing addrMap name ring).handler name ≠ none →
      RingPlaced (sizes name) addrMap name ring) :
    ProcessPlaced names sizes (process.setRing addrMap name ring) where
  map := map
  rings other usedOther handled := by
    by_cases here : other = name
    · subst here
      simpa [RingProcess.setRing] using ringPlaced (Option.isSome_iff_ne_none.mp handled)
    · have sameHandler :
          (process.setRing addrMap name ring).handler other = process.handler other := by
        rw [RingProcess.handler, RingProcess.handler]
        refine congrArg (Option.bind · Block.addr) (grows.only _ ?_)
        exact fun region _ same => here (separate.shareName_inj usedOther used same).1
      rw [sameHandler] at handled
      simpa [RingProcess.setRing, here] using (placed.rings other usedOther handled).grows grows

/-- A call of `InitRing`, whether it succeeds or not, keeps every ring in its place. -/
theorem initRing (placed : ProcessPlaced names sizes process) (separate : Separate names)
    (admissible : Admissible names sizes process call) :
    ProcessPlaced names sizes (process.initRing call).2 := by
  obtain ⟨map, grows, block, found, answered⟩ := call.create_placed separate admissible.used
    admissible.sound placed.map .global sizeofGlobal rfl
  have grown : Grows call.ringName (fun _ => True) process.addrMap _ :=
    grows.mono fun _ _ => trivial
  unfold RingProcess.initRing
  cases asked : call.create .global sizeofGlobal process.addrMap with
  | mk addr addrMap =>
  rw [asked] at map grows grown found answered
  cases addr with
  | none =>
    have noChange : { process with addrMap := addrMap : RingProcess } =
        process.setRing addrMap call.ringName (process.rings call.ringName) := by
      simp [RingProcess.setRing]
    dsimp only
    rw [noChange]
    refine placed.setRing separate admissible.used map grown fun handled => absurd ?_ handled
    simp [RingProcess.handler, RingProcess.setRing, found, answered]
  | some addr =>
    obtain ⟨sized, views⟩ := placed.opened_sized admissible (some addr) grows
    dsimp only
    generalize openRing (call.given (some addr)) (process.rings call.ringName) = ring at sized views ⊢
    cases call.moduleName with
    | none =>
      exact placed.setRing separate admissible.used map grown fun _ => ⟨.sized sized, views⟩
    | some name =>
      have attached : ∀ index created,
          ProcessPlaced names sizes
            (process.setRing (call.attach name index created ring addrMap).2.2 call.ringName
              (call.attach name index created ring addrMap).2.1) := by
        intro index created
        have attaching := call.attach_placed separate admissible.used admissible.sound
          ⟨map, sized, views, .refl⟩ name index created
        exact placed.setRing separate admissible.used attaching.map
          (grown.trans (attaching.grown.mono fun _ _ => trivial))
          fun _ => ⟨.sized attaching.sized, attaching.views⟩
      dsimp only
      split
      · rename_i index isFound
        exact attached index false
      · rename_i absent
        exact attached ring.global.index true

/-- Each step of a process keeps every ring in its place. -/
theorem step (separate : Separate names) (placed : ProcessPlaced names sizes process)
    {label : RingProcess.Step} (behaved : Behaved names sizes process label) {next : RingProcess}
    (stepped : process.step label = some next) : ProcessPlaced names sizes next := by
  cases label with
  | init call =>
    cases stepped
    exact placed.initRing separate behaved
  | use name use =>
    simp only [RingProcess.step, Option.ite_none_right_eq_some, Option.some.injEq] at stepped
    obtain ⟨handled, rfl⟩ := stepped
    exact placed.setRing separate behaved placed.map .refl fun _ =>
      (placed.rings name behaved handled).use use

/-- A process without rings has everything in its place. -/
theorem start (rings : List UInt8 → Ring) : ProcessPlaced names sizes ⟨[], rings⟩ where
  map := ⟨wellPlaced_nil, fun _ _ _ _ found => by cases found⟩
  rings _ _ handled := by cases handled

end ProcessPlaced

/-- Where a memory of a ring is: the header at the handler, the others where a module sees them. -/
def RingProcess.sees (process : RingProcess) (name : List UInt8) (id : Nat) :
    Region → Option Nat
  | .global => process.handler name
  | region => ((process.rings name).global.moduleInfo id).view region

/-- A call for a ring whose memory is given one after the other. -/
def plainCall (globalName : Option CString) (moduleName : CString) (blockSize : Nat) : RingCall where
  alloc := fun addrMap _ => some (behind addrMap 4096)
  globalName := globalName
  moduleName := some moduleName
  blockSize := blockSize
  capacity := 0
  reset := false

end OpenTaker

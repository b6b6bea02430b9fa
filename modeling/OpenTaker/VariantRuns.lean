import OpenTaker.Variants

/-!
# Variants over runs

A variant is represented when its tag and its union fit: a string and a block have memory of
their own, which no other variant has. Every operation keeps this but for two: `clear` of
anything that is not empty already, and the assignment of a pointer into the variant's own
memory, which is freed before it is read.
-/

namespace OpenTaker

namespace Variant

/-- The variant has this memory, which its destructor is to free. -/
def Owns (variant : Variant) (address : Nat) : Prop :=
  variant = ⟨.string, .strValue (some address)⟩ ∨ ∃ size, variant = ⟨.block, .blkValue size (some address)⟩

end Variant

namespace VariantHeap

/-- Whoever calls has constructed the variants that are used, constructs none twice, and gives
NULL or a pointer that can be read. -/
def Valid (heap : VariantHeap) : VariantStep → Prop
  | .new name | .newScalar name _ => heap.variants name = none
  | .newString name str =>
      heap.variants name = none ∧ (str ≠ .null → (heap.memory.readString str).isSome)
  | .newBlock name buf len =>
      heap.variants name = none ∧ (buf ≠ .null → (heap.memory.readBytes len.toNat buf).isSome)
  | .newCopy name source => heap.variants name = none ∧ (heap.variants source).isSome
  | .assign name source => (heap.variants name).isSome ∧ (heap.variants source).isSome
  | .assignString name str =>
      (heap.variants name).isSome ∧ (str ≠ .null → (heap.memory.readString str).isSome)
  | .setValue name buf len =>
      (heap.variants name).isSome ∧ (buf ≠ .null → (heap.memory.readBytes len.toNat buf).isSome)
  | .assignScalar name _ | .clear name | .destroy name => (heap.variants name).isSome

/-- Whether an operation may be called can be decided on the heap, so that runs can be evaluated. -/
instance decideValid (heap : VariantHeap) : ∀ operation, Decidable (heap.Valid operation)
  | .new _ | .newScalar _ _ => inferInstanceAs (Decidable (_ = _))
  | .newString _ _ | .newBlock _ _ _ => inferInstanceAs (Decidable (_ ∧ (_ → _)))
  | .newCopy _ _ | .assign _ _ => inferInstanceAs (Decidable (_ ∧ _))
  | .assignString _ _ | .setValue _ _ _ => inferInstanceAs (Decidable (_ ∧ (_ → _)))
  | .assignScalar _ _ | .clear _ | .destroy _ => inferInstanceAs (Decidable (_ = true))

/-- Strings are not NULL, blocks have buffers of their sizes, and `size()`, `operator==` and
copying are defined. -/
structure Proper (heap : VariantHeap) : Prop where
  string : ∀ name variant, heap.variants name = some variant → variant.type = .string →
    ∃ address text, variant.value.readStr = some (some address) ∧
      heap.memory.readString (.inside address 0) = some text
  block : ∀ name variant, heap.variants name = some variant → variant.type = .block →
    ∃ size address content, variant.value.readBlk = some (size, some address) ∧
      heap.memory.blocks address = some content ∧ content.length = size.toNat
  sized : ∀ name variant, heap.variants name = some variant → (heap.memory.size variant).isSome
  compared : ∀ first second variant other, heap.variants first = some variant →
    heap.variants second = some other → (heap.memory.eq variant other).isSome
  copied : ∀ name source, (heap.variants source).isSome →
    (heap.step (if (heap.variants name).isSome then .assign name source else .newCopy name source)).isSome

/-- The operation is defined and leaves proper variants, and what `clear` leaves is equal to
a default-constructed variant and has size 0. -/
def Sound (heap : VariantHeap) (operation : VariantStep) : Prop :=
  ∃ next, heap.step operation = some next ∧ Proper next ∧
    ∀ name, operation = .clear name → ∃ variant, next.variants name = some variant ∧
      next.memory.eq variant .new = some true ∧ next.memory.size variant = some 0

/-- Only empty variants are cleared, and a pointer that is assigned does not point into the
memory of the variant. -/
def Careful (heap : VariantHeap) : VariantStep → Prop
  | .clear name => ∀ variant, heap.variants name = some variant → variant.type = .null
  | .assignString name pointer | .setValue name pointer _ =>
      ∀ variant, heap.variants name = some variant → ∀ address offset, pointer = .inside address offset →
        ¬ variant.Owns address
  | _ => True

end VariantHeap

/-! ## What fits -/

/-- The tag and the union fit, and the memory of a string or a block is there. -/
inductive Fit (memory : Allocations) : Variant → Prop where
  | null : Fit memory .new
  | scalar (scalar : Scalar) : Fit memory (.ofScalar scalar)
  | string (address : Nat) (content : List UInt8) (allocated : memory.blocks address = some content)
      (terminated : 0 ∈ content) : Fit memory ⟨.string, .strValue (some address)⟩
  | block (size : UInt32) (address : Nat) (content : List UInt8)
      (allocated : memory.blocks address = some content) (whole : content.length = size.toNat) :
      Fit memory ⟨.block, .blkValue size (some address)⟩

variable {memory : Allocations} {variant other : Variant}

/-- A new variant has no memory of its own, and its destructor frees nothing. -/
theorem not_owns_new (address : Nat) : ¬ Variant.new.Owns address := by simp [Variant.Owns, Variant.new]

/-- Nor has a scalar, whose value is in the variant itself. -/
theorem not_owns_ofScalar (scalar : Scalar) (address : Nat) : ¬ (Variant.ofScalar scalar).Owns address := by
  cases scalar <;> simp [Variant.Owns, Variant.ofScalar]

/-- A string owns the one block its pointer names. -/
theorem owns_string {address owned : Nat} :
    Variant.Owns ⟨.string, .strValue (some address)⟩ owned ↔ owned = address := by
  simp [Variant.Owns, eq_comm]

/-- A block of bytes owns the one its pointer names, whatever its size says. -/
theorem owns_block {size : UInt32} {address owned : Nat} :
    Variant.Owns ⟨.block, .blkValue size (some address)⟩ owned ↔ owned = address := by
  simp [Variant.Owns, eq_comm]

/-- What a fitting variant owns was allocated, so that the next allocation cannot be the same block. -/
theorem Fit.allocated (fit : Fit memory variant) {address : Nat} (owns : variant.Owns address) :
    address < memory.count := by
  cases fit with
  | null => exact absurd owns (not_owns_new address)
  | scalar scalar => exact absurd owns (not_owns_ofScalar scalar address)
  | string owned content allocated =>
    rw [owns_string] at owns
    exact owns ▸ Allocations.lt_count allocated
  | block size owned content allocated =>
    rw [owns_block] at owns
    exact owns ▸ Allocations.lt_count allocated

/-- A variant still fits when its own memory is unchanged. -/
theorem Fit.congr (fit : Fit memory variant) {after : Allocations}
    (same : ∀ address content, variant.Owns address → memory.blocks address = some content →
      after.blocks address = some content) : Fit after variant := by
  cases fit with
  | null => exact .null
  | scalar scalar => exact .scalar scalar
  | string address content allocated terminated =>
    exact .string address content (same address content (owns_string.mpr rfl) allocated) terminated
  | block size address content allocated whole =>
    exact .block size address content (same address content (owns_block.mpr rfl) allocated) whole

/-- What a string reads is the text at its pointer. -/
theorem readString_string {address : Nat} {content : List UInt8}
    (allocated : memory.blocks address = some content) (terminated : 0 ∈ content) :
    memory.readString (.inside address 0) = some (CStrings.cString content) := by
  simp [Allocations.readString, allocated, terminated]

/-- What a block reads is its bytes, as many as its size says. -/
theorem readBytes_block {size : UInt32} {address : Nat} {content : List UInt8}
    (allocated : memory.blocks address = some content) (whole : content.length = size.toNat) :
    memory.readBytes size.toNat (.inside address 0) = some content := by
  simp [Allocations.readBytes, allocated, ← whole]

/-- Variants of two types are not equal, whatever their values are. -/
theorem eq_of_type (different : variant.type ≠ other.type) : memory.eq variant other = some false :=
  if_pos different

/-- The size of a fitting variant can be read. For a string that takes its terminator. -/
theorem Fit.sized (fit : Fit memory variant) : (memory.size variant).isSome := by
  cases fit with
  | null => rfl
  | scalar scalar => cases scalar <;> rfl
  | string address content allocated terminated =>
    simp [Allocations.size, VarValue.readStr, Pointer.ofAddress, readString_string allocated terminated]
  | block => rfl

/-- A variant with the tag of a string has one. -/
theorem Fit.of_string (fit : Fit memory variant) (isString : variant.type = .string) :
    ∃ address content, variant = ⟨.string, .strValue (some address)⟩ ∧
      memory.blocks address = some content ∧ 0 ∈ content := by
  cases fit with
  | null => cases isString
  | scalar scalar => cases scalar <;> cases isString
  | string address content allocated terminated => exact ⟨address, content, rfl, allocated, terminated⟩
  | block => cases isString

/-- A fitting variant of type block has its bytes allocated, and as many of them as its size says. -/
theorem Fit.of_block (fit : Fit memory variant) (isBlock : variant.type = .block) :
    ∃ size address content, variant = ⟨.block, .blkValue size (some address)⟩ ∧
      memory.blocks address = some content ∧ content.length = size.toNat := by
  cases fit with
  | null => cases isBlock
  | scalar scalar => cases scalar <;> cases isBlock
  | string => cases isBlock
  | block size address content allocated whole => exact ⟨size, address, content, rfl, allocated, whole⟩

/-- Two variants that fit can be compared, as what the comparison reads is there. -/
theorem Fit.compared (fit : Fit memory variant) (otherFit : Fit memory other) :
    (memory.eq variant other).isSome := by
  by_cases sameType : variant.type = other.type
  · cases fit with
    | null =>
      rw [Allocations.eq, if_neg (not_not.mpr sameType)]
      rfl
    | scalar scalar =>
      cases otherFit with
      | null => cases scalar <;> cases sameType
      | scalar otherScalar => cases scalar <;> cases otherScalar <;> rfl
      | string => cases scalar <;> cases sameType
      | block => cases scalar <;> cases sameType
    | string address content allocated terminated =>
      obtain ⟨otherAddress, otherContent, rfl, otherAllocated, otherTerminated⟩ := otherFit.of_string sameType.symm
      simp [Allocations.eq, Allocations.same, VarValue.readStr, Pointer.ofAddress,
        readString_string allocated terminated, readString_string otherAllocated otherTerminated]
    | block size address content allocated whole =>
      obtain ⟨otherSize, otherAddress, otherContent, rfl, otherAllocated, otherWhole⟩ :=
        otherFit.of_block sameType.symm
      by_cases sameSize : size = otherSize
      · subst sameSize
        simp [Allocations.eq, Allocations.same, VarValue.readBlk, Pointer.ofAddress,
          readBytes_block allocated whole, readBytes_block otherAllocated otherWhole]
      · simp [Allocations.eq, VarValue.readBlk, sameSize]
  · rw [eq_of_type sameType]
    rfl

/-! ## What holds of all variants -/

namespace VariantHeap

/-- These variants fit into the memory and share none of its blocks. -/
structure RepOn (live : Nat → Prop) (heap : VariantHeap) : Prop where
  fit : ∀ name variant, live name → heap.variants name = some variant → Fit heap.memory variant
  separate : ∀ first second variant other address, live first → live second →
    heap.variants first = some variant → heap.variants second = some other →
      variant.Owns address → other.Owns address → first = second

/-- All variants of the heap fit into the memory and share none of its blocks. -/
def Rep (heap : VariantHeap) : Prop := heap.RepOn fun _ => True

variable {heap : VariantHeap} {name : Nat} {variant : Variant}

/-- Without variants and blocks there is nothing to represent. -/
theorem rep_empty : Rep empty where
  fit := by
    intro name variant live stored
    cases stored
  separate := by
    intro first second variant other address live liveSecond stored
    cases stored

/-- The invariant for fewer variants is weaker. The operations on one variant work with the
invariant of the others. -/
theorem RepOn.mono {live fewer : Nat → Prop} (rep : heap.RepOn live) (within : ∀ name, fewer name → live name) :
    heap.RepOn fewer where
  fit name variant member := rep.fit name variant (within name member)
  separate first second variant other address member otherMember :=
    rep.separate first second variant other address (within first member) (within second otherMember)

/-- The variant that was put is found under its name. -/
@[simp] theorem put_self (heap : VariantHeap) (name : Nat) (variant : Variant) :
    (heap.put name variant).variants name = some variant := Function.update_self ..

/-- All other variants stay as they were when one of them is stored. -/
theorem put_other {other : Nat} (different : other ≠ name) :
    (heap.put name variant).variants other = heap.variants other := Function.update_of_ne different ..

/-- A variant that fits and whose memory is nobody else's is stored. -/
theorem RepOn.put (rep : heap.RepOn (· ≠ name)) (fit : Fit heap.memory variant)
    (own : ∀ address other otherVariant, variant.Owns address → other ≠ name →
      heap.variants other = some otherVariant → ¬ otherVariant.Owns address) :
    Rep (heap.put name variant) where
  fit := by
    intro other otherVariant live stored
    by_cases same : other = name
    · subst same
      rw [put_self] at stored
      exact Option.some.inj stored ▸ fit
    · rw [put_other same] at stored
      exact rep.fit other otherVariant same stored
  separate := by
    intro first second firstVariant secondVariant address live liveSecond firstStored secondStored firstOwns
      secondOwns
    by_cases sameFirst : first = name <;> by_cases sameSecond : second = name
    · rw [sameFirst, sameSecond]
    · subst sameFirst
      rw [put_self] at firstStored
      rw [put_other sameSecond] at secondStored
      cases firstStored
      exact absurd secondOwns (own address second secondVariant firstOwns sameSecond secondStored)
    · subst sameSecond
      rw [put_self] at secondStored
      rw [put_other sameFirst] at firstStored
      cases secondStored
      exact absurd firstOwns (own address first firstVariant secondOwns sameFirst firstStored)
    · rw [put_other sameFirst] at firstStored
      rw [put_other sameSecond] at secondStored
      exact rep.separate first second firstVariant secondVariant address sameFirst sameSecond firstStored
        secondStored firstOwns secondOwns

/-- A variant that has no memory may be stored where another one was, as there is nothing it could
share. -/
theorem RepOn.put_plain (rep : heap.RepOn (· ≠ name)) (fit : Fit heap.memory variant)
    (plain : ∀ address, ¬ variant.Owns address) : Rep (heap.put name variant) :=
  rep.put fit fun address _ _ owns => absurd owns (plain address)

/-- A block that is allocated belongs to nobody yet, so that the variants that are there stay
represented. -/
theorem RepOn.alloc {live : Nat → Prop} (rep : heap.RepOn live) (content : List UInt8) :
    (heap.alloc content).RepOn live where
  fit name variant member stored :=
    (rep.fit name variant member stored).congr fun _ _ _ allocated => Allocations.alloc_old content allocated
  separate := rep.separate

/-- The memory that is allocated next is nobody's, since those that are owned have been allocated. -/
theorem RepOn.fresh {live : Nat → Prop} (rep : heap.RepOn live) (other : Nat) (otherVariant : Variant)
    (member : live other) (stored : heap.variants other = some otherVariant) :
    ¬ otherVariant.Owns heap.memory.count :=
  fun owns => absurd ((rep.fit other otherVariant member stored).allocated owns) (by omega)

/-- With the others represented, a new string for the name completes the invariant: its block is
fresh and not shared. -/
theorem RepOn.putString (rep : heap.RepOn (· ≠ name)) (text : List UInt8) : Rep (heap.putString name text) := by
  apply (rep.alloc (text ++ [0])).put
  · exact .string _ (text ++ [0]) (Allocations.alloc_new ..) (by simp)
  · intro address other otherVariant owns different stored
    rw [owns_string] at owns
    exact owns ▸ rep.fresh other otherVariant different stored

/-- A new block of bytes does likewise, when it holds as many bytes as its size says. -/
theorem RepOn.putBlock (rep : heap.RepOn (· ≠ name)) (size : UInt32) (bytes : List UInt8)
    (whole : bytes.length = size.toNat) : Rep (heap.putBlock name size bytes) := by
  apply (rep.alloc bytes).put
  · exact .block size _ bytes (Allocations.alloc_new ..) whole
  · intro address other otherVariant owns different stored
    rw [owns_block] at owns
    exact owns ▸ rep.fresh other otherVariant different stored

/-! ## Clearing -/

/-- What `clear` leaves behind: the tag, zeros, and the memory of the others. -/
structure Cleared (heap : VariantHeap) (name : Nat) (variant : Variant) (cleared : VariantHeap) : Prop where
  rep : cleared.RepOn (· ≠ name)
  zeroed : cleared.variants name = some { variant with value := .zeroed }
  others : ∀ other ≠ name, cleared.variants other = heap.variants other
  freed : ∀ address, variant.Owns address → cleared.memory.blocks address = none
  kept : ∀ address, ¬ variant.Owns address → cleared.memory.blocks address = heap.memory.blocks address

/-- The memory of one variant may go, as no other variant has a block of it. -/
theorem Rep.cleared (rep : Rep heap) (stored : heap.variants name = some variant) (memory : Allocations)
    (freed : ∀ address, variant.Owns address → memory.blocks address = none)
    (kept : ∀ address, ¬ variant.Owns address → memory.blocks address = heap.memory.blocks address) :
    Cleared heap name variant ({ heap with memory := memory }.put name { variant with value := .zeroed }) where
  rep := by
    constructor
    · intro other otherVariant different otherStored
      rw [put_other different] at otherStored
      refine (rep.fit other otherVariant trivial otherStored).congr ?_
      intro address content owns allocated
      have notOwns : ¬ variant.Owns address := fun owned =>
        different
          (rep.separate other name otherVariant variant address trivial trivial otherStored stored owns owned)
      exact (kept address notOwns).trans allocated
    · intro first second firstVariant secondVariant address firstDifferent secondDifferent firstStored
        secondStored
      rw [put_other firstDifferent] at firstStored
      rw [put_other secondDifferent] at secondStored
      exact rep.separate first second firstVariant secondVariant address trivial trivial firstStored
        secondStored
  zeroed := put_self ..
  others other different := put_other different
  freed := freed
  kept := kept

/-- `clear` is defined for a variant that fits: what it frees is allocated and its own. -/
theorem Rep.clear (rep : Rep heap) (stored : heap.variants name = some variant) :
    ∃ cleared, heap.clear name = some cleared ∧ Cleared heap name variant cleared := by
  cases rep.fit name variant trivial stored with
  | null =>
    refine ⟨_, ?_, rep.cleared stored heap.memory ?_ fun _ _ => rfl⟩
    · rw [VariantHeap.clear, stored]
      rfl
    · exact fun address owns => absurd owns (not_owns_new address)
  | scalar scalar =>
    refine ⟨_, ?_, rep.cleared stored heap.memory ?_ fun _ _ => rfl⟩
    · rw [VariantHeap.clear, stored]
      cases scalar <;> rfl
    · exact fun address owns => absurd owns (not_owns_ofScalar scalar address)
  | string address content allocated terminated =>
    obtain ⟨memory, free, gone, kept, counted⟩ := Allocations.free_some allocated
    refine ⟨_, ?_, rep.cleared stored memory ?_ ?_⟩
    · simp only [VariantHeap.clear, stored, VarValue.readStr, free, Option.bind_some, bind]
    · exact fun owned owns => owns_string.mp owns ▸ gone
    · exact fun owned notOwns => kept owned fun same => notOwns (owns_string.mpr same)
  | block size address content allocated whole =>
    obtain ⟨memory, free, gone, kept, counted⟩ := Allocations.free_some allocated
    refine ⟨_, ?_, rep.cleared stored memory ?_ ?_⟩
    · simp only [VariantHeap.clear, stored, VarValue.readBlk, free, Option.bind_some, bind]
    · exact fun owned owns => owns_block.mp owns ▸ gone
    · exact fun owned notOwns => kept owned fun same => notOwns (owns_block.mpr same)

/-! ## The operations -/

/-- A constructor makes a variant that owns nothing, over whatever was stored under its name. -/
theorem Rep.construct (rep : Rep heap) (name : Nat) : Rep (heap.construct name) :=
  (rep.mono fun _ _ => trivial).put_plain .null not_owns_new

/-- A scalar takes the place of what the variant had, after `clear` has freed it. -/
theorem Rep.assignScalar (rep : Rep heap) (name : Nat) (scalar : Scalar) :
    Rep (heap.assignScalar name scalar) :=
  (rep.mono fun _ _ => trivial).put_plain (.scalar scalar) (not_owns_ofScalar scalar)

/-- Another variant is copied after this one is cleared; it is not affected by that. -/
theorem Rep.assign (rep : Rep heap) {source : Nat} (constructed : (heap.variants name).isSome)
    (sourceConstructed : (heap.variants source).isSome) :
    ∃ next, heap.assign name source = some next ∧ Rep next := by
  by_cases same : name = source
  · exact ⟨heap, if_pos same, rep⟩
  · obtain ⟨variant, stored⟩ := Option.isSome_iff_exists.mp constructed
    obtain ⟨copied, sourceStored⟩ := Option.isSome_iff_exists.mp sourceConstructed
    obtain ⟨cleared, clears, after⟩ := rep.clear stored
    have afterStored := (after.others source (Ne.symm same)).trans sourceStored
    have fit := after.rep.fit source copied (Ne.symm same) afterStored
    rw [VariantHeap.assign, if_neg same, clears]
    simp only [bind, Option.bind_some, afterStored]
    cases fit with
    | null => exact ⟨_, rfl, after.rep.put_plain .null not_owns_new⟩
    | scalar scalar =>
      refine ⟨_, ?_, after.rep.put_plain (.scalar scalar) (not_owns_ofScalar scalar)⟩
      cases scalar <;> rfl
    | string address content allocated terminated =>
      refine ⟨_, ?_, after.rep.putString (CStrings.cString content)⟩
      simp only [VarValue.readStr, Pointer.ofAddress, readString_string allocated terminated, Option.bind_some]
    | block size address content allocated whole =>
      refine ⟨_, ?_, after.rep.putBlock size content whole⟩
      simp only [VarValue.readBlk, Pointer.ofAddress, readBytes_block allocated whole, Option.bind_some]

/-- NULL leaves an empty variant, which `clear` has made of it. -/
theorem Cleared.emptied {cleared : VariantHeap} (after : Cleared heap name variant cleared) :
    Rep (cleared.put name ⟨.null, .zeroed⟩) :=
  after.rep.put_plain .null not_owns_new

/-- What a pointer reads that does not point into the variant is still there when the variant is cleared. -/
theorem Cleared.unchanged {cleared : VariantHeap} (after : Cleared heap name variant cleared) {pointer : Pointer}
    (elsewhere : ∀ address offset, pointer = .inside address offset → ¬ variant.Owns address) :
    ∀ address offset, pointer = .inside address offset →
      cleared.memory.blocks address = heap.memory.blocks address :=
  fun address offset points => after.kept address (elsewhere address offset points)

/-- `operator=` for a string succeeds when the string can be read and does not lie inside of the
variant itself, and keeps the invariant. -/
theorem Rep.assignString (rep : Rep heap) (stored : heap.variants name = some variant) {str : Pointer}
    (readable : str ≠ .null → (heap.memory.readString str).isSome)
    (elsewhere : ∀ address offset, str = .inside address offset → ¬ variant.Owns address) :
    ∃ next, heap.assignString name str = some next ∧ Rep next := by
  obtain ⟨cleared, clears, after⟩ := rep.clear stored
  rw [VariantHeap.assignString, clears]
  simp only [bind, Option.bind_some]
  by_cases null : str = .null
  · rw [if_pos null, after.zeroed]
    exact ⟨_, rfl, after.emptied⟩
  · obtain ⟨text, reads⟩ := Option.isSome_iff_exists.mp (readable null)
    rw [if_neg null, Allocations.readString_congr (after.unchanged elsewhere), reads]
    exact ⟨_, rfl, after.rep.putString text⟩

/-- `setValue` succeeds for bytes that can be read and are not the variant's own, and keeps the
invariant. -/
theorem Rep.setValue (rep : Rep heap) (stored : heap.variants name = some variant) {buf : Pointer}
    {len : UInt32}
    (readable : buf ≠ .null → (heap.memory.readBytes len.toNat buf).isSome)
    (elsewhere : ∀ address offset, buf = .inside address offset → ¬ variant.Owns address) :
    ∃ next, heap.setValue name buf len = some next ∧ Rep next := by
  obtain ⟨cleared, clears, after⟩ := rep.clear stored
  rw [VariantHeap.setValue, clears]
  simp only [bind, Option.bind_some]
  by_cases null : buf = .null
  · rw [if_pos null, after.zeroed]
    exact ⟨_, rfl, after.emptied⟩
  · obtain ⟨bytes, reads⟩ := Option.isSome_iff_exists.mp (readable null)
    rw [if_neg null, Allocations.readBytes_congr _ (after.unchanged elsewhere), reads]
    exact ⟨_, rfl, after.rep.putBlock len bytes (Allocations.length_readBytes reads)⟩

/-- The pointer that is assigned is freed first where it is the variant's own, so that its text is
read behind the free. -/
theorem Rep.assignString_inside (rep : Rep heap) (stored : heap.variants name = some variant)
    {address offset : Nat}
    (owns : variant.Owns address) : heap.assignString name (.inside address offset) = none := by
  obtain ⟨cleared, clears, after⟩ := rep.clear stored
  simp [VariantHeap.assignString, clears, Allocations.readString, after.freed address owns]

/-- Bytes of the variant itself are freed before they are copied, which the memory of the model
refuses as a use after free. -/
theorem Rep.setValue_inside (rep : Rep heap) (stored : heap.variants name = some variant)
    {address offset : Nat}
    (owns : variant.Owns address) (len : UInt32) : heap.setValue name (.inside address offset) len = none := by
  obtain ⟨cleared, clears, after⟩ := rep.clear stored
  simp [VariantHeap.setValue, clears, Allocations.readBytes, after.freed address owns]

/-- A destructor frees what its variant owns, which is allocated and owned by no other. -/
theorem Rep.destroy (rep : Rep heap) (stored : heap.variants name = some variant) :
    ∃ next, heap.destroy name = some next ∧ Rep next := by
  obtain ⟨cleared, clears, after⟩ := rep.clear stored
  have remaining : ∀ {other otherVariant},
      Function.update cleared.variants name none other = some otherVariant →
        other ≠ name ∧ cleared.variants other = some otherVariant := by
    intro other otherVariant otherStored
    by_cases same : other = name
    · rw [same, Function.update_self] at otherStored
      cases otherStored
    · exact ⟨same, (Function.update_of_ne same ..).symm.trans otherStored⟩
  refine ⟨_, by rw [VariantHeap.destroy, clears]; rfl, ?_, ?_⟩
  · intro other otherVariant live otherStored
    obtain ⟨different, before⟩ := remaining otherStored
    exact after.rep.fit other otherVariant different before
  · intro first second firstVariant secondVariant address live liveSecond firstStored secondStored
    obtain ⟨firstDifferent, firstBefore⟩ := remaining firstStored
    obtain ⟨secondDifferent, secondBefore⟩ := remaining secondStored
    exact after.rep.separate first second firstVariant secondVariant address firstDifferent secondDifferent
      firstBefore secondBefore

/-- An empty variant stays empty when it is cleared. -/
theorem Rep.clear_null (rep : Rep heap) (stored : heap.variants name = some variant) (null : variant.type = .null) :
    ∃ next, heap.clear name = some next ∧ Rep next ∧ next.variants name = some .new := by
  obtain ⟨cleared, clears, after⟩ := rep.clear stored
  have zeroed := after.zeroed
  rw [null] at zeroed
  have same : cleared = cleared.put name .new := by
    rw [VariantHeap.put, Function.update_eq_self_iff.mpr zeroed.symm]
  exact ⟨cleared, clears, same ▸ after.emptied, zeroed⟩

/-! ## Every run -/

/-- In a represented heap every variant is proper: its string or its bytes can be read, and its
size, comparison and copy are defined. -/
theorem Rep.proper (rep : Rep heap) : Proper heap where
  string := by
    intro name variant stored isString
    obtain ⟨address, content, rfl, allocated, terminated⟩ :=
      (rep.fit name variant trivial stored).of_string isString
    exact ⟨address, CStrings.cString content, rfl, readString_string allocated terminated⟩
  block := by
    intro name variant stored isBlock
    obtain ⟨size, address, content, rfl, allocated, whole⟩ :=
      (rep.fit name variant trivial stored).of_block isBlock
    exact ⟨size, address, content, rfl, allocated, whole⟩
  sized name variant stored := (rep.fit name variant trivial stored).sized
  compared first second variant other stored otherStored :=
    (rep.fit first variant trivial stored).compared (rep.fit second other trivial otherStored)
  copied := by
    intro name source sourceConstructed
    by_cases constructed : (heap.variants name).isSome
    · obtain ⟨next, assigns, nextRep⟩ := rep.assign constructed sourceConstructed
      rw [if_pos constructed, step, assigns]
      rfl
    · have different : source ≠ name := fun same => constructed (same ▸ sourceConstructed)
      obtain ⟨next, assigns, nextRep⟩ := VariantHeap.Rep.assign (rep.construct name)
        (by rw [VariantHeap.construct, put_self]; rfl)
        (by rw [VariantHeap.construct, put_other different]; exact sourceConstructed)
      rw [if_neg constructed, step, assigns]
      rfl

/-- An operation of a careful caller is defined, and all variants still fit. -/
theorem Rep.step (rep : Rep heap) {operation : VariantStep} (valid : Valid heap operation)
    (careful : Careful heap operation) : ∃ next, heap.step operation = some next ∧ Rep next := by
  cases operation with
  | new name => exact ⟨_, rfl, rep.construct name⟩
  | newScalar name scalar => exact ⟨_, rfl, (rep.construct name).assignScalar name scalar⟩
  | newString name str =>
    exact (rep.construct name).assignString (put_self ..) valid.2 fun address offset points => not_owns_new address
  | newBlock name buf len =>
    exact (rep.construct name).setValue (put_self ..) valid.2 fun address offset points => not_owns_new address
  | newCopy name source =>
    have different : source ≠ name := by
      rintro rfl
      exact absurd valid.2 (by simp [valid.1])
    apply (rep.construct name).assign
    · rw [VariantHeap.construct, put_self]
      rfl
    · rw [VariantHeap.construct, put_other different]
      exact valid.2
  | assign name source => exact rep.assign valid.1 valid.2
  | assignScalar name scalar => exact ⟨_, rfl, rep.assignScalar name scalar⟩
  | assignString name str =>
    obtain ⟨variant, stored⟩ := Option.isSome_iff_exists.mp valid.1
    exact rep.assignString stored valid.2 (careful variant stored)
  | setValue name buf len =>
    obtain ⟨variant, stored⟩ := Option.isSome_iff_exists.mp valid.1
    exact rep.setValue stored valid.2 (careful variant stored)
  | clear name =>
    obtain ⟨variant, stored⟩ := Option.isSome_iff_exists.mp valid
    obtain ⟨next, clears, nextRep, emptied⟩ := rep.clear_null stored (careful variant stored)
    exact ⟨next, clears, nextRep⟩
  | destroy name =>
    obtain ⟨variant, stored⟩ := Option.isSome_iff_exists.mp valid
    exact rep.destroy stored

/-- One operation is sound just when the caller is careful. -/
theorem Rep.sound_iff_careful (rep : Rep heap) {operation : VariantStep} (valid : Valid heap operation) :
    Sound heap operation ↔ Careful heap operation := by
  constructor
  · rintro ⟨next, steps, proper, cleared⟩
    cases operation with
    | clear name =>
      intro variant stored
      obtain ⟨found, clears, after⟩ := rep.clear stored
      cases clears.symm.trans steps
      obtain ⟨left, leftStored, equal, size⟩ := cleared name rfl
      cases after.zeroed.symm.trans leftStored
      by_contra notNull
      cases (eq_of_type notNull).symm.trans equal
    | assignString name str =>
      rintro variant stored address offset rfl owns
      cases (rep.assignString_inside stored owns).symm.trans steps
    | setValue name buf len =>
      rintro variant stored address offset rfl owns
      cases (rep.setValue_inside stored owns len).symm.trans steps
    | _ => trivial
  · intro careful
    obtain ⟨next, steps, nextRep⟩ := rep.step valid careful
    refine ⟨next, steps, nextRep.proper, ?_⟩
    rintro name rfl
    obtain ⟨variant, stored⟩ := Option.isSome_iff_exists.mp valid
    obtain ⟨cleared, clears, clearedRep, emptied⟩ := rep.clear_null stored (careful variant stored)
    cases clears.symm.trans steps
    exact ⟨.new, emptied, rfl, rfl⟩

/-- In every run, the variants are as they should be after every operation just when every
`clear` is of an empty variant and no variant is assigned a pointer into its own memory. -/
theorem represented_iff (operations : List VariantStep) (valid : Runs.Meets step Valid empty operations) :
    Runs.Meets step Sound empty operations ↔ Runs.Meets step Careful empty operations := by
  refine Runs.meets_iff_meets step Valid Sound Careful Rep ?_ ?_ empty operations rep_empty valid
  · exact fun heap operation rep within => rep.sound_iff_careful within
  · intro heap operation next rep within careful stepped
    obtain ⟨found, steps, foundRep⟩ := rep.step within careful
    exact Option.some.inj (steps.symm.trans stepped) ▸ foundRep

/-- A string, a copy of it, a block that replaces the string, and NULL. None of them assigns NULL to
a string, which would leave its tag. -/
theorem represented_iff_four :
    Runs.Meets step Sound empty [.newString 0 (.outside [104, 105, 0]), .newCopy 1 0,
      .setValue 0 (.outside [1, 2]) 2, .assignString 1 .null] ↔
    Runs.Meets step Careful empty [.newString 0 (.outside [104, 105, 0]), .newCopy 1 0,
      .setValue 0 (.outside [1, 2]) 2, .assignString 1 .null] := by
  exact represented_iff _ (by decide)

/-- A cleared string keeps the tag of a string, with NULL: its `size()` is undefined, and so are its
comparisons. -/
theorem string_not_emptied :
    Runs.Meets step Valid empty [.newString 0 (.outside [104, 105, 0]), .clear 0] ∧
    ¬ Runs.Meets step Sound empty [.newString 0 (.outside [104, 105, 0]), .clear 0] ∧
    ((Runs.run step empty [.newString 0 (.outside [104, 105, 0]), .clear 0]).map fun heap =>
      (heap.variants 0, heap.memory.size ⟨.string, .zeroed⟩)) = some (some ⟨.string, .zeroed⟩, none) := by
  refine ⟨by decide, ?_, by decide⟩
  rintro ⟨-, later⟩
  obtain ⟨⟨next, steps, proper, cleared⟩, -⟩ := later _ rfl
  obtain ⟨variant, stored, equal, size⟩ := cleared 0 rfl
  cases steps
  cases stored
  cases equal

end VariantHeap

end OpenTaker

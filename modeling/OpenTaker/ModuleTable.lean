import OpenTaker.Attach

/-!
# The module table as a list of names

`FindModule` scans the module table up to the first entry without a block view. As long as
the mapped entries come first, the table is the list of their names, and the scan finds
the first one that begins with the characters compared. `InitRing` writes the name of an
entry before it maps anything, over whatever name the entry has kept.
-/

namespace OpenTaker

/-! ## Stored names -/

/-- A stored name: its characters, and zero bytes up to the size of the field. -/
def terminated (chars : List UInt8) : List UInt8 :=
  chars ++ List.replicate (maxModuleName - chars.length) 0

/-- Characters that a table entry can keep with a terminator. -/
structure Storable (chars : List UInt8) : Prop where
  short : chars.length < maxModuleName
  noZero : ∀ char ∈ chars, char ≠ 0

/-- The characters of a name that are compared and copied. -/
def compared (name : CString) : List UInt8 := name.chars.take (nameSize name)

/-- The compared part of a name is as long as the comparison of `FindModule` says. -/
theorem compared_length (name : CString) : (compared name).length = nameSize name := by
  rw [compared, List.length_take]
  exact Nat.min_eq_left (Nat.min_le_right _ _)

/-- The terminator is not compared, so that a shorter name can be the beginning of a longer one. -/
theorem compared_noZero (name : CString) : ∀ char ∈ compared name, char ≠ 0 :=
  fun char member => name.noZero char (List.mem_of_mem_take member)

/-- The compared part of a name can be stored, with room for the terminator. -/
theorem compared_storable (name : CString) : Storable (compared name) where
  short := by
    have bound : nameSize name ≤ maxModuleName - 1 := Nat.min_le_left _ _
    have size : maxModuleName = 20 := rfl
    rw [compared_length]
    omega
  noZero := compared_noZero name

/-- A name that fits is compared as a whole. -/
theorem compared_of_short {name : CString} (short : name.chars.length < maxModuleName) :
    compared name = name.chars := by
  have whole : nameSize name = name.chars.length := Nat.min_eq_right (Nat.le_sub_one_of_lt short)
  rw [compared, whole, List.take_length]

/-- `strncmp` over characters without a zero compares a beginning. -/
theorem strncmpZero_iff {count : Nat} {left right : List UInt8} (noZero : ∀ char ∈ right, char ≠ 0)
    (bound : count ≤ right.length) :
    strncmpZero count left right = true ↔ right.take count <+: left := by
  induction count generalizing left right with
  | zero => simp [strncmpZero]
  | succ count inductionHypothesis =>
    cases right with
    | nil => cases bound
    | cons char rest =>
      obtain ⟨here, later⟩ := List.forall_mem_cons.mp noZero
      have following := @inductionHypothesis left.tail rest later (Nat.le_of_succ_le_succ bound)
      cases left with
      | nil => simp [strncmpZero, Ne.symm here]
      | cons first others =>
        simp only [strncmpZero, List.headD_cons, List.tail_cons, List.take_succ_cons,
          List.cons_prefix_cons, Bool.and_eq_true, Bool.or_eq_true, beq_iff_eq] at following ⊢
        rw [following]
        constructor
        · rintro ⟨rfl, zero | begins⟩
          · exact absurd zero here
          · exact ⟨rfl, begins⟩
        · rintro ⟨rfl, begins⟩
          exact ⟨rfl, .inr begins⟩

/-- The terminator is not among characters without a zero. -/
theorem prefix_terminated {begin chars : List UInt8} (noZero : ∀ char ∈ begin, char ≠ 0) :
    begin <+: terminated chars ↔ begin <+: chars := by
  constructor
  · intro begins
    by_cases short : begin.length ≤ chars.length
    · exact List.prefix_of_prefix_length_le begins (List.prefix_append _ _) short
    · obtain ⟨rest, extended⟩ := List.prefix_of_prefix_length_le (List.prefix_append chars _) begins
        (by omega)
      subst extended
      obtain ⟨after, same⟩ := begins
      cases rest with
      | nil => simp at short
      | cons char rest =>
        have zeros : char :: (rest ++ after) = List.replicate (maxModuleName - chars.length) 0 := by
          rw [terminated, List.append_assoc] at same
          exact List.append_cancel_left same
        have zero : char = 0 := List.eq_of_mem_replicate (zeros ▸ List.mem_cons_self)
        exact absurd zero (noZero char (List.mem_append_right _ List.mem_cons_self))
  · exact fun begins => begins.trans (List.prefix_append _ _)

/-- The name an entry keeps after a name has been written over it. -/
def overwrittenName (name : CString) (old : List UInt8) : List UInt8 :=
  compared name ++ old.drop (nameSize name)

/-- What stands in an entry after a name was copied over an older one can be stored, as neither of
the two was too long. -/
theorem overwrittenName_storable (name : CString) {old : List UInt8} (storable : Storable old) :
    Storable (overwrittenName name old) where
  short := by
    have written := (compared_storable name).short
    have kept := storable.short
    rw [compared_length] at written
    simp only [overwrittenName, List.length_append, compared_length, List.length_drop]
    omega
  noZero := by
    intro char member
    rcases List.mem_append.mp member with written | kept
    · exact compared_noZero name char written
    · exact storable.noZero char (List.mem_of_mem_drop kept)

/-- An entry without a name takes the characters that are copied. -/
theorem overwrittenName_nil (name : CString) : overwrittenName name [] = compared name := by
  rw [overwrittenName, List.drop_nil, List.append_nil]

/-- A name that begins with the characters copied stays. -/
theorem overwrittenName_eq_self {name : CString} {old : List UInt8}
    (begins : compared name <+: old) : overwrittenName name old = old := by
  obtain ⟨rest, rfl⟩ := begins
  rw [overwrittenName, ← compared_length, List.drop_left]

/-- `strncpy` without the terminator writes over the beginning of the older name, and the end of a
longer one stays behind it. -/
theorem strncpy_terminated (name : CString) {old : List UInt8} (storable : Storable old) :
    strncpy (terminated old) name.chars (nameSize name) = terminated (overwrittenName name old) := by
  have short := storable.short
  have written := (compared_storable name).short
  rw [compared_length] at written
  rw [strncpy, terminated, terminated, overwrittenName, List.append_assoc, List.drop_append,
    List.drop_replicate]
  have zeros : maxModuleName - old.length - (nameSize name - old.length) =
      maxModuleName - (compared name ++ List.drop (nameSize name) old).length := by
    rw [List.length_append, compared_length, List.length_drop]
    omega
  rw [zeros]
  rfl

/-! ## The scan -/

/-- The mapped entries come first, and these are their names. -/
structure Entries (global : Global) (names : List (List UInt8)) : Prop where
  mapped : ∀ index (inside : index < names.length),
    (global.moduleInfo index).blockViewStart ≠ none ∧
      (global.moduleInfo index).moduleName = terminated (names[index])
  ends : ∀ index, names.length ≤ index → (global.moduleInfo index).blockViewStart = none

/-- The first entry whose name begins with the characters compared. -/
def lookup (names : List (List UInt8)) (name : CString) : Option Nat :=
  (names.take maxModuleCount).findIdx? (fun stored => (compared name).isPrefixOf stored)

/-- The search for a module is a search in the list of stored names, for the first one that begins
with the compared part of the name. -/
theorem Entries.findModuleFrom_eq {global : Global} {names : List (List UInt8)}
    (entries : Entries global names) (name : CString) (remaining start : Nat) :
    findModuleFrom global name remaining start =
      (((names.drop start).take remaining).findIdx?
        (fun stored => (compared name).isPrefixOf stored)).map (· + start) := by
  induction remaining generalizing start with
  | zero => simp [findModuleFrom]
  | succ remaining inductionHypothesis =>
    by_cases inside : start < names.length
    · obtain ⟨mapped, named⟩ := entries.mapped start inside
      have compares : strncmpZero (nameSize name) (global.moduleInfo start).moduleName name.chars =
          (compared name).isPrefixOf names[start] := by
        have bound : nameSize name ≤ name.chars.length := Nat.min_le_right _ _
        rw [Bool.eq_iff_iff, strncmpZero_iff name.noZero bound, List.isPrefixOf_iff_prefix, named]
        exact prefix_terminated (compared_noZero name)
      rw [findModuleFrom, if_neg mapped, compares, inductionHypothesis,
        List.drop_eq_getElem_cons inside, List.take_succ_cons, List.findIdx?_cons]
      by_cases found : (compared name).isPrefixOf names[start] = true
      · simp [found]
      · simp only [found, Bool.false_eq_true, if_false, Option.map_map]
        congr 1
        funext index
        simp only [Function.comp_apply]
        omega
    · rw [findModuleFrom, if_pos (entries.ends start (by omega)),
        List.drop_eq_nil_of_le (by omega)]
      simp

/-- `FindModule` looks a name up in the list of the stored names: what the table shows is all that
it reads. -/
theorem Entries.findModule_eq {global : Global} {names : List (List UInt8)}
    (entries : Entries global names) (name : CString) :
    findModule global (some name) = lookup names name := by
  simp only [findModule, Option.bind_some, entries.findModuleFrom_eq, lookup, List.drop_zero,
    Nat.add_zero]
  cases (names.take maxModuleCount).findIdx? fun stored => (compared name).isPrefixOf stored <;> rfl

section Lookup

variable {names : List (List UInt8)} {name : CString} {index : Nat}

/-- What is found is the first entry that begins with the characters compared. -/
theorem lookup_eq_some_iff :
    lookup names name = some index ↔
      index < maxModuleCount ∧ ∃ inside : index < names.length,
        compared name <+: names[index] ∧
          ∀ earlier (present : earlier < names.length), earlier < index →
            ¬ compared name <+: names[earlier] := by
  simp only [lookup, List.findIdx?_eq_some_iff_getElem, List.length_take, List.getElem_take,
    List.isPrefixOf_iff_prefix]
  constructor
  · rintro ⟨inside, begins, first⟩
    exact ⟨(Nat.lt_min.mp inside).1, (Nat.lt_min.mp inside).2, begins,
      fun earlier _ before => first earlier before⟩
  · rintro ⟨bound, inside, begins, first⟩
    exact ⟨Nat.lt_min.mpr ⟨bound, inside⟩, begins,
      fun earlier before => first earlier (Nat.lt_trans before inside) before⟩

/-- A name is not found just if it is the beginning of none of the stored ones within the table. -/
theorem lookup_eq_none_iff :
    lookup names name = none ↔
      ∀ index (inside : index < names.length), index < maxModuleCount →
        ¬ compared name <+: names[index] := by
  simp only [lookup, List.findIdx?_eq_none_iff, ← Bool.not_eq_true, List.isPrefixOf_iff_prefix]
  constructor
  · intro absent index inside bound
    apply absent
    have taken : index < (names.take maxModuleCount).length := by
      rw [List.length_take]
      exact Nat.lt_min.mpr ⟨bound, inside⟩
    have same : (names.take maxModuleCount)[index] = names[index] := List.getElem_take
    exact same ▸ List.getElem_mem taken
  · intro absent stored member
    obtain ⟨index, taken, rfl⟩ := List.mem_iff_getElem.mp member
    rw [List.length_take] at taken
    rw [List.getElem_take]
    exact absent index (Nat.lt_min.mp taken).2 (Nat.lt_min.mp taken).1

/-- An entry that begins with the characters compared is found, or an earlier one is. -/
theorem lookup_le (bound : index < maxModuleCount) (inside : index < names.length)
    (begins : compared name <+: names[index]) :
    ∃ found ≤ index, lookup names name = some found := by
  cases found : lookup names name with
  | none => exact absurd begins (lookup_eq_none_iff.mp found index inside bound)
  | some first =>
    refine ⟨first, ?_, rfl⟩
    by_contra later
    exact (lookup_eq_some_iff.mp found).2.2.2 index inside (by omega) begins

/-- The first entry behind those that were searched in vain. -/
theorem lookup_append {added : List UInt8} (absent : lookup names name = none)
    (room : names.length < maxModuleCount) (begins : compared name <+: added) :
    lookup (names ++ [added]) name = some names.length := by
  rw [lookup_eq_some_iff]
  refine ⟨room, by simp, ?_, ?_⟩
  · rw [List.getElem_concat_length rfl]
    exact begins
  · intro earlier _ before
    rw [List.getElem_append_left before]
    exact lookup_eq_none_iff.mp absent earlier before (Nat.lt_trans before room)

/-- An entry that is renamed so that it is found. -/
theorem lookup_set {renamed : List UInt8} (absent : lookup names name = none)
    (bound : index < maxModuleCount) (inside : index < names.length)
    (begins : compared name <+: renamed) : lookup (names.set index renamed) name = some index := by
  rw [lookup_eq_some_iff]
  refine ⟨bound, by rw [List.length_set]; exact inside, ?_, ?_⟩
  · rw [List.getElem_set_self]
    exact begins
  · intro earlier _ before
    rw [List.getElem_set_ne (Nat.ne_of_gt before)]
    exact lookup_eq_none_iff.mp absent earlier (Nat.lt_trans before inside) (Nat.lt_trans before bound)

end Lookup

/-! ## Attaching -/

/-- The name and the block view of an entry, which is what `FindModule` reads. -/
def ModuleInfo.shown (modInfo : ModuleInfo) : List UInt8 × Option Nat :=
  (modInfo.moduleName, modInfo.blockViewStart)

/-- The later stages of an attachment touch neither the name nor the block view, so that they are
not seen by a lookup. -/
theorem mapMetaView_shown (call : InitCall) (index : Nat) (ring : Ring) :
    ((mapMetaView call index ring).2.global.moduleInfo index).shown =
      (ring.global.moduleInfo index).shown := by
  simp only [mapMetaView]
  split
  · rfl
  · split <;> simp [ModuleInfo.shown, Ring.clearMetaPool]

/-- The mapping of the meta blocks is not shown in what the table tells about a module. -/
theorem mapMetaBlkView_shown (call : InitCall) (index : Nat) (ring : Ring) :
    ((mapMetaBlkView call index ring).2.global.moduleInfo index).shown =
      (ring.global.moduleInfo index).shown := by
  simp only [mapMetaBlkView]
  split
  · rfl
  · split <;> simp [ModuleInfo.shown, Ring.clearMetaBlks]

/-- An attachment shows what its first stage has left. -/
theorem attachModule_shown (call : InitCall) (name : CString) (index : Nat) (created : Bool)
    (ring : Ring) :
    ((attachModule call name index created ring).2.global.moduleInfo index).shown =
      ((mapBlockView call name index ring).2.global.moduleInfo index).shown := by
  simp only [attachModule]
  generalize mapBlockView call name index ring = stage
  obtain ⟨_ | _, afterBlock⟩ := stage
  · rfl
  have second := mapMetaView_shown call index afterBlock
  simp only
  generalize mapMetaView call index afterBlock = stage at second
  obtain ⟨_ | _, afterMeta⟩ := stage
  · exact second
  have third := mapMetaBlkView_shown call index afterMeta
  simp only
  generalize mapMetaBlkView call index afterMeta = stage at third
  obtain ⟨_ | _, afterBlk⟩ := stage
  · exact third.trans second
  · exact third.trans second

/-- The name is written first, and an old block view is kept when it is not mapped again. -/
theorem attachModule_entry (call : InitCall) (name : CString) (index : Nat) (created : Bool)
    (ring : Ring) :
    ((attachModule call name index created ring).2.global.moduleInfo index).moduleName =
        strncpy (ring.global.moduleInfo index).moduleName name.chars (nameSize name) ∧
      (((attachModule call name index created ring).2.global.moduleInfo index).blockViewStart = none ↔
        (ring.global.moduleInfo index).blockViewStart = none ∧
          call.create .block (u64 (ring.global.blockSize + pageSize)) = none) := by
  have shown := attachModule_shown call name index created ring
  simp only [ModuleInfo.shown, Prod.mk.injEq] at shown
  rw [shown.1, shown.2]
  cases block : call.create .block (u64 (ring.global.blockSize + pageSize)) with
  | none => simp [mapBlockView, block]
  | some addr => simp [mapBlockView, block]

/-- An attachment answers with its index exactly when everything is mapped. -/
theorem attachModule_answer (call : InitCall) (name : CString) (index : Nat) (created : Bool)
    (ring : Ring) :
    (attachModule call name index created ring).1 = if mapsAll call ring then some index else none := by
  obtain ⟨first, -, -, -, firstMaps⟩ := mapBlockView_spec call name index ring
  simp only [attachModule]
  generalize mapBlockView call name index ring = stage at first firstMaps
  obtain ⟨_ | _, afterBlock⟩ := stage
  · have refused : mapsAll call ring = false := by
      simp only [mapsAll, mapsPool, ← firstMaps, Bool.false_and]
    simp only [refused, Bool.false_eq_true, if_false]
  obtain ⟨second, -, -, -, -, secondMaps⟩ := mapMetaView_spec call index afterBlock
  rw [first.poolSize] at secondMaps
  simp only
  generalize mapMetaView call index afterBlock = stage at second secondMaps
  obtain ⟨_ | _, afterMeta⟩ := stage
  · have refused : mapsAll call ring = false := by
      simp only [mapsAll, mapsPool, ← secondMaps, Bool.and_false, Bool.false_and]
    simp only [refused, Bool.false_eq_true, if_false]
  obtain ⟨-, -, -, -, thirdMaps⟩ := mapMetaBlkView_spec call index afterMeta
  rw [metaBlockSize, (first.trans second).blockCount, ← metaBlockSize] at thirdMaps
  simp only
  generalize mapMetaBlkView call index afterMeta = stage at thirdMaps
  have both : mapsAll call ring = stage.1 := by
    simp only [mapsAll, mapsPool, ← firstMaps, ← secondMaps, ← thirdMaps, Bool.true_and]
  rw [both]
  obtain ⟨_ | _, afterBlk⟩ := stage <;> rfl

/-- The names of the mapped entries after an attachment under an index, whose entry has
kept a name. -/
def attachedNames (call : InitCall) (ring : Ring) (name : CString) (index : Nat)
    (kept : List UInt8) (names : List (List UInt8)) : List (List UInt8) :=
  if index < names.length then names.set index (overwrittenName name kept)
  else if (call.create .block (u64 (ring.global.blockSize + pageSize))).isSome then
    names ++ [overwrittenName name kept]
  else names

/-- Nothing is mapped when the block view is refused. -/
theorem block_of_mapsAll {call : InitCall} {ring : Ring} (all : mapsAll call ring = true) :
    (call.create .block (u64 (ring.global.blockSize + pageSize))).isSome = true := by
  simp only [mapsAll, mapsPool, Bool.and_eq_true] at all
  exact all.1.1

/-- An attachment names the entry, and maps it if it was the first one without a view. -/
theorem Entries.attach {ring : Ring} {names : List (List UInt8)} (entries : Entries ring.global names)
    (call : InitCall) (name : CString) (index : Nat) (created : Bool) {kept : List UInt8}
    (bound : index ≤ names.length) (storable : Storable kept)
    (named : (ring.global.moduleInfo index).moduleName = terminated kept) :
    ((attachModule call name index created ring).2.global.moduleInfo index).moduleName =
        terminated (overwrittenName name kept) ∧
      Entries (attachModule call name index created ring).2.global
        (attachedNames call ring name index kept names) := by
  obtain ⟨written, view⟩ := attachModule_entry call name index created ring
  obtain ⟨others, -⟩ := attachModule_effect call name index created ring
  rw [named, strncpy_terminated name storable] at written
  refine ⟨written, ?_⟩
  simp only [attachedNames]
  by_cases inside : index < names.length
  · have mapped : (ring.global.moduleInfo index).blockViewStart ≠ none := (entries.mapped index inside).1
    rw [if_pos inside]
    constructor
    · intro other otherInside
      rw [List.length_set] at otherInside
      by_cases same : other = index
      · subst same
        rw [List.getElem_set_self]
        exact ⟨fun unmapped => mapped (view.mp unmapped).1, written⟩
      · rw [List.getElem_set_ne (Ne.symm same), others other same]
        exact entries.mapped other otherInside
    · intro other outside
      rw [List.length_set] at outside
      rw [others other (by omega)]
      exact entries.ends other outside
  · have last : index = names.length := by omega
    subst last
    have unmapped := entries.ends names.length (Nat.le_refl _)
    rw [if_neg inside]
    cases block : call.create .block (u64 (ring.global.blockSize + pageSize)) with
    | none =>
      simp only [Option.isSome_none, Bool.false_eq_true, if_false]
      constructor
      · intro other otherInside
        rw [others other (by omega)]
        exact entries.mapped other otherInside
      · intro other outside
        by_cases same : other = names.length
        · subst same
          exact view.mpr ⟨unmapped, block⟩
        · rw [others other same]
          exact entries.ends other outside
    | some addr =>
      simp only [Option.isSome_some, if_true]
      constructor
      · intro other otherInside
        rw [List.length_append, List.length_singleton] at otherInside
        by_cases same : other = names.length
        · subst same
          rw [List.getElem_concat_length rfl]
          refine ⟨fun gone => ?_, written⟩
          rw [(view.mp gone).2] at block
          cases block
        · have before : other < names.length := by omega
          rw [List.getElem_append_left before, others other same]
          exact entries.mapped other before
      · intro other outside
        rw [List.length_append, List.length_singleton] at outside
        rw [others other (by omega)]
        exact entries.ends other (by omega)

/-- A call of `InitRing` with a module name, on which all memory is granted. -/
def namedCall (name : CString) : InitCall := ⟨fun _ _ => some 0, some name, 4096, 16, false⟩

/-! ## Opening -/

/-- Opening the ring clears its header: on request, and in the first process. -/
def clearsHeader (call : InitCall) (ring : Ring) : Bool :=
  call.reset || (ring.global.index == 0 && call.blockSize != 0)

/-- A header that is cleared has no modules, and all its entries are zero. -/
theorem openRing_of_clears {call : InitCall} {ring : Ring} (clears : clearsHeader call ring = true) :
    (openRing call ring).global.index = 0 ∧
      (openRing call ring).global.moduleInfo = fun _ => ModuleInfo.zero := by
  simp only [clearsHeader, Bool.or_eq_true, Bool.and_eq_true, beq_iff_eq, bne_iff_ne] at clears
  by_cases reset : call.reset = true
  · simp only [openRing, reset, if_true]
    split <;> exact ⟨rfl, rfl⟩
  · simp only [openRing, reset, Bool.false_eq_true, if_false]
    rw [if_pos (clears.resolve_left reset)]
    exact ⟨rfl, rfl⟩

/-- Where the header is not cleared, opening the ring changes nothing. -/
theorem openRing_of_not_clears {call : InitCall} {ring : Ring}
    (keeps : clearsHeader call ring = false) : openRing call ring = ring := by
  simp only [clearsHeader, Bool.or_eq_false_iff, Bool.and_eq_false_iff, beq_eq_false_iff_ne,
    bne_eq_false_iff_eq] at keeps
  obtain ⟨noReset, later⟩ := keeps
  simp only [openRing, noReset, Bool.false_eq_true, if_false]
  rw [if_neg]
  rintro ⟨first, sized⟩
  rcases later with registered | unsized
  · exact registered first
  · exact sized unsized

/-- A cleared header has no entries, as all its names are empty and nothing is mapped. -/
theorem entries_of_clears {call : InitCall} {ring : Ring} (clears : clearsHeader call ring = true) :
    Entries (openRing call ring).global [] where
  mapped _ inside := absurd inside (Nat.not_lt_zero _)
  ends index _ := by rw [(openRing_of_clears clears).2]; rfl

/-- In a cleared header every name is empty, and no lookup finds a module by it. -/
theorem moduleName_of_clears {call : InitCall} {ring : Ring} (clears : clearsHeader call ring = true)
    (index : Nat) : ((openRing call ring).global.moduleInfo index).moduleName = terminated [] := by
  rw [(openRing_of_clears clears).2]
  rfl

/-- The empty name can be stored, which all entries start with. -/
theorem storable_nil : Storable [] where
  short := by decide
  noZero _ member := by cases member

end OpenTaker

import OpenTaker.ModuleTable
import Mathlib.Data.Finset.Card

/-!
# Module identity

`InitRing` answers a module name with the first table entry whose name begins with it, and
registers the name at the end of the table when there is none. A module is told apart from
the others as long as no name is used first after a longer name that begins with it, and
as long as the table has room. A name that was never registered is not found exactly when
no registered name begins with it.
-/

namespace OpenTaker

/-- Two names are equal when their characters are, so that equality of names can be decided. -/
instance : DecidableEq CString := fun first second =>
  decidable_of_iff (first.chars = second.chars) <| by
    cases first
    cases second
    simp only [CString.mk.injEq]

/-- The other field of a name is a proof, so that a name is determined by its characters. -/
theorem CString.eq_of_chars {first second : CString} (same : first.chars = second.chars) :
    first = second := by
  cases first
  cases second
  simpa only [CString.mk.injEq] using same

/-- A module name as the interface asks for it. -/
structure ModuleNamed (name : CString) : Prop where
  nonempty : name.chars ≠ []
  short : name.chars.length < maxModuleName

/-- Whether a name is a module name can be decided, which the example runs use. -/
instance (name : CString) : Decidable (ModuleNamed name) :=
  decidable_of_iff (name.chars ≠ [] ∧ name.chars.length < maxModuleName)
    ⟨fun both => ⟨both.1, both.2⟩, fun named => ⟨named.nonempty, named.short⟩⟩

/-- A ring with the calls of `InitRing` it has answered since it was last reset, the
latest first. -/
structure Registry where
  ring : Ring
  history : List (CString × Nat)

/-- Fresh memory, in which no module is registered and nobody was answered. -/
def Registry.zero : Registry := ⟨Ring.zero, []⟩

/-- The names that were used in the calls so far, the latest first. -/
def Registry.names (registry : Registry) : List CString := registry.history.map Prod.fst

/-- A successful call of `InitRing` with a module name. -/
def Registry.step (registry : Registry) (call : InitCall) : Option Registry :=
  match call.moduleName with
  | none => none
  | some name =>
      if ModuleNamed name then
        match initRing call registry.ring with
        | (none, _) => none
        | (some id, ring) =>
            some ⟨ring, (name, id) :: if call.reset then [] else registry.history⟩
      else none

/-- The ids tell the modules apart, and the names are found under their ids, and no others. -/
structure Identified (registry : Registry) : Prop where
  ids : ∀ first ∈ registry.history, ∀ second ∈ registry.history,
    first.2 = second.2 ↔ first.1 = second.1
  found : ∀ answered ∈ registry.history,
    getMyID registry.ring (some answered.1) = some answered.2
  unknown : ∀ name, ModuleNamed name → name ∉ registry.names →
    getMyID registry.ring (some name) = none

/-- No name is used first after a name that begins with it. The latest name comes first. -/
def ShorterFirst : List CString → Prop
  | [] => True
  | name :: earlier =>
      ((∃ longer ∈ earlier, name.chars <+: longer.chars) → name ∈ earlier) ∧ ShorterFirst earlier

/-- The names can be told apart by their beginnings, in the order of their use. -/
structure Separable (names : List CString) : Prop where
  few : names.toFinset.card ≤ maxModuleCount
  shorterFirst : ShorterFirst names
  /-- Every beginning of a name is a name. -/
  closed : ∀ name ∈ names, ∀ beginning : CString, beginning.chars ≠ [] →
    beginning.chars <+: name.chars → beginning ∈ names

/-! ## The table of a set-up ring -/

/-- The registered names are those of the mapped entries, and the others have none. -/
structure Tabled (ring : Ring) (table : List (List UInt8)) : Prop where
  registered : ring.global.index = table.length
  entries : Entries ring.global table
  unnamed : ∀ index, table.length ≤ index →
    (ring.global.moduleInfo index).moduleName = terminated []
  storable : ∀ stored ∈ table, Storable stored

/-- A module name is compared as a whole, because it is short enough. -/
theorem ModuleNamed.compared_eq {name : CString} (named : ModuleNamed name) :
    compared name = name.chars := compared_of_short named.short

/-- A module name can be stored with its terminator. -/
theorem ModuleNamed.storable {name : CString} (named : ModuleNamed name) : Storable name.chars :=
  ⟨named.short, name.noZero⟩

/-- Attaching a module that was found changes no name. -/
theorem Tabled.attached {call : InitCall} {opened : Ring} {table : List (List UInt8)} {name : CString}
    {index : Nat} (tabled : Tabled opened table) (found : lookup table name = some index) :
    Tabled (attachModule call name index false opened).2 table := by
  obtain ⟨-, inside, begins, -⟩ := lookup_eq_some_iff.mp found
  have storable := tabled.storable _ (List.getElem_mem inside)
  obtain ⟨-, entries⟩ := tabled.entries.attach call name index false (by omega) storable
    (tabled.entries.mapped index inside).2
  obtain ⟨others, -, counted, -⟩ := attachModule_effect call name index false opened
  rw [attachedNames, if_pos inside, overwrittenName_eq_self begins, List.set_getElem_self] at entries
  constructor
  case registered =>
    rw [counted, Bool.and_false, if_neg Bool.false_ne_true]
    exact tabled.registered
  case entries => exact entries
  case unnamed =>
    intro other outside
    rw [others other (by omega)]
    exact tabled.unnamed other outside
  case storable => exact tabled.storable

/-- Registering a module that was not found appends its name. -/
theorem Tabled.appended {call : InitCall} {opened : Ring} {table : List (List UInt8)} {name : CString}
    (tabled : Tabled opened table) (named : ModuleNamed name) (mapsAll : mapsAll call opened = true) :
    Tabled (attachModule call name table.length true opened).2 (table ++ [name.chars]) := by
  obtain ⟨-, entries⟩ := tabled.entries.attach call name table.length true (Nat.le_refl _)
    storable_nil (tabled.unnamed table.length (Nat.le_refl _))
  obtain ⟨others, -, counted, -⟩ := attachModule_effect call name table.length true opened
  have block := block_of_mapsAll mapsAll
  rw [attachedNames, if_neg (Nat.lt_irrefl _), if_pos block, overwrittenName_nil, named.compared_eq]
    at entries
  constructor
  case registered =>
    rw [counted, mapsAll, Bool.and_self, if_pos rfl, tabled.registered, List.length_append,
      List.length_singleton]
  case entries => exact entries
  case unnamed =>
    intro other outside
    rw [List.length_append, List.length_singleton] at outside
    rw [others other (by omega)]
    exact tabled.unnamed other (by omega)
  case storable =>
    intro stored member
    rcases List.mem_append.mp member with before | added
    · exact tabled.storable stored before
    · exact List.mem_singleton.mp added ▸ named.storable

/-- A successful call finds the name, or registers it at the end of the table. -/
theorem Tabled.initRing {call : InitCall} {ring next : Ring} {table : List (List UInt8)}
    {name : CString} {id : Nat} (tabled : Tabled (openRing call ring) table)
    (named : ModuleNamed name) (given : call.moduleName = some name)
    (done : initRing call ring = (some id, next)) :
    lookup table name = some id ∧ Tabled next table ∨
      lookup table name = none ∧ id = table.length ∧ Tabled next (table ++ [name.chars]) := by
  simp only [OpenTaker.initRing, given, tabled.entries.findModule_eq, tabled.registered] at done
  cases header : call.create .global sizeofGlobal with
  | none => simp [header] at done
  | some addr =>
    simp only [header] at done
    cases found : lookup table name with
    | some index =>
      simp only [found] at done
      have answer := attachModule_answer call name index false (openRing call ring)
      have attached : Tabled (attachModule call name index false (openRing call ring)).2 table :=
        tabled.attached found
      rw [done] at answer attached
      rw [eq_comm, Option.ite_none_right_eq_some, Option.some.injEq] at answer
      exact .inl ⟨congrArg some answer.2, attached⟩
    | none =>
      simp only [found] at done
      have answer := attachModule_answer call name table.length true (openRing call ring)
      rw [done, eq_comm, Option.ite_none_right_eq_some, Option.some.injEq] at answer
      have appended := tabled.appended named answer.1
      rw [done] at appended
      exact .inr ⟨rfl, answer.2.symm, appended⟩

/-- Opening the ring keeps the table or empties it. -/
theorem Tabled.opened {ring : Ring} {table : List (List UInt8)} (tabled : Tabled ring table)
    (call : InitCall) :
    Tabled (openRing call ring) (if call.reset then [] else table) := by
  cases clears : clearsHeader call ring with
  | false =>
    have noReset : call.reset = false := by
      simp only [clearsHeader, Bool.or_eq_false_iff] at clears
      exact clears.1
    rw [openRing_of_not_clears clears, noReset, if_neg Bool.false_ne_true]
    exact tabled
  | true =>
    have emptied : (if call.reset then [] else table) = [] := by
      simp only [clearsHeader, Bool.or_eq_true, Bool.and_eq_true, beq_iff_eq] at clears
      split
      · rfl
      · rename_i noReset
        have unregistered := (clears.resolve_left noReset).1
        rw [tabled.registered] at unregistered
        exact List.eq_nil_of_length_eq_zero unregistered
    rw [emptied]
    exact ⟨(openRing_of_clears clears).1, entries_of_clears clears,
      fun index _ => moduleName_of_clears clears index, fun _ member => by cases member⟩

/-- The ring of zero bytes has an empty table, in which every entry has the empty name. -/
theorem tabled_zero : Tabled Ring.zero [] where
  registered := rfl
  entries := ⟨fun _ inside => absurd inside (Nat.not_lt_zero _), fun _ _ => rfl⟩
  unnamed _ _ := rfl
  storable _ member := by cases member

/-! ## The answers -/

/-- How the answers follow from the table. The last two fields say when they tell the names
apart: when no name comes after a longer one that begins with it, each entry is found under
its own name; and when the ids tell the names apart, no name came after a longer one. -/
structure Recorded (history : List (CString × Nat)) (table : List (List UInt8)) : Prop where
  named : ∀ answered ∈ history, ModuleNamed answered.1
  begins : ∀ answered ∈ history,
    ∃ inside : answered.2 < table.length, answered.1.chars <+: table[answered.2]
  used : ∀ index (inside : index < table.length),
    ∃ name : CString, name.chars = table[index] ∧ (name, index) ∈ history
  apart : ShorterFirst (history.map Prod.fst) →
    (history.map Prod.fst).toFinset.card ≤ maxModuleCount →
    table.length ≤ maxModuleCount ∧ table.Pairwise (fun first later => ¬ later <+: first) ∧
      ∀ answered ∈ history, table[answered.2]? = some answered.1.chars
  ordered : (∀ first ∈ history, ∀ second ∈ history, first.2 = second.2 → first.1 = second.1) →
    (∀ answered ∈ history, answered.2 < maxModuleCount) → ShorterFirst (history.map Prod.fst)

/-- Nothing has been answered before the first call, so that there is nothing to be wrong about. -/
theorem recorded_nil : Recorded [] [] where
  named _ member := by cases member
  begins _ member := by cases member
  used _ inside := absurd inside (Nat.not_lt_zero _)
  apart _ _ := ⟨Nat.zero_le _, List.Pairwise.nil, fun _ member => by cases member⟩
  ordered _ _ := trivial

/-- Each entry is found under its own name when no later entry begins it. -/
theorem lookup_self {table : List (List UInt8)} {name : CString} {index : Nat}
    (apart : table.Pairwise (fun first later => ¬ later <+: first)) (bound : index < maxModuleCount)
    (named : ModuleNamed name) (entry : table[index]? = some name.chars) :
    lookup table name = some index := by
  obtain ⟨inside, same⟩ := List.getElem?_eq_some_iff.mp entry
  rw [lookup_eq_some_iff, named.compared_eq]
  refine ⟨bound, inside, same ▸ List.prefix_refl _, ?_⟩
  intro earlier _ before
  have distinct := List.pairwise_iff_getElem.mp apart earlier index (Nat.lt_trans before inside) inside before
  exact same ▸ distinct

/-- There are no fewer names with one more, and so a bound that holds behind a call held in front of
it. -/
theorem card_tail (name : CString) (names : List CString) :
    names.toFinset.card ≤ (name :: names).toFinset.card := by
  rw [List.toFinset_cons]
  exact Finset.card_le_card (Finset.subset_insert _ _)

/-- Different stored names come from different names, so that the table has no more entries than
names were used. -/
theorem length_le_card {table : List (List UInt8)} {names : List CString}
    (apart : table.Pairwise (fun first later => ¬ later <+: first))
    (used : ∀ stored ∈ table, ∃ name ∈ names, name.chars = stored) :
    table.length ≤ names.toFinset.card := by
  have distinct : table.Nodup := by
    apply apart.imp
    rintro first _ notBegins rfl
    exact notBegins (List.prefix_refl first)
  have covered : table.toFinset ⊆ names.toFinset.image CString.chars := by
    intro stored member
    obtain ⟨name, isUsed, same⟩ := used stored (List.mem_toFinset.mp member)
    exact Finset.mem_image.mpr ⟨name, List.mem_toFinset.mpr isUsed, same⟩
  calc table.length = table.toFinset.card := (List.toFinset_card_of_nodup distinct).symm
    _ ≤ (names.toFinset.image CString.chars).card := Finset.card_le_card covered
    _ ≤ names.toFinset.card := Finset.card_image_le

namespace Recorded

variable {history : List (CString × Nat)} {table : List (List UInt8)} {name : CString} {id : Nat}

/-- A name that begins a used one begins an entry. -/
theorem begins_entry (recorded : Recorded history table) {longer : CString × Nat}
    (used : longer ∈ history) (begins : name.chars <+: longer.1.chars) :
    ∃ inside : longer.2 < table.length, name.chars <+: table[longer.2] := by
  obtain ⟨inside, entry⟩ := recorded.begins longer used
  exact ⟨inside, begins.trans entry⟩

/-- The head of the order: a new name that begins a used one was answered with an entry of
its own name. -/
theorem used_of_begins (recorded : Recorded history table) (named : ModuleNamed name)
    (owned : ∀ id, lookup table name = some id → ∀ answered ∈ history, answered.2 = id →
      answered.1 = name)
    (below : ∀ answered ∈ history, answered.2 < maxModuleCount)
    (begins : ∃ longer ∈ history.map Prod.fst, name.chars <+: longer.chars) :
    name ∈ history.map Prod.fst := by
  obtain ⟨_, member, begins⟩ := begins
  obtain ⟨longer, used, rfl⟩ := List.mem_map.mp member
  obtain ⟨inside, entry⟩ := recorded.begins_entry used begins
  obtain ⟨first, -, looked⟩ :=
    lookup_le (below longer used) inside (named.compared_eq ▸ entry)
  obtain ⟨-, firstInside, -⟩ := lookup_eq_some_iff.mp looked
  obtain ⟨owner, -, owns⟩ := recorded.used first firstInside
  exact List.mem_map.mpr ⟨(owner, first), owns, owned first looked (owner, first) owns rfl⟩

/-- A name that is found keeps the table, and the answer is an entry that the name begins. -/
theorem attached (recorded : Recorded history table) (named : ModuleNamed name)
    (found : lookup table name = some id) : Recorded ((name, id) :: history) table := by
  obtain ⟨bound, inside, begins, first⟩ := lookup_eq_some_iff.mp found
  constructor
  case named => exact List.forall_mem_cons.mpr ⟨named, recorded.named⟩
  case begins => exact List.forall_mem_cons.mpr ⟨⟨inside, named.compared_eq ▸ begins⟩, recorded.begins⟩
  case used =>
    intro index inside
    obtain ⟨owner, same, owns⟩ := recorded.used index inside
    exact ⟨owner, same, List.mem_cons_of_mem _ owns⟩
  case apart =>
    rintro ⟨head, shorter⟩ few
    have fewer : (history.map Prod.fst).toFinset.card ≤ maxModuleCount :=
      Nat.le_trans (card_tail name _) few
    obtain ⟨room, apart, entries⟩ := recorded.apart shorter fewer
    refine ⟨room, apart, List.forall_mem_cons.mpr ⟨?_, entries⟩⟩
    obtain ⟨owner, same, owns⟩ := recorded.used id inside
    have usedBefore : name ∈ history.map Prod.fst := by
      apply head
      refine ⟨owner, List.mem_map.mpr ⟨(owner, id), owns, rfl⟩, ?_⟩
      rw [same]
      exact named.compared_eq ▸ begins
    obtain ⟨before, answered, rfl⟩ := List.mem_map.mp usedBefore
    have entry := entries before answered
    have beforeInside := (List.getElem?_eq_some_iff.mp entry).1
    have looked := lookup_self apart (Nat.lt_of_lt_of_le beforeInside room) named entry
    rw [found, Option.some.injEq] at looked
    exact looked ▸ entry
  case ordered =>
    intro injective below
    obtain ⟨-, later⟩ := List.forall_mem_cons.mp below
    refine ⟨fun longer => ?_, recorded.ordered (fun first member second other =>
      injective first (List.mem_cons_of_mem _ member) second (List.mem_cons_of_mem _ other)) later⟩
    refine recorded.used_of_begins named ?_ later longer
    intro first looked answered member same
    rw [found, Option.some.injEq] at looked
    exact injective answered (List.mem_cons_of_mem _ member) (name, id) List.mem_cons_self
      (same.trans looked.symm)

/-- A name that is not found is appended, and the answer is the entry behind all others. -/
theorem appended (recorded : Recorded history table) (named : ModuleNamed name)
    (absent : lookup table name = none) :
    Recorded ((name, table.length) :: history) (table ++ [name.chars]) := by
  have kept : ∀ answered ∈ history, ∃ inside : answered.2 < (table ++ [name.chars]).length,
      answered.1.chars <+: (table ++ [name.chars])[answered.2] := by
    intro answered member
    obtain ⟨inside, begins⟩ := recorded.begins answered member
    refine ⟨by rw [List.length_append]; omega, ?_⟩
    rw [List.getElem_append_left inside]
    exact begins
  constructor
  case named => exact List.forall_mem_cons.mpr ⟨named, recorded.named⟩
  case begins =>
    refine List.forall_mem_cons.mpr ⟨⟨by simp, ?_⟩, kept⟩
    rw [List.getElem_concat_length rfl]
  case used =>
    intro index inside
    by_cases last : index = table.length
    · subst last
      exact ⟨name, by rw [List.getElem_concat_length rfl], List.mem_cons_self⟩
    · have before : index < table.length := by
        rw [List.length_append, List.length_singleton] at inside
        omega
      obtain ⟨owner, same, owns⟩ := recorded.used index before
      refine ⟨owner, ?_, List.mem_cons_of_mem _ owns⟩
      rw [List.getElem_append_left before]
      exact same
  case apart =>
    rintro ⟨head, shorter⟩ few
    have fewer : (history.map Prod.fst).toFinset.card ≤ maxModuleCount :=
      Nat.le_trans (card_tail name _) few
    obtain ⟨room, apart, entries⟩ := recorded.apart shorter fewer
    have stillApart : (table ++ [name.chars]).Pairwise (fun first later => ¬ later <+: first) := by
      refine List.pairwise_append.mpr ⟨apart, List.pairwise_singleton _ _, ?_⟩
      intro stored member added isName
      obtain ⟨index, inside, rfl⟩ := List.mem_iff_getElem.mp member
      rw [List.mem_singleton.mp isName, ← named.compared_eq]
      exact lookup_eq_none_iff.mp absent index inside (Nat.lt_of_lt_of_le inside room)
    refine ⟨?_, stillApart, List.forall_mem_cons.mpr ⟨?_, ?_⟩⟩
    · refine Nat.le_trans (length_le_card stillApart ?_) few
      intro stored member
      rcases List.mem_append.mp member with before | added
      · obtain ⟨index, inside, rfl⟩ := List.mem_iff_getElem.mp before
        obtain ⟨owner, same, owns⟩ := recorded.used index inside
        exact ⟨owner, List.mem_cons_of_mem _ (List.mem_map.mpr ⟨_, owns, rfl⟩), same⟩
      · exact ⟨name, List.mem_cons_self, (List.mem_singleton.mp added).symm⟩
    · exact List.getElem?_concat_length
    · intro answered member
      have entry := entries answered member
      rw [List.getElem?_append_left (List.getElem?_eq_some_iff.mp entry).1]
      exact entry
  case ordered =>
    intro injective below
    obtain ⟨-, later⟩ := List.forall_mem_cons.mp below
    refine ⟨fun longer => ?_, recorded.ordered (fun first member second other =>
      injective first (List.mem_cons_of_mem _ member) second (List.mem_cons_of_mem _ other)) later⟩
    refine recorded.used_of_begins named ?_ later longer
    intro first looked
    rw [absent] at looked
    cases looked

end Recorded

/-! ## Runs -/

/-- A table and its answers that the registry has come to. -/
def Registry.Kept (registry : Registry) : Prop :=
  ∃ table, Tabled registry.ring table ∧ Recorded registry.history table

/-- The registry starts with an empty table and no answers. -/
theorem kept_zero : Registry.zero.Kept := ⟨[], tabled_zero, recorded_nil⟩

/-- A call of `InitRing` with a module name finds its entry or adds one, and what the answers say of
the table stays right. -/
theorem Registry.Kept.step {registry next : Registry} {call : InitCall} (kept : registry.Kept)
    (stepped : registry.step call = some next) : next.Kept := by
  obtain ⟨table, tabled, recorded⟩ := kept
  simp only [Registry.step] at stepped
  split at stepped
  · cases stepped
  rename_i name given
  split at stepped
  · rename_i named
    split at stepped
    · cases stepped
    · rename_i id ring done
      cases stepped
      have opened := tabled.opened call
      have reopened : Recorded (if call.reset then [] else registry.history)
          (if call.reset then [] else table) := by
        split
        · exact recorded_nil
        · exact recorded
      rcases opened.initRing named given done with ⟨found, after⟩ | ⟨absent, rfl, after⟩
      · exact ⟨_, after, reopened.attached named found⟩
      · exact ⟨_, after, reopened.appended named absent⟩
  · cases stepped

/-- So the table and the answers go together after every run of calls. -/
theorem registry_kept (calls : List InitCall) (final : Registry)
    (ran : Runs.run Registry.step Registry.zero calls = some final) : final.Kept :=
  Runs.run_invariant Registry.step Registry.Kept (fun _ _ _ kept stepped => kept.step stepped)
    Registry.zero final calls kept_zero ran

section Identity

variable {registry : Registry} {table : List (List UInt8)}

/-- Ids that tell the names apart belong to separable names. -/
theorem Identified.separable (identified : Identified registry) (tabled : Tabled registry.ring table)
    (recorded : Recorded registry.history table) : Separable registry.names := by
  have looked : ∀ answered ∈ registry.history, lookup table answered.1 = some answered.2 := by
    intro answered member
    rw [← tabled.entries.findModule_eq]
    exact identified.found answered member
  have below : ∀ answered ∈ registry.history, answered.2 < maxModuleCount :=
    fun answered member => (lookup_eq_some_iff.mp (looked answered member)).1
  constructor
  case few =>
    have ids : ∀ name ∈ registry.names.toFinset, (lookup table name).getD 0 < maxModuleCount := by
      intro name member
      obtain ⟨answered, used, rfl⟩ := List.mem_map.mp (List.mem_toFinset.mp member)
      rw [looked answered used]
      exact below answered used
    have distinct : Set.InjOn (fun name => (lookup table name).getD 0) registry.names.toFinset := by
      intro first firstMember second secondMember same
      obtain ⟨one, oneUsed, rfl⟩ := List.mem_map.mp (List.mem_toFinset.mp firstMember)
      obtain ⟨other, otherUsed, rfl⟩ := List.mem_map.mp (List.mem_toFinset.mp secondMember)
      simp only [looked one oneUsed, looked other otherUsed, Option.getD_some] at same
      exact (identified.ids one oneUsed other otherUsed).mp same
    have bounded := Finset.card_le_card_of_injOn _
      (fun name member => Finset.mem_range.mpr (ids name member)) distinct
    rwa [Finset.card_range] at bounded
  case shorterFirst =>
    apply recorded.ordered
    · exact fun first member second other => (identified.ids first member second other).mp
    · exact below
  case closed =>
    intro name member beginning nonempty begins
    by_contra unused
    obtain ⟨answered, used, rfl⟩ := List.mem_map.mp member
    have short := (recorded.named answered used).short
    have named : ModuleNamed beginning :=
      ⟨nonempty, Nat.lt_of_le_of_lt begins.length_le short⟩
    obtain ⟨inside, entry⟩ := recorded.begins_entry used begins
    obtain ⟨first, -, found⟩ :=
      lookup_le (below answered used) inside (named.compared_eq ▸ entry)
    have absent := identified.unknown beginning named unused
    rw [getMyID, tabled.entries.findModule_eq, found] at absent
    cases absent

/-- Separable names are told apart: none is the beginning of an earlier one. -/
theorem Separable.identified (separable : Separable registry.names)
    (tabled : Tabled registry.ring table) (recorded : Recorded registry.history table) :
    Identified registry := by
  obtain ⟨room, apart, entries⟩ := recorded.apart separable.shorterFirst separable.few
  have looked : ∀ answered ∈ registry.history, lookup table answered.1 = some answered.2 := by
    intro answered member
    have entry := entries answered member
    have inside := (List.getElem?_eq_some_iff.mp entry).1
    exact lookup_self apart (Nat.lt_of_lt_of_le inside room) (recorded.named answered member) entry
  constructor
  case ids =>
    intro first member second other
    constructor
    · intro same
      have firstEntry := entries first member
      rw [same, entries second other, Option.some.injEq] at firstEntry
      exact CString.eq_of_chars firstEntry.symm
    · intro same
      have firstLooked := looked first member
      rw [same, looked second other, Option.some.injEq] at firstLooked
      exact firstLooked.symm
  case found =>
    intro answered member
    rw [getMyID, tabled.entries.findModule_eq]
    exact looked answered member
  case unknown =>
    intro name named unused
    rw [getMyID, tabled.entries.findModule_eq, lookup_eq_none_iff]
    intro index inside _ begins
    obtain ⟨owner, same, owns⟩ := recorded.used index inside
    apply unused
    apply separable.closed owner (List.mem_map.mpr ⟨_, owns, rfl⟩) name named.nonempty
    rw [same, ← named.compared_eq]
    exact begins

end Identity

/-- After any successful calls the ids tell the modules apart, and the names are found under
them and no others, exactly when the names that were used are separable. -/
theorem identified_iff (calls : List InitCall) (final : Registry)
    (ran : Runs.run Registry.step Registry.zero calls = some final) :
    Identified final ↔ Separable final.names := by
  obtain ⟨table, tabled, recorded⟩ := registry_kept calls final ran
  constructor
  · exact fun identified => identified.separable tabled recorded
  · exact fun separable => separable.identified tabled recorded

/-- A name that begins with that of `nameA`, by which the example shows the lookup by prefix. -/
def nameAB : CString := ⟨[65, 66], by simp⟩

/-- A name, a longer one that begins with it, and the first one again: in this order the ids tell
the two names apart. -/
theorem identified_shorter_first :
    ∃ final, Runs.run Registry.step Registry.zero
        [namedCall nameA, namedCall nameAB, namedCall nameA] = some final ∧
      final.history = [(nameA, 0), (nameAB, 1), (nameA, 0)] ∧ Identified final := by
  refine ⟨_, rfl, rfl, ?_⟩
  apply (identified_iff [namedCall nameA, namedCall nameAB, namedCall nameA] _ rfl).mpr
  have whole : ∀ beginning : CString, beginning.chars ≠ [] → beginning.chars <+: nameAB.chars →
      beginning ∈ [nameA, nameAB, nameA] := by
    intro beginning nonempty begins
    rcases List.prefix_cons_iff.mp begins with empty | ⟨rest, same, restBegins⟩
    · exact absurd empty nonempty
    · rcases List.prefix_cons_iff.mp restBegins with rfl | ⟨_, rfl, nothing⟩
      · exact List.mem_cons.mpr (.inl (CString.eq_of_chars same))
      · rw [List.prefix_nil.mp nothing] at same
        exact List.mem_cons_of_mem _ (List.mem_cons.mpr (.inl (CString.eq_of_chars same)))
  constructor
  case few => exact Nat.le_trans (List.toFinset_card_le _) (by decide)
  case shorterFirst =>
    exact ⟨fun _ => List.mem_cons_of_mem _ List.mem_cons_self, by decide, by decide, trivial⟩
  case closed =>
    intro name member beginning nonempty begins
    have shorter : name.chars <+: nameAB.chars := by
      rcases List.mem_cons.mp member with rfl | member
      · exact ⟨[66], rfl⟩
      · rcases List.mem_cons.mp member with rfl | member
        · exact List.prefix_refl _
        · rw [List.mem_singleton.mp member]
          exact ⟨[66], rfl⟩
    exact whole beginning nonempty (begins.trans shorter)

/-- The longer name first: the shorter one is given its id, because as many characters are compared
as the shorter name has. -/
theorem shorter_name_shares_id :
    ∃ final, Runs.run Registry.step Registry.zero [namedCall nameAB, namedCall nameA] = some final ∧
      final.history = [(nameA, 0), (nameAB, 0)] ∧ ¬ Identified final := by
  refine ⟨_, rfl, rfl, ?_⟩
  intro identified
  have same := (identified.ids (nameA, 0) List.mem_cons_self (nameAB, 0)
    (List.mem_cons_of_mem _ List.mem_cons_self)).mp rfl
  have chars : nameA.chars = nameAB.chars := congrArg CString.chars same
  cases chars

end OpenTaker

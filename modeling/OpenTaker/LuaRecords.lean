import OpenTaker.LuaTables

/-!
# Records of a table of tables

`loadRecords` walks over a table and, inside of it, over each entry that is a table itself.
Both walks keep the key they stand at on the stack, the inner one below a copy of the
outer key. Together they compute a plain function of the entries, and leave the outer table
on the stack.

Before a walk the value of the key nil is asked for, which no table has; a metatable may
answer for it, and then the walk cannot begin.
-/

namespace OpenTaker.CLua

open CStrings StackMachines

variable {Number : Type} {lua : LuaLibrary Number}
  {stack : List (LuaValue Number)} {lowest : Nat} {world : LuaWorld Number}

/-- The name and the text of a field of a record. A key without a text counts as the empty
string, and so does a value that is no string, number or truth value. -/
def recordField (lua : LuaLibrary Number) (entry : LuaValue Number × LuaValue Number) : Text × Text :=
  ((plainText lua entry.1).getD [], (fieldText lua entry.2).getD [])

/-- The record of some entries: their fields in the order of the walk. -/
def recordOf (lua : LuaLibrary Number) (entries : List (LuaValue Number × LuaValue Number)) : LuaObject :=
  (entries.map (recordField lua)).foldl (fun record field => record.insert field.1 field.2) ∅

/-- The record that an entry gives: that of a table which is not empty. -/
def entryRecord (lua : LuaLibrary Number) (world : LuaWorld Number)
    (entry : LuaValue Number × LuaValue Number) : Option LuaObject :=
  match entry.2 with
  | .table address =>
      if (world.tables address).entries.isEmpty then none
      else some (recordOf lua (world.tables address).entries)
  | _ => none

/-- The record of more entries is the record of the first ones with the fields of the others added. -/
theorem recordOf_concat (entries : List (LuaValue Number × LuaValue Number))
    (entry : LuaValue Number × LuaValue Number) :
    recordOf lua (entries ++ [entry]) =
      (recordOf lua entries).insert (recordField lua entry).1 (recordField lua entry).2 := by
  rw [recordOf, List.map_append, List.foldl_append]
  rfl

/-- A record is empty just where the table is. -/
theorem recordOf_isEmpty (entries : List (LuaValue Number × LuaValue Number)) :
    (recordOf lua entries).entries.isEmpty = entries.isEmpty := by
  rw [recordOf, foldl_insert_isEmpty, List.isEmpty_map]
  rfl

/-! ## The inner walk -/

/-- The text of the value of a record's field, or the empty text. The value may be left as its text. -/
theorem recordText_value (lua : LuaLibrary Number) (key value : LuaValue Number)
    (stack : List (LuaValue Number)) (lowest : Nat) (world : LuaWorld Number) : ∃ left,
      recordText lua ⟨key :: value :: stack, lowest, world⟩ =
        some ((fieldText lua value).getD [], ⟨key :: left :: stack, lowest, world⟩) := by
  cases value with
  | nil | boolean | number | string | table | other => exact ⟨_, rfl⟩

/-- The body of the inner loop takes the value of the entry and inserts its field. -/
theorem recordEntry_value (lua : LuaLibrary Number) (world : LuaWorld Number)
    (above : lowest ≤ stack.length + 1) (entry : LuaValue Number × LuaValue Number)
    (record : LuaObject) :
    recordEntry lua record ⟨entry.2 :: entry.1 :: stack, lowest, world⟩ =
      some (record.insert (recordField lua entry).1 (recordField lua entry).2,
        ⟨entry.1 :: stack, lowest, world⟩) := by
  obtain ⟨left, ran⟩ :=
    recordText_value lua (entry.1.converted lua) entry.2 (entry.1 :: stack) lowest world
  have popped : pop 2 ⟨entry.1.converted lua :: left :: entry.1 :: stack, lowest, world⟩ =
      some ((), ⟨entry.1 :: stack, lowest, world⟩) := pop_two _ _ above
  exact (bind_of_run (pushvalue_run ..)).trans ((bind_of_run (tostring_top _)).trans
    ((bind_of_run ran).trans (bind_of_run popped)))

variable [DecidableEq Number]

/-- A walk over a table that stands below other values, with a body that takes the value of
each entry of the table. -/
theorem whileNext_below {β : Type} {body : β → LuaAction Number β} (stack : List (LuaValue Number))
    (known : List (LuaValue Number × LuaValue Number) → β → Prop) (world : LuaWorld Number)
    (address : Nat) (between : List (LuaValue Number))
    (above : lowest ≤ (between ++ .table address :: stack).length)
    (runs : ∀ seen, ∀ entry ∈ (world.tables address).entries, ∀ value, known seen value →
      ∃ result, body value ⟨entry.2 :: entry.1 :: (between ++ .table address :: stack), lowest, world⟩ =
        some (result, ⟨entry.1 :: (between ++ .table address :: stack), lowest, world⟩) ∧
          known (seen ++ [entry]) result)
    (value : β) (holds : known [] value) :
    ∃ result, whileNext (between.length + 2) body value
        ⟨.nil :: (between ++ .table address :: stack), lowest, world⟩ =
      some (result, ⟨between ++ .table address :: stack, lowest, world⟩) ∧
        known (world.tables address).entries result := by
  have stands : (between ++ LuaValue.table address :: stack)[between.length]? =
      some (.table address) := by simp
  have lowestKept : min lowest (between ++ LuaValue.table address :: stack).length = lowest :=
    Nat.min_eq_left above
  refine repeatWhile_run (world.tables address).entries
    (fun seen => ⟨lastKey seen :: (between ++ .table address :: stack), lowest, world⟩) known ?_ ?_ _ []
      _ value rfl holds ?_
  · simp only [next, Nat.add_one_sub_one, List.getElem?_cons_succ, stands,
      following_lastKey _ (List.append_nil _).symm, List.head?_nil, lowestKept]
  · intro seen entry rest split
    have member : entry ∈ (world.tables address).entries := by simp [split]
    refine ⟨⟨entry.2 :: entry.1 :: (between ++ .table address :: stack), lowest, world⟩, ?_,
      fun value known => ?_⟩
    · simp only [next, Nat.add_one_sub_one, List.getElem?_cons_succ, stands,
        following_lastKey _ split, List.head?_cons, lowestKept]
    · obtain ⟨result, ran, kept⟩ := runs seen entry member value known
      exact ⟨result, by simpa [lastKey] using ran, kept⟩
  · simp only [rounds, Nat.add_one_sub_one, List.getElem?_cons_succ, stands]
    exact Nat.lt_succ_self _

/-- No metatable answers for the key nil, so that a walk which has lost its key finds nothing under
it. -/
def AnswersNil (world : LuaWorld Number) (address : Nat) : Prop :=
  (world.tables address).missing .nil = .nil

omit [DecidableEq Number] in
/-- No entry of a table has nil for its key, so that a walk begins in front of the first one. -/
theorem find_nil (table : LuaTable Number) (isNil : LuaValue Number → Bool)
    (recognises : ∀ value, isNil value = true → value = .nil) :
    table.entries.find? (fun entry => isNil entry.1) = none := by
  rw [List.find?_eq_none]
  intro entry member found
  exact table.keysNotNil (recognises entry.1 found ▸ List.mem_map_of_mem member)

/-- The key nil has no value then, neither in the table nor by a metatable. -/
theorem field_nil {address : Nat} (answers : AnswersNil world address) :
    (world.tables address).field .nil = .nil := by
  rw [LuaTable.field, find_nil _ (fun value => decide (value = .nil)) fun _ => of_decide_eq_true]
  exact answers

/-- The branch of a table appends its record, if it is not empty. -/
theorem tableRecord_value (records : List LuaObject) (world : LuaWorld Number) (address : Nat)
    (copy : LuaValue Number) (above : lowest ≤ stack.length) (answers : AnswersNil world address) :
    tableRecord lua records ⟨copy :: .table address :: stack, lowest, world⟩ =
      some (records ++ (if (world.tables address).entries.isEmpty then none
          else some (recordOf lua (world.tables address).entries)).toList,
        ⟨copy :: .table address :: stack, lowest, world⟩) := by
  obtain ⟨record, ran, known⟩ := whileNext_below stack
    (fun seen record => record = recordOf lua seen) world address [copy]
    (Nat.le_succ_of_le (Nat.le_succ_of_le above)) (by
      intro seen entry _ record known
      have inside : lowest ≤ (copy :: LuaValue.table address :: stack).length + 1 :=
        Nat.le_succ_of_le (Nat.le_succ_of_le (Nat.le_succ_of_le above))
      refine ⟨_, recordEntry_value lua world inside entry record, ?_⟩
      rw [known, recordOf_concat]) ∅ rfl
  have walked : whileNext 3 (recordEntry lua) ∅ ⟨.nil :: copy :: .table address :: stack, lowest, world⟩ =
      some (record, ⟨copy :: .table address :: stack, lowest, world⟩) := ran
  have asked : gettable 3 ⟨.nil :: copy :: .table address :: stack, lowest, world⟩ =
      some ((), ⟨.nil :: copy :: .table address :: stack, lowest, world⟩) := by
    have found : gettable 3 ⟨.nil :: copy :: .table address :: stack, lowest, world⟩ =
        some ((), ⟨(world.tables address).field .nil :: copy :: .table address :: stack, lowest, world⟩) := rfl
    rw [found, field_nil answers]
  rw [tableRecord, pushnil, bind_of_run (push_run _ _), bind_of_run asked, bind_of_run walked,
    known, recordOf_isEmpty]
  cases (world.tables address).entries.isEmpty <;> simp

/-! ## The outer walk -/

/-- The body of the outer loop takes the value of the entry and appends its record. -/
theorem recordsEntry_value (lua : LuaLibrary Number) (world : LuaWorld Number)
    (above : lowest ≤ stack.length) (entry : LuaValue Number × LuaValue Number) (records : List LuaObject)
    (answers : ∀ address, entry.2 = .table address → AnswersNil world address) :
    recordsEntry lua records ⟨entry.2 :: entry.1 :: stack, lowest, world⟩ =
      some (records ++ (entryRecord lua world entry).toList, ⟨entry.1 :: stack, lowest, world⟩) := by
  have inside : lowest ≤ (entry.1 :: stack).length := Nat.le_succ_of_le above
  have branch : (if entry.2.isTable then tableRecord lua records else pure records)
      ⟨entry.1.converted lua :: entry.2 :: entry.1 :: stack, lowest, world⟩ =
        some (records ++ (entryRecord lua world entry).toList,
          ⟨entry.1.converted lua :: entry.2 :: entry.1 :: stack, lowest, world⟩) := by
    rw [entryRecord]
    cases value : entry.2 with
    | table address =>
      exact tableRecord_value records world address (entry.1.converted lua) inside
        (answers address value)
    | nil | boolean | number | string | other =>
      simp [LuaValue.isTable]
  rw [recordsEntry, bind_of_run (pushvalue_run ..), bind_of_run (tostring_top _),
    bind_of_run (peek_second ..), bind_of_run branch, bind_of_run (pop_two _ _ inside)]
  rfl

/-- The branch of a table appends the records of its entries and leaves the table. -/
theorem tableRecords_values (records : List LuaObject) (world : LuaWorld Number) (address : Nat)
    (above : lowest ≤ stack.length) (answers : AnswersNil world address)
    (inner : ∀ entry ∈ (world.tables address).entries, ∀ other, entry.2 = .table other →
      AnswersNil world other) :
    tableRecords lua records ⟨.table address :: stack, lowest, world⟩ =
      some (records ++ (world.tables address).entries.filterMap (entryRecord lua world),
        ⟨.table address :: stack, lowest, world⟩) := by
  obtain ⟨done, ran, known⟩ := whileNext_below stack
    (fun seen done => done = records ++ seen.filterMap (entryRecord lua world)) world address []
    (Nat.le_succ_of_le above) (by
      intro seen entry member done known
      refine ⟨_, recordsEntry_value lua world (Nat.le_succ_of_le above) entry done
        (inner entry member), ?_⟩
      rw [known, List.filterMap_append, List.append_assoc]
      cases isRecord : entryRecord lua world entry <;> simp [isRecord]) records (by simp)
  have asked : gettable 2 ⟨.nil :: .table address :: stack, lowest, world⟩ =
      some ((), ⟨.nil :: .table address :: stack, lowest, world⟩) := by
    rw [gettable_run, field_nil answers]
  have walked : whileNext 2 (recordsEntry lua) records ⟨.nil :: .table address :: stack, lowest, world⟩ =
      some (done, ⟨.table address :: stack, lowest, world⟩) := ran
  rw [tableRecords, pushnil, bind_of_run (push_run _ _), bind_of_run asked, walked, known]

/-- The tables that a load of records asks for nil: the global, and those among its values. -/
def Walked (machine : LuaState Number) (tableName : Text) (address : Nat) : Prop :=
  machine.world.globals (cString tableName) = .table address ∨
    ∃ entry ∈ tableEntries machine tableName, entry.2 = .table address

/-- `loadRecords` appends a record for each entry of the global that is a table with entries, in
their order, whenever no metatable answers for nil. The text of a key in a record is that of
the last field with this name. The value of the global is left on the stack. -/
theorem records_loaded (lua : LuaLibrary Number) (machine : LuaState Number)
    (above : machine.lowest ≤ machine.stack.length) (tableName : Text) (records : List LuaObject)
    (answers : ∀ address, Walked machine tableName address → AnswersNil machine.world address) :
    loadRecords lua (some tableName) records machine =
        some ((true, records ++
            (tableEntries machine tableName).filterMap (entryRecord lua machine.world)),
          { machine with
            stack := machine.world.globals (cString tableName) :: machine.stack }) ∧
      ∀ address key, (recordOf lua (machine.world.tables address).entries).lookup key =
        ((machine.world.tables address).entries.map (recordField lua)).reverse.lookup key := by
  have branch : (if globalIsTable machine tableName then tableRecords lua records else pure records)
        ⟨machine.world.globals (cString tableName) :: machine.stack, machine.lowest, machine.world⟩ =
      some (records ++ (tableEntries machine tableName).filterMap (entryRecord lua machine.world),
        ⟨machine.world.globals (cString tableName) :: machine.stack, machine.lowest, machine.world⟩) := by
    cases isTable : globalIsTable machine tableName with
    | true =>
      obtain ⟨address, isAddress⟩ := exists_address isTable
      have inner : ∀ entry ∈ (machine.world.tables address).entries, ∀ other,
          entry.2 = .table other → AnswersNil machine.world other := by
        intro entry member other value
        refine answers other (.inr ⟨entry, ?_, value⟩)
        simpa only [tableEntries, isAddress] using member
      simp only [tableEntries, isAddress, if_true]
      exact tableRecords_values records machine.world address above (answers address (.inl isAddress))
        inner
    | false =>
      rw [if_neg Bool.false_ne_true, tableEntries_of_no_table isTable]
      simp
  unfold globalIsTable at branch
  refine ⟨?_, fun address key => ?_⟩
  · rw [loadRecords, bind_of_run (getglobal_run ..), bind_of_run (peek_top _), bind_of_run branch]
    rfl
  · rw [recordOf, lookup_foldl_insert]
    simp

/-- A table with a record, a number and an empty table. -/
def recordTables : Nat → LuaTable Int
  | 0 => {
      entries := [(.number 1, .table 1), (.number 2, .number 5), (.number 3, .table 2)]
      missing _ := .nil
      distinct := by decide
      keysNotNil := by decide }
  | 1 => twoFields
  | _ => { entries := [], missing _ := .nil, distinct := List.nodup_nil, keysNotNil := List.not_mem_nil }

/-- A table with one record is loaded, and the table itself stays on the stack, as the source
forgets to pop it. -/
theorem records_loaded_one :
    loadRecords LuaCall.integerLua (some [116]) [] ⟨[], 0, fun _ => .table 0, recordTables⟩ =
      some ((true, [recordOf LuaCall.integerLua twoFields.entries]),
        ⟨[.table 0], 0, fun _ => .table 0, recordTables⟩) :=
  (records_loaded LuaCall.integerLua ⟨[], 0, fun _ => .table 0, recordTables⟩ (Nat.le_refl 0) [116] []
    fun address _ => match address with
      | 0 | 1 | _ + 2 => rfl).1

end OpenTaker.CLua

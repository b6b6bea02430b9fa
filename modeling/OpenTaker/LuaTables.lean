import OpenTaker.LuaBalance
import Mathlib.Data.List.Induction

/-!
# What is loaded from tables

The walks of `CLua` over a table, by pushes and pops, compute what plain functions of the
entries of the table do: an array is the values that can be read, in their order, and an object
has for each key the value of the last field whose name is that key in lower case.
-/

namespace OpenTaker.CLua

open CStrings StackMachines

variable {Number : Type} {lua : LuaLibrary Number}
  {stack : List (LuaValue Number)} {lowest : Nat} {world : LuaWorld Number}

/-! ## Arrays -/

/-- A reader makes the same of each value wherever it stands. -/
def ReadsAs {β : Type} (read : LuaValue Number → LuaAction Number β) (plain : LuaValue Number → β) : Prop :=
  ∀ top stack lowest world, ∃ left,
    read top ⟨top :: stack, lowest, world⟩ = some (plain top, ⟨left :: stack, lowest, world⟩)

/-- The body of the loop of an array appends what the value of the entry reads as. -/
theorem arrayEntry_value {β : Type} {read : LuaValue Number → LuaAction Number (Option β)}
    {plain : LuaValue Number → Option β} (reads : ReadsAs read plain) (world : LuaWorld Number)
    (above : lowest ≤ stack.length) (top : LuaValue Number) (done : Bool × List β) :
    arrayEntry read done ⟨top :: stack, lowest, world⟩ =
      some ((true, done.2 ++ (plain top).toList), ⟨stack, lowest, world⟩) := by
  obtain ⟨left, ran⟩ := reads top stack lowest world
  rw [arrayEntry, bind_of_run (peek_top _), bind_of_run ran, bind_of_run (pop_one _ above)]
  rfl

/-- The text of a value, as a field shows it, or none. -/
def plainText (lua : LuaLibrary Number) (value : LuaValue Number) : Option Text :=
  (value.toText lua).map cString

/-- The reader of texts gives the plain text of the value, with the test for its type in front. -/
theorem readText_plain (lua : LuaLibrary Number) :
    ReadsAs (fun top => if (top.toText lua).isSome then tostring lua 1 else pure none)
      (plainText lua) := by
  intro top stack lowest world
  simp only [plainText]
  cases isText : top.toText lua with
  | none => exact ⟨top, rfl⟩
  | some text =>
    refine ⟨top.converted lua, ?_⟩
    simp only [Option.isSome_some, if_true, tostring_top, isText]

/-- A reader that only looks gives what it looks for, with no effect in between. -/
theorem pure_plain {β : Type} (plain : LuaValue Number → β) :
    ReadsAs (fun top => pure (plain top)) plain :=
  fun top _ _ _ => ⟨top, rfl⟩

/-! ## Objects -/

/-- The last of the fields inserted under a name counts. -/
theorem lookup_foldl_insert (fields : List (Text × Text)) (obj : LuaObject) (key : Text) :
    (fields.foldl (fun obj field => obj.insert field.1 field.2) obj).lookup key =
      (fields.reverse.lookup key).or (obj.lookup key) := by
  induction fields using List.reverseRecOn with
  | nil => rfl
  | append_singleton fields field inductionHypothesis =>
    obtain ⟨name, text⟩ := field
    rw [List.foldl_append, List.foldl_cons, List.foldl_nil, List.reverse_append, List.reverse_singleton,
      List.singleton_append, List.lookup_cons]
    by_cases same : key = name
    · rw [same, AList.lookup_insert, beq_self_eq_true, Option.some_or]
    · rw [AList.lookup_insert_ne same, inductionHypothesis, beq_false_of_ne same]

/-- An object stays empty just where nothing is inserted. -/
theorem foldl_insert_isEmpty (fields : List (Text × Text)) (obj : LuaObject) :
    (fields.foldl (fun obj field => obj.insert field.1 field.2) obj).entries.isEmpty =
      (obj.entries.isEmpty && fields.isEmpty) := by
  induction fields generalizing obj with
  | nil => simp
  | cons field fields inductionHypothesis =>
    rw [List.foldl_cons, inductionHypothesis]
    simp

/-- The text of the value of a field, where a boolean has the text of its name. -/
def fieldText (lua : LuaLibrary Number) : LuaValue Number → Option Text
  | .boolean value => some (boolText value)
  | value => plainText lua value

/-- The name of a field in lower case, and its text. -/
def fieldOf (lua : LuaLibrary Number) (entry : LuaValue Number × LuaValue Number) : Option (Text × Text) :=
  (plainText lua entry.1).bind fun key =>
    (fieldText lua entry.2).map fun value => (key.map tolower, value)

/-- An object with the fields of some entries, a later one over an earlier one of the same name. -/
def addFields (lua : LuaLibrary Number) (entries : List (LuaValue Number × LuaValue Number))
    (obj : LuaObject) : LuaObject :=
  (entries.filterMap (fieldOf lua)).foldl (fun obj field => obj.insert field.1 field.2) obj

/-- The text of the value of a field, read in a walk. What is left in its place may be its text, as
`lua_tostring` converts in place. -/
theorem valueText_value (lua : LuaLibrary Number) (key value : LuaValue Number)
    (stack : List (LuaValue Number)) (lowest : Nat) (world : LuaWorld Number) : ∃ left,
      valueText lua ⟨key :: value :: stack, lowest, world⟩ =
        some (fieldText lua value, ⟨key :: left :: stack, lowest, world⟩) := by
  cases value with
  | nil | boolean | number | table | other => exact ⟨_, rfl⟩
  | string text =>
    have ran : tostring lua 2 ⟨key :: .string text :: stack, lowest, world⟩ =
        some (some (cString text), ⟨key :: .string text :: stack, lowest, world⟩) := rfl
    refine ⟨.string text, ?_⟩
    rw [valueText, bind_of_run (peek_second ..)]
    split
    · exact ran
    · exact ran

/-- Fields are added from left to right, so that a later one of the same name wins. -/
theorem addFields_append (first second : List (LuaValue Number × LuaValue Number)) (obj : LuaObject) :
    addFields lua (first ++ second) obj = addFields lua second (addFields lua first obj) := by
  rw [addFields, List.filterMap_append, List.foldl_append]
  rfl

/-- One turn of the walk adds the field of its entry, if it has one, and pops the value. -/
theorem objectEntry_value (lua : LuaLibrary Number) (world : LuaWorld Number)
    (above : lowest ≤ stack.length + 1) (entry : LuaValue Number × LuaValue Number) (done : Bool × LuaObject) :
    objectEntry lua done ⟨entry.2 :: entry.1 :: stack, lowest, world⟩ =
      some ((done.1 || (fieldOf lua entry).isSome, addFields lua [entry] done.2),
        ⟨entry.1 :: stack, lowest, world⟩) := by
  obtain ⟨left, ran⟩ :=
    valueText_value lua (entry.1.converted lua) entry.2 (entry.1 :: stack) lowest world
  have popped : pop 2 ⟨entry.1.converted lua :: left :: entry.1 :: stack, lowest, world⟩ =
      some ((), ⟨entry.1 :: stack, lowest, world⟩) := pop_two _ _ above
  refine ((bind_of_run (pushvalue_run ..)).trans ((bind_of_run (tostring_top _)).trans
    ((bind_of_run ran).trans (bind_of_run popped)))).trans ?_
  have key : (entry.1.toText lua).map cString = plainText lua entry.1 := rfl
  rw [key, addFields, fieldOf]
  cases isKey : plainText lua entry.1 with
  | none => simp [fieldOf, isKey]
  | some name => cases isText : fieldText lua entry.2 <;> simp [fieldOf, isKey, isText]

variable [DecidableEq Number]

/-- A walk for an array appends what the values read as. -/
theorem tableArray_values {β : Type} {read : LuaValue Number → LuaAction Number (Option β)}
    {plain : LuaValue Number → Option β} (reads : ReadsAs read plain) (vec : List β)
    (world : LuaWorld Number) (address : Nat) (above : lowest ≤ stack.length) :
    tableArray read vec ⟨.table address :: stack, lowest, world⟩ =
      some ((!(world.tables address).entries.isEmpty,
          vec ++ (world.tables address).entries.filterMap fun entry => plain entry.2),
        ⟨.table address :: stack, lowest, world⟩) := by
  obtain ⟨done, ran, known⟩ := whileNext_run
    (fun seen done => done = (!seen.isEmpty, vec ++ seen.filterMap fun entry => plain entry.2))
    world address (Nat.le_succ_of_le above) (by
      intro seen entry value known
      have inside : lowest ≤ (entry.1 :: LuaValue.table address :: stack).length :=
        Nat.le_succ_of_le (Nat.le_succ_of_le above)
      refine ⟨_, arrayEntry_value reads world inside entry.2 value, ?_⟩
      rw [known, List.filterMap_append, List.append_assoc]
      cases isPlain : plain entry.2 <;> simp [isPlain]) (false, vec) (by simp)
  rw [← known]
  exact ran

omit [DecidableEq Number] in
/-- A global that is no table has no entries. -/
theorem tableEntries_of_no_table {machine : LuaState Number} {name : Text}
    (isTable : globalIsTable machine name = false) : tableEntries machine name = [] := by
  unfold globalIsTable at isTable
  unfold tableEntries
  split
  · rename_i isAddress
    rw [isAddress] at isTable
    cases isTable
  · rfl

/-- The load of an array: the values of the global that can be read, if it is a table. -/
theorem loadArray_values {β : Type} {read : LuaValue Number → LuaAction Number (Option β)}
    {plain : LuaValue Number → Option β} (reads : ReadsAs read plain) (tableName : Text) (vec : List β)
    (machine : LuaState Number) (above : machine.lowest ≤ machine.stack.length) :
    loadArray read (some tableName) vec machine =
      some ((!(tableEntries machine tableName).isEmpty,
        vec ++ (tableEntries machine tableName).filterMap fun entry => plain entry.2), machine) := by
  have branch : (if globalIsTable machine tableName then tableArray read vec
      else pure (false, vec) : LuaAction Number (Bool × List β))
        ⟨machine.world.globals (cString tableName) :: machine.stack, machine.lowest, machine.world⟩ =
      some ((!(tableEntries machine tableName).isEmpty,
          vec ++ (tableEntries machine tableName).filterMap fun entry => plain entry.2),
        ⟨machine.world.globals (cString tableName) :: machine.stack, machine.lowest, machine.world⟩) := by
    cases isTable : globalIsTable machine tableName with
    | true =>
      obtain ⟨address, isAddress⟩ := exists_address isTable
      simp only [tableEntries, isAddress, if_true]
      exact tableArray_values reads vec machine.world address above
    | false =>
      rw [if_neg Bool.false_ne_true, tableEntries_of_no_table isTable, List.filterMap_nil,
        List.append_nil]
      rfl
  unfold globalIsTable at branch
  rw [loadArray, bind_of_run (height_run _), bind_of_run (getglobal_run ..), bind_of_run (peek_top _),
    bind_of_run branch, bind_of_run (pop_one _ above), bind_of_run (height_run _), decide_eq_true rfl,
    bind_of_run (require_run _)]
  rfl

/-- A table on the stack is read as all its fields, added in the order of the walk. -/
theorem tableObject_fields (obj : LuaObject) (world : LuaWorld Number) (address : Nat)
    (above : lowest ≤ stack.length)
    (filled : (addFields lua (world.tables address).entries obj).entries.isEmpty = false) :
    tableObject lua obj ⟨.table address :: stack, lowest, world⟩ =
      some (((world.tables address).entries.any fun entry => (fieldOf lua entry).isSome,
        addFields lua (world.tables address).entries obj), ⟨.table address :: stack, lowest, world⟩) := by
  obtain ⟨done, ran, known⟩ := whileNext_run
    (fun seen done =>
      done = (seen.any fun entry => (fieldOf lua entry).isSome, addFields lua seen obj))
    world address (Nat.le_succ_of_le above) (by
      intro seen entry value known
      have inside : lowest ≤ (LuaValue.table address :: stack).length + 1 :=
        Nat.le_succ_of_le (Nat.le_succ_of_le above)
      refine ⟨_, objectEntry_value lua world inside entry value, ?_⟩
      rw [known, addFields_append, List.any_append]
      simp) (false, obj) rfl
  rw [tableObject, pushnil, bind_of_run (push_run _ _), bind_of_run ran, known, filled,
    if_neg Bool.false_ne_true]
  rfl

/-- The load of an object that is not empty in the end: the fields of the global, if it is a
table, are added to the object. -/
theorem loadObject_fields (tableName : Text) (obj : LuaObject) (machine : LuaState Number)
    (above : machine.lowest ≤ machine.stack.length)
    (filled : (addFields lua (tableEntries machine tableName) obj).entries.isEmpty = false) :
    loadObject lua (some tableName) obj machine =
      some (((tableEntries machine tableName).any fun entry => (fieldOf lua entry).isSome,
        addFields lua (tableEntries machine tableName) obj), machine) := by
  have branch : (if globalIsTable machine tableName then tableObject lua obj
      else pure (false, obj) : LuaAction Number (Bool × LuaObject))
        ⟨machine.world.globals (cString tableName) :: machine.stack, machine.lowest, machine.world⟩ =
      some (((tableEntries machine tableName).any fun entry => (fieldOf lua entry).isSome,
          addFields lua (tableEntries machine tableName) obj),
        ⟨machine.world.globals (cString tableName) :: machine.stack, machine.lowest, machine.world⟩) := by
    cases isTable : globalIsTable machine tableName with
    | true =>
      obtain ⟨address, isAddress⟩ := exists_address isTable
      simp only [tableEntries, isAddress, if_true] at filled ⊢
      exact tableObject_fields obj machine.world address above filled
    | false =>
      rw [if_neg Bool.false_ne_true, tableEntries_of_no_table isTable]
      rfl
  unfold globalIsTable at branch
  rw [loadObject, bind_of_run (height_run _), bind_of_run (getglobal_run ..), bind_of_run (peek_top _),
    bind_of_run branch, bind_of_run (pop_one _ above), bind_of_run (height_run _), decide_eq_true rfl,
    bind_of_run (require_run _)]
  rfl

omit [DecidableEq Number] in
/-- The value of a key is that of the last field with this name, or else what the object had. -/
theorem lookup_addFields (entries : List (LuaValue Number × LuaValue Number)) (obj : LuaObject)
    (key : Text) : (addFields lua entries obj).lookup key =
      ((entries.filterMap (fieldOf lua)).reverse.lookup key).or (obj.lookup key) :=
  lookup_foldl_insert (entries.filterMap (fieldOf lua)) obj key

omit [DecidableEq Number] in
/-- The object stays empty just where it was and no entry is a field. -/
theorem addFields_isEmpty (entries : List (LuaValue Number × LuaValue Number)) (obj : LuaObject) :
    (addFields lua entries obj).entries.isEmpty =
      (obj.entries.isEmpty && (entries.filterMap (fieldOf lua)).isEmpty) :=
  foldl_insert_isEmpty (entries.filterMap (fieldOf lua)) obj

/-- The walks over a table, by pushes and pops, compute plain functions of its entries: the loads
of an array append the values that can be read, in their order, and say whether there was any
entry; a load of an object that is not empty in the end says whether there was any field, and
gives each key the text of the last field with its name in lower case, or else the one it had.
The stack is as it was. -/
theorem tables_loaded (lua : LuaLibrary Number) (machine : LuaState Number)
    (above : machine.lowest ≤ machine.stack.length) (tableName : Text) :
    (∀ vec, loadArrayS lua (some tableName) vec machine =
      some ((!(tableEntries machine tableName).isEmpty,
        vec ++ (tableEntries machine tableName).filterMap fun entry => plainText lua entry.2), machine)) ∧
    (∀ vec, loadArrayI lua (some tableName) vec machine =
      some ((!(tableEntries machine tableName).isEmpty,
        vec ++ (tableEntries machine tableName).filterMap fun entry =>
          (entry.2.toNumber lua).map fun number => toInt (lua.toInteger number)), machine)) ∧
    (∀ vec, loadArrayD lua (some tableName) vec machine =
      some ((!(tableEntries machine tableName).isEmpty,
        vec ++ (tableEntries machine tableName).filterMap fun entry => entry.2.toNumber lua), machine)) ∧
    ∀ obj : LuaObject, (obj.entries.isEmpty = false ∨
        ∃ entry ∈ tableEntries machine tableName, (fieldOf lua entry).isSome) →
      ∃ loaded, loadObject lua (some tableName) obj machine =
          some (((tableEntries machine tableName).any fun entry => (fieldOf lua entry).isSome, loaded),
            machine) ∧
        ∀ key, loaded.lookup key =
          (((tableEntries machine tableName).filterMap (fieldOf lua)).reverse.lookup key).or
            (obj.lookup key) := by
  refine ⟨fun vec => loadArray_values (readText_plain lua) tableName vec machine above,
    fun vec => loadArray_values (pure_plain _) tableName vec machine above,
    fun vec => loadArray_values (pure_plain _) tableName vec machine above,
    fun obj filled => ⟨_, loadObject_fields tableName obj machine above ?_, lookup_addFields _ obj⟩⟩
  rw [addFields_isEmpty, Bool.and_eq_false_iff]
  refine filled.imp id ?_
  rintro ⟨entry, member, isField⟩
  rw [Option.isSome_iff_exists] at isField
  obtain ⟨field, here⟩ := isField
  have inFields := List.mem_filterMap.mpr ⟨entry, member, here⟩
  rw [List.isEmpty_eq_false_iff_exists_mem]
  exact ⟨field, inFields⟩

/-- A table of which the caller of `loadObject` gets the second field for `k`. -/
def twoFields : LuaTable Int where
  entries := [(.string [75], .number 1), (.string [107], .boolean true)]
  missing _ := .nil
  distinct := by decide
  keysNotNil := by decide

/-- A table with two fields is loaded and the stack is as before. The boolean among them has become
its text. -/
theorem tables_loaded_two : ∃ loaded,
    loadObject LuaCall.integerLua (some [116]) ∅
        ⟨[], 0, fun _ => .table 0, fun _ => twoFields⟩ =
      some ((true, loaded), ⟨[], 0, fun _ => .table 0, fun _ => twoFields⟩) ∧
    loaded.lookup [107] = some (boolText true) := by
  obtain ⟨loaded, ran, looked⟩ := (tables_loaded LuaCall.integerLua
    ⟨[], 0, fun _ => .table 0, fun _ => twoFields⟩ (Nat.le_refl 0) [116]).2.2.2 ∅
    (.inr ⟨(.string [75], .number 1), List.mem_cons_self, rfl⟩)
  exact ⟨loaded, ran, (looked [107]).trans rfl⟩

end OpenTaker.CLua

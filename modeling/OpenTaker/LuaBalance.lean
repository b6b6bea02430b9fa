import OpenTaker.LuaCalls

/-!
# Balanced calls into Lua

Each load of a global and of an array gives the stack back as it was. A load of a field pops
its table twice, or, for strings, a global that is not a table never; an object that stays
empty costs a value of the caller, and the records leave their global on the stack. A chunk
leaves its values there, or its error.

One theorem says of every call for which globals it is balanced.
-/

namespace OpenTaker.CLua

open CStrings StackMachines

variable {Number : Type} {lua : LuaLibrary Number}
  {stack : List (LuaValue Number)} {lowest : Nat} {world : LuaWorld Number}
  {machine : LuaState Number} {α β : Type}

/-! ## The interface of Lua -/

/-- `lua_getglobal` pushes the value of the global, or nil where there is none, and has no way to
fail. -/
theorem getglobal_run (name : Text) (stack : List (LuaValue Number)) (lowest : Nat)
    (world : LuaWorld Number) :
    getglobal name ⟨stack, lowest, world⟩ =
      some ((), ⟨world.globals (cString name) :: stack, lowest, world⟩) := rfl

/-- The value at the top, read without a change of the stack. Position one counts from the top here,
as minus one does in C. -/
theorem peek_top (top : LuaValue Number) :
    peek 1 ⟨top :: stack, lowest, world⟩ = some (top, ⟨top :: stack, lowest, world⟩) := rfl

/-- The value below the top, by which a key is found under its value while a table is walked. -/
theorem peek_second (first second : LuaValue Number) :
    peek 2 ⟨first :: second :: stack, lowest, world⟩ =
      some (second, ⟨first :: second :: stack, lowest, world⟩) := rfl

/-- A copy of the value below the top is pushed. `lua_next` needs the key as it is, so that only its
copy is turned into text. -/
theorem pushvalue_run (first second : LuaValue Number) :
    pushvalue 2 ⟨first :: second :: stack, lowest, world⟩ =
      some ((), ⟨second :: first :: second :: stack, lowest, world⟩) := rfl

/-- `lua_tostring` turns the value itself into text where it stands, which is visible in the stack
afterwards. -/
theorem tostring_top (top : LuaValue Number) :
    tostring lua 1 ⟨top :: stack, lowest, world⟩ =
      some ((top.toText lua).map cString, ⟨top.converted lua :: stack, lowest, world⟩) := by
  rw [tostring, bind_of_run (peek_top top)]
  rfl

/-- A reader looks at the value on the top and may convert it. -/
def ReadsTop (read : LuaValue Number → LuaAction Number β) : Prop :=
  ∀ top stack lowest world, ∃ result left,
    read top ⟨top :: stack, lowest, world⟩ = some (result, ⟨left :: stack, lowest, world⟩)

/-- Reading an integer at the top leaves the height as it was. The readers of all types are used by
the one balance lemma for globals. -/
theorem readInteger_readsTop (lua : LuaLibrary Number) (value : Int) : ReadsTop (readInteger lua value) := by
  intro top stack lowest world
  unfold readInteger
  cases top.toNumber lua <;> exact ⟨_, _, rfl⟩

/-- The same for a double, whose conversion may fail and then leaves the old value. -/
theorem readDouble_readsTop (lua : LuaLibrary Number) (value : Number) : ReadsTop (readDouble lua value) := by
  intro top stack lowest world
  unfold readDouble
  cases top.toNumber lua <;> exact ⟨_, _, rfl⟩

/-- The same for a boolean, for which the source tests the type first. -/
theorem readBoolean_readsTop (value : Bool) : ReadsTop (readBoolean value : LuaValue Number → _) := by
  intro top stack lowest world
  unfold readBoolean
  split <;> exact ⟨_, _, rfl⟩

/-- A value of any type is true or false in Lua, so that this reader never refuses. -/
theorem readTruth_readsTop (value : Bool) : ReadsTop (readTruth value : LuaValue Number → _) := by
  intro top stack lowest world
  unfold readTruth
  split <;> exact ⟨_, _, rfl⟩

/-- A text is read by `lua_tostring`, which may write its value in the stack but moves nothing. -/
theorem readString_readsTop (lua : LuaLibrary Number) (value : Text) : ReadsTop (readString lua value) := by
  intro top stack lowest world
  unfold readString
  split
  · exact ⟨_, _, bind_of_run (tostring_top top)⟩
  · exact ⟨_, _, rfl⟩

/-- Whatever is read from a global, the stack ends as high as it began: the source pops on each of
its ways out. -/
theorem loadGlobal_balanced {read : LuaValue Number → LuaAction Number β} (reads : ReadsTop read)
    (name : Option Text) (unnamed : β) (machine : LuaState Number) :
    Balanced (loadGlobal name read unnamed) machine := by
  cases name with
  | none => exact ⟨unnamed, _, rfl, rfl, Nat.le_refl _⟩
  | some name =>
    obtain ⟨result, left, ran⟩ :=
      reads (machine.world.globals (cString name)) machine.stack machine.stack.length machine.world
    refine ⟨result, ⟨machine.stack, machine.stack.length, machine.world⟩, ?_, rfl, Nat.le_refl _⟩
    rw [loadGlobal, bind_of_run (getglobal_run ..), bind_of_run (peek_top _), bind_of_run ran,
      bind_of_run (pop_one _ (Nat.le_refl _))]
    rfl

/-- A reader that only looks at the value of the top does not touch the stack at all. -/
theorem readsTop_pure (read : LuaValue Number → β) : ReadsTop (fun top => pure (read top)) :=
  fun _ _ _ _ => ⟨_, _, rfl⟩

/-- The reader of an entry that is a text or a number; the test of the type keeps `lua_tostring`
from a value it has no text for. -/
theorem readText_readsTop (lua : LuaLibrary Number) :
    ReadsTop (fun top => if (top.toText lua).isSome then tostring lua 1 else pure none) := by
  intro top stack lowest world
  simp only
  split
  · exact ⟨_, _, tostring_top top⟩
  · exact ⟨_, _, rfl⟩

/-- The body of the loop of an array takes the value of the entry. -/
theorem arrayEntry_run {read : LuaValue Number → LuaAction Number (Option β)} (reads : ReadsTop read)
    (world : LuaWorld Number) (above : lowest ≤ stack.length) (top : LuaValue Number) (done : Bool × List β) :
    ∃ result, arrayEntry read done ⟨top :: stack, lowest, world⟩ = some (result, ⟨stack, lowest, world⟩) := by
  obtain ⟨element, left, ran⟩ := reads top stack lowest world
  refine ⟨(true, done.2 ++ element.toList), ?_⟩
  rw [arrayEntry, bind_of_run (peek_top _), bind_of_run ran, bind_of_run (pop_one _ above)]
  rfl

/-- The type test on the value of a table, which the branches of the loaders meet after they have
found one. -/
theorem isTable_table (address : Nat) : (LuaValue.table address : LuaValue Number).isTable = true := rfl

/-- A value that passes the test for tables is the table at some address, which the walk then reads. -/
theorem exists_address {value : LuaValue Number} (isTable : value.isTable = true) :
    ∃ address, value = .table address := by
  cases value with
  | table address => exact ⟨address, rfl⟩
  | nil | boolean | number | string | other => cases isTable

/-- The table test of a global, which the loaders make before they walk. -/
def globalIsTable (machine : LuaState Number) (name : Text) : Bool :=
  (machine.world.globals (cString name)).isTable

/-! ## Entries of objects -/

/-- What becomes the key of a field: a string or a number. -/
def hasKeyText : LuaValue Number → Bool
  | .number _ | .string _ => true
  | _ => false

/-- What becomes the value of a field: a boolean, a number or a string, and nothing else. -/
def hasValueText : LuaValue Number → Bool
  | .boolean _ | .number _ | .string _ => true
  | _ => false

/-- An entry that becomes a field: both its key and its value have a text. -/
def isField (entry : LuaValue Number × LuaValue Number) : Bool :=
  hasKeyText entry.1 && hasValueText entry.2

/-- A value has a text just if it is one or is a number, the two types of keys that the walk of a
record accepts. -/
theorem toText_isSome (lua : LuaLibrary Number) (value : LuaValue Number) :
    (value.toText lua).isSome = hasKeyText value := by
  cases value <;> rfl

/-- The value below the key is read, and may be converted. -/
theorem valueText_run (lua : LuaLibrary Number) (key value : LuaValue Number)
    (stack : List (LuaValue Number)) (lowest : Nat) (world : LuaWorld Number) : ∃ text left,
      valueText lua ⟨key :: value :: stack, lowest, world⟩ =
        some (text, ⟨key :: left :: stack, lowest, world⟩) ∧ text.isSome = hasValueText value := by
  cases value with
  | nil | boolean | number | table | other => exact ⟨_, _, rfl, rfl⟩
  | string text =>
    have ran : tostring lua 2 ⟨key :: .string text :: stack, lowest, world⟩ =
        some (some (cString text), ⟨key :: .string text :: stack, lowest, world⟩) := rfl
    refine ⟨some (cString text), .string text, ?_, rfl⟩
    rw [valueText, bind_of_run (peek_second ..)]
    split
    · exact ran
    · exact ran

/-- The body of the loop of an object takes the value, and the object stays empty just where
it was and the entry becomes no field. -/
theorem objectEntry_run (lua : LuaLibrary Number) (world : LuaWorld Number) (above : lowest ≤ stack.length + 1)
    (entry : LuaValue Number × LuaValue Number) (done : Bool × LuaObject) :
    ∃ result, objectEntry lua done ⟨entry.2 :: entry.1 :: stack, lowest, world⟩ =
        some (result, ⟨entry.1 :: stack, lowest, world⟩) ∧
      result.2.entries.isEmpty = (done.2.entries.isEmpty && !isField entry) := by
  obtain ⟨text, left, ran, isText⟩ :=
    valueText_run lua (entry.1.converted lua) entry.2 (entry.1 :: stack) lowest world
  have isKey : ((entry.1.toText lua).map cString).isSome = hasKeyText entry.1 := by
    rw [Option.isSome_map, toText_isSome]
  have popped : pop 2 ⟨entry.1.converted lua :: left :: entry.1 :: stack, lowest, world⟩ =
      some ((), ⟨entry.1 :: stack, lowest, world⟩) := pop_two _ _ above
  refine ⟨_, (bind_of_run (pushvalue_run ..)).trans ((bind_of_run (tostring_top _)).trans
    ((bind_of_run ran).trans (bind_of_run popped))), ?_⟩
  rw [isField, ← isKey, ← isText]
  cases (entry.1.toText lua).map cString with
  | none => simp
  | some key =>
    cases text with
    | none => simp
    | some value => simp

/-! ## Heights -/

/-- `lua_getglobal` climbs by one. The heights of the loaders are sums of such steps, each with its
own lemma. -/
theorem climbs_getglobal (name : Text) : Climbs (getglobal name : LuaAction Number Unit) 1 :=
  fun _ _ _ ran => Climbs.push _ ran

/-- `lua_pushvalue` climbs by one as well, whatever it copies. -/
theorem climbs_pushvalue (position : Nat) : Climbs (pushvalue position : LuaAction Number Unit) 1 :=
  (Climbs.peek position).bind Climbs.push rfl

/-- `lua_tostring` stays at its height, although it may change what stands there. -/
theorem climbs_tostring (position : Nat) : Climbs (tostring lua position) 0 :=
  (Climbs.peek position).bind (fun _ => (Climbs.replace _ _).bind (fun _ => Climbs.pure _) rfl) rfl

/-- The text of a key is taken and its copy popped again, so that the walk stands where it stood. -/
theorem climbs_recordText : Climbs (recordText lua) 0 := by
  refine (Climbs.peek 2).bind (fun value => ?_) (Int.add_zero 0)
  refine Climbs.ite ((climbs_tostring 2).bind (fun _ => Climbs.pure _) rfl) ?_
  cases value <;> exact Climbs.pure _

/-- Each round of a walk through a record takes the value. -/
theorem climbs_recordEntry (record : LuaObject) : Climbs (recordEntry lua record) (-1) :=
  (climbs_pushvalue 2).bind (fun _ => (climbs_tostring 1).bind (fun _ => climbs_recordText.bind (fun _ =>
    (Climbs.pop 2).bind (fun _ => Climbs.pure _) rfl) rfl) rfl) rfl

variable [DecidableEq Number]

/-- The key on the top of the stack gives way to some value. -/
theorem gettable_run (key : LuaValue Number) (address : Nat) :
    gettable 2 ⟨key :: .table address :: stack, lowest, world⟩ =
      some ((), ⟨(world.tables address).field key :: .table address :: stack, lowest, world⟩) := rfl

/-! ## Walks over a table -/

/-- The key that stands on the stack when these entries have been walked. -/
def lastKey (seen : List (LuaValue Number × LuaValue Number)) : LuaValue Number :=
  (seen.getLast?.map (·.1)).getD .nil

/-- The entry behind the last one that was seen is the first one that was not. -/
theorem following_lastKey (table : LuaTable Number) {seen rest : List (LuaValue Number × LuaValue Number)}
    (split : table.entries = seen ++ rest) : table.following (lastKey seen) = some rest.head? := by
  obtain rfl | ⟨before, entry, rfl⟩ := List.eq_nil_or_concat seen
  · simp [LuaTable.following, lastKey, split]
  · rw [List.concat_eq_append] at split ⊢
    have key : lastKey (before ++ [entry]) = entry.1 := by simp [lastKey]
    have distinct := table.distinct
    have keysNotNil := table.keysNotNil
    rw [split, List.append_assoc, List.singleton_append, List.map_append, List.map_cons] at distinct keysNotNil
    have notNil : entry.1 ≠ .nil := fun isNil =>
      keysNotNil (List.mem_append_right _ (isNil ▸ List.mem_cons_self))
    have fresh : ∀ other ∈ before, decide (other.1 ≠ entry.1) = true := by
      intro other member
      have disjoint := (List.nodup_append.mp distinct).2.2
      exact decide_eq_true (disjoint _ (List.mem_map_of_mem member) _ List.mem_cons_self)
    have dropped : table.entries.dropWhile (·.1 ≠ entry.1) = entry :: rest := by
      rw [split, List.append_assoc, List.singleton_append, List.dropWhile_append_of_pos fresh]
      simp
    rw [key, LuaTable.following, if_neg notNil, dropped]

/-- A body that takes the value of each entry walks the whole table, and the table is on the
top in the end. -/
theorem whileNext_run {body : β → LuaAction Number β}
    (known : List (LuaValue Number × LuaValue Number) → β → Prop) (world : LuaWorld Number) (address : Nat)
    (above : lowest ≤ stack.length + 1)
    (runs : ∀ seen entry value, known seen value → ∃ result,
      body value ⟨entry.2 :: entry.1 :: .table address :: stack, lowest, world⟩ =
        some (result, ⟨entry.1 :: .table address :: stack, lowest, world⟩) ∧
          known (seen ++ [entry]) result)
    (value : β) (holds : known [] value) :
    ∃ result, whileNext 2 body value ⟨.nil :: .table address :: stack, lowest, world⟩ =
      some (result, ⟨.table address :: stack, lowest, world⟩) ∧
        known (world.tables address).entries result := by
  refine repeatWhile_run (world.tables address).entries
    (fun seen => ⟨lastKey seen :: .table address :: stack, lowest, world⟩) known ?_ ?_ _ [] _ value rfl holds ?_
  · simp [next, following_lastKey _ (List.append_nil _).symm, Nat.min_eq_left above]
  · intro seen entry rest split
    refine ⟨⟨entry.2 :: entry.1 :: .table address :: stack, lowest, world⟩, ?_, fun value known => ?_⟩
    · simp [next, following_lastKey _ split, Nat.min_eq_left above]
    · obtain ⟨result, ran, kept⟩ := runs seen entry value known
      exact ⟨result, by simpa [lastKey] using ran, kept⟩
  · simp [rounds]

/-! ## Loads of a global or a field -/

/-- The branch of a table pops all that it has pushed and the table. -/
theorem tableField_run {read : LuaValue Number → LuaAction Number β} (reads : ReadsTop read)
    (name : Text) (world : LuaWorld Number) (address : Nat) (above : lowest ≤ stack.length) :
    ∃ result, tableField name read ⟨.table address :: stack, lowest, world⟩ =
      some (result, ⟨stack, lowest, world⟩) := by
  obtain ⟨result, left, ran⟩ := reads ((world.tables address).field (.string (cString name)))
    (.table address :: stack) lowest world
  refine ⟨result, ?_⟩
  rw [tableField, pushstring, bind_of_run (push_run _ _), bind_of_run (gettable_run _ address),
    bind_of_run (peek_top _), bind_of_run ran, bind_of_run (pop_two _ _ above)]
  rfl

/-- A field is loaded with balance just where there is no table. -/
theorem loadField_balanced {read : LuaValue Number → LuaAction Number β} (reads : ReadsTop read)
    (tableName name : Text) (unread : β) (machine : LuaState Number) :
    Balanced (loadField (some tableName) (some name) read unread) machine ↔
      globalIsTable machine tableName = false := by
  cases isTable : globalIsTable machine tableName with
  | false =>
    refine iff_of_true ⟨unread, ⟨machine.stack, machine.stack.length, machine.world⟩, ?_, rfl, Nat.le_refl _⟩ rfl
    unfold globalIsTable at isTable
    rw [loadField, bind_of_run (getglobal_run ..), bind_of_run (peek_top _), isTable, if_neg Bool.false_ne_true,
      bind_of_run (pure_run _ _), bind_of_run (pop_one _ (Nat.le_refl _))]
    rfl
  | true =>
    refine iff_of_false ?_ Bool.noConfusion
    rintro ⟨value, final, ran, same, -⟩
    obtain ⟨address, isAddress⟩ := exists_address isTable
    obtain ⟨result, fieldRan⟩ := tableField_run reads name machine.world address
      (Nat.le_refl machine.stack.length)
    rw [loadField, bind_of_run (getglobal_run ..), isAddress, bind_of_run (peek_top _),
      if_pos (isTable_table address), bind_of_run fieldRan] at ran
    -- the table has gone with the value, and the last pop takes what the caller had
    have popped := (Climbs.pop 1).bind (fun _ => Climbs.pure result) rfl ran
    simp only at popped
    omega

/-- The load of a string field is the other way round. -/
theorem loadStringField_balanced (lua : LuaLibrary Number) (tableName name value : Text)
    (machine : LuaState Number) :
    Balanced (loadStringField lua (some tableName) (some name) value) machine ↔
      globalIsTable machine tableName = true := by
  cases isTable : globalIsTable machine tableName with
  | true =>
    obtain ⟨address, isAddress⟩ := exists_address isTable
    obtain ⟨result, fieldRan⟩ := tableField_run (readString_readsTop lua value) name machine.world
      address (Nat.le_refl machine.stack.length)
    refine iff_of_true ⟨result, ⟨machine.stack, machine.stack.length, machine.world⟩, ?_, rfl, Nat.le_refl _⟩ rfl
    rw [loadStringField, bind_of_run (getglobal_run ..), isAddress, bind_of_run (peek_top _),
      if_pos (isTable_table address), fieldRan]
  | false =>
    refine iff_of_false ?_ Bool.false_ne_true
    rintro ⟨value, final, ran, same, -⟩
    unfold globalIsTable at isTable
    rw [loadStringField, bind_of_run (getglobal_run ..), bind_of_run (peek_top _), isTable,
      if_neg Bool.false_ne_true] at ran
    -- what is not a table stays on the stack
    cases ran
    exact absurd same (Nat.succ_ne_self _)

/-! ## Arrays -/

/-- A walk over a table leaves the table on the stack. -/
theorem tableArray_run {read : LuaValue Number → LuaAction Number (Option β)} (reads : ReadsTop read)
    (vec : List β) (world : LuaWorld Number) (address : Nat) (above : lowest ≤ stack.length) :
    ∃ done, tableArray read vec ⟨.table address :: stack, lowest, world⟩ =
      some (done, ⟨.table address :: stack, lowest, world⟩) := by
  obtain ⟨done, ran, -⟩ := whileNext_run (fun _ _ => True) world address (Nat.le_succ_of_le above) (by
    intro seen entry value _
    have inside : lowest ≤ (entry.1 :: LuaValue.table address :: stack).length :=
      Nat.le_succ_of_le (Nat.le_succ_of_le above)
    obtain ⟨result, ran⟩ := arrayEntry_run reads world inside entry.2 value
    exact ⟨result, ran, trivial⟩) (false, vec) trivial
  exact ⟨done, ran⟩

/-- An array is loaded without a trace in the stack, whichever of its elements are refused on the
way. -/
theorem loadArray_balanced {read : LuaValue Number → LuaAction Number (Option β)} (reads : ReadsTop read)
    (tableName : Option Text) (vec : List β) (machine : LuaState Number) :
    Balanced (loadArray read tableName vec) machine := by
  cases tableName with
  | none => exact ⟨_, _, rfl, rfl, Nat.le_refl _⟩
  | some tableName =>
    have base := Nat.le_refl machine.stack.length
    have branch : ∃ done, (if globalIsTable machine tableName then tableArray read vec
        else pure (false, vec) : LuaAction Number (Bool × List β))
          ⟨machine.world.globals (cString tableName) :: machine.stack, machine.stack.length, machine.world⟩ =
        some (done,
          ⟨machine.world.globals (cString tableName) :: machine.stack, machine.stack.length, machine.world⟩) := by
      split
      · rename_i isTable
        obtain ⟨address, isAddress⟩ := exists_address isTable
        rw [isAddress]
        exact tableArray_run reads vec machine.world address base
      · exact ⟨_, rfl⟩
    obtain ⟨done, ran⟩ := branch
    refine ⟨done, ⟨machine.stack, machine.stack.length, machine.world⟩, ?_, rfl, base⟩
    unfold globalIsTable at ran
    rw [loadArray, bind_of_run (height_run _), bind_of_run (getglobal_run ..), bind_of_run (peek_top _),
      bind_of_run ran, bind_of_run (pop_one _ base), bind_of_run (height_run _), decide_eq_true rfl,
      bind_of_run (require_run _)]
    rfl

/-! ## Objects -/

/-- The branch of a table in `loadObject`, when some field has come in or was there. -/
theorem tableObject_run (lua : LuaLibrary Number) (obj : LuaObject) (world : LuaWorld Number) (address : Nat)
    (above : lowest ≤ stack.length) : ∃ done : Bool × LuaObject,
      tableObject lua obj ⟨.table address :: stack, lowest, world⟩ =
        (do
          if done.2.entries.isEmpty then pop 1
          return done : LuaAction Number (Bool × LuaObject)) ⟨.table address :: stack, lowest, world⟩ ∧
      (done.2.entries.isEmpty = false ↔ obj.entries.isEmpty = false ∨
        ∃ entry ∈ (world.tables address).entries, isField entry = true) := by
  obtain ⟨done, ran, isEmpty⟩ := whileNext_run
    (fun seen done => done.2.entries.isEmpty = (obj.entries.isEmpty && seen.all fun entry => !isField entry))
    world address (Nat.le_succ_of_le above) (by
      intro seen entry value known
      have inside : lowest ≤ (LuaValue.table address :: stack).length + 1 :=
        Nat.le_succ_of_le (Nat.le_succ_of_le above)
      obtain ⟨result, ran, isEmpty⟩ := objectEntry_run lua world inside entry value
      exact ⟨result, ran, by rw [isEmpty, known]; simp [Bool.and_assoc]⟩) (false, obj) (by simp)
  refine ⟨done, ?_, ?_⟩
  · rw [tableObject, pushnil, bind_of_run (push_run _ _), bind_of_run ran]
  · rw [isEmpty, Bool.and_eq_false_iff, List.all_eq_false]
    simp

/-- The entries of a global that is a table. -/
def tableEntries (machine : LuaState Number) (name : Text) : List (LuaValue Number × LuaValue Number) :=
  match machine.world.globals (cString name) with
  | .table address => (machine.world.tables address).entries
  | _ => []

/-- An object is loaded with balance just where it is not empty in the end, or there is no
table. -/
theorem loadObject_balanced (lua : LuaLibrary Number) (tableName : Text) (obj : LuaObject)
    (machine : LuaState Number) :
    Balanced (loadObject lua (some tableName) obj) machine ↔
      globalIsTable machine tableName = false ∨ obj.entries.isEmpty = false ∨
        ∃ entry ∈ tableEntries machine tableName, isField entry = true := by
  have base := Nat.le_refl machine.stack.length
  cases isTable : globalIsTable machine tableName with
  | false =>
    refine iff_of_true ⟨(false, obj), ⟨machine.stack, machine.stack.length, machine.world⟩, ?_, rfl, base⟩
      (.inl rfl)
    unfold globalIsTable at isTable
    rw [loadObject, bind_of_run (height_run _), bind_of_run (getglobal_run ..), bind_of_run (peek_top _), isTable,
      if_neg Bool.false_ne_true, bind_of_run (pure_run _ _), bind_of_run (pop_one _ base),
      bind_of_run (height_run _), decide_eq_true rfl, bind_of_run (require_run _)]
    rfl
  | true =>
    obtain ⟨address, isAddress⟩ := exists_address isTable
    obtain ⟨done, ran, isEmpty⟩ := tableObject_run lua obj machine.world address base
    have entries : tableEntries machine tableName = (machine.world.tables address).entries := by
      simp only [tableEntries, isAddress]
    cases empty : done.2.entries.isEmpty with
    | false =>
      rw [empty, if_neg Bool.false_ne_true] at ran
      refine iff_of_true ⟨done, ⟨machine.stack, machine.stack.length, machine.world⟩, ?_, rfl, base⟩ (.inr ?_)
      · rw [loadObject, bind_of_run (height_run _), bind_of_run (getglobal_run ..), isAddress,
          bind_of_run (peek_top _), if_pos (isTable_table address), bind_of_run ran, bind_of_run (pop_one _ base),
          bind_of_run (height_run _), decide_eq_true rfl, bind_of_run (require_run _)]
        rfl
      · rw [entries]
        exact isEmpty.mp empty
    | true =>
      rw [empty, if_pos rfl, bind_of_run (pop_one _ base)] at ran
      refine iff_of_false ?_ ?_
      · rintro ⟨value, final, whole, same, -⟩
        rw [loadObject, bind_of_run (height_run _), bind_of_run (getglobal_run ..), isAddress,
          bind_of_run (peek_top _), if_pos (isTable_table address), bind_of_run ran] at whole
        -- the first pop has taken the table, and the second takes what the caller had
        have popped := (Climbs.pop 1).bind (fun _ => Climbs.height.bind (fun m =>
          (Climbs.require (m = machine.stack.length)).bind (fun _ => Climbs.pure done) rfl) rfl) rfl whole
        simp only at popped
        omega
      · rw [entries]
        rintro (notTable | filled)
        · cases notTable
        · exact absurd (isEmpty.mpr filled) (by rw [empty]; exact Bool.noConfusion)

/-! ## Records -/

/-- `lua_gettable` replaces the key by the value, which keeps the height. -/
theorem climbs_gettable (position : Nat) : Climbs (gettable position : LuaAction Number Unit) 0 := by
  refine (Climbs.peek position).bind (fun table => ?_) (Int.add_zero 0)
  refine (Climbs.peek 1).bind (fun key => ?_) (Int.add_zero 0)
  intro machine _ final ran
  obtain ⟨world, between, same, ran⟩ := run_of_bind ran
  cases same
  cases table with
  | table address => exact Climbs.replace _ _ ran
  | nil | boolean | number | string | other => cases ran

/-- A look for the next entry puts it in the place of the key, or takes the key. -/
theorem next_height {position : Nat} {more : Bool} {final : LuaState Number}
    (ran : next position machine = some (more, final)) :
    (final.stack.length : Int) = machine.stack.length + if more then 1 else -1 := by
  unfold next at ran
  split at ran
  · rename_i key below _ isStack
    split at ran <;> cases ran <;> simp only [isStack, List.length_cons] <;> grind
  · cases ran

/-- A walk takes the key that was pushed for it, when `lua_next` finds no further entry. -/
theorem climbs_whileNext (position : Nat) {body : β → LuaAction Number β}
    (climbs : ∀ value, Climbs (body value) (-1)) (value : β) : Climbs (whileNext position body value) (-1) :=
  fun machine _ _ ran =>
    Climbs.repeatWhile (fun _ _ ran => next_height ran) (fun _ _ ran => next_height ran) climbs
      (rounds position machine) value ran

/-- A record that is a table of its own is walked through, and its last key is popped by `lua_next`. -/
theorem climbs_tableRecord (records : List LuaObject) : Climbs (tableRecord lua records) 0 :=
  (Climbs.push _).bind (fun _ => (climbs_gettable 3).bind (fun _ =>
    (climbs_whileNext 3 climbs_recordEntry ∅).bind (fun _ => Climbs.pure _) rfl) rfl) rfl

/-- One entry of the table of records climbs down by one, since the value is popped and the key
stays for `lua_next`. -/
theorem climbs_recordsEntry (records : List LuaObject) : Climbs (recordsEntry lua records) (-1) :=
  (climbs_pushvalue 2).bind (fun _ => (climbs_tostring 1).bind (fun _ => (Climbs.peek 2).bind (fun _ =>
    (Climbs.ite (climbs_tableRecord records) (Climbs.pure records)).bind (fun _ =>
      (Climbs.pop 2).bind (fun _ => Climbs.pure _) rfl) rfl) rfl) rfl) rfl

/-- The table of all records is walked through to its end, where `lua_next` takes the last key from
the stack. -/
theorem climbs_tableRecords (records : List LuaObject) : Climbs (tableRecords lua records) 0 :=
  (Climbs.push _).bind (fun _ => (climbs_gettable 2).bind (fun _ =>
    climbs_whileNext 2 climbs_recordsEntry records) rfl) rfl

/-- The global is never popped by `loadRecords`, so that the stack is one higher than before. -/
theorem climbs_loadRecords (tableName : Text) (records : List LuaObject) :
    Climbs (loadRecords lua (some tableName) records) 1 :=
  (climbs_getglobal tableName).bind (fun _ => (Climbs.peek 1).bind (fun _ =>
    (Climbs.ite (climbs_tableRecords records) (Climbs.pure records)).bind (fun _ => Climbs.pure _) rfl) rfl) rfl

/-! ## Chunks -/

omit [DecidableEq Number] in
/-- Values pushed one after the other stand in reverse order, the last one at the top. -/
theorem pushAll_run (values stack : List (LuaValue Number)) :
    pushAll values ⟨stack, lowest, world⟩ = some ((), ⟨values.reverse ++ stack, lowest, world⟩) := by
  induction values generalizing stack with
  | nil => rfl
  | cons value values inductionHypothesis =>
    rw [pushAll, bind_of_run (push_run _ _), inductionHypothesis, List.reverse_cons, List.append_assoc,
      List.singleton_append]

omit [DecidableEq Number] in
/-- A chunk is run with balance just where it ends with no value. -/
theorem doString_balanced (lua : LuaLibrary Number) (chunk : Text) (machine : LuaState Number) :
    Balanced (doString lua (some chunk)) machine ↔
      (lua.runChunk (cString chunk) machine.world).1 = .returned [] := by
  cases outcome : (lua.runChunk (cString chunk) machine.world).1 with
  | returned values =>
    have ran : doString lua (some chunk) { machine with lowest := machine.stack.length } =
        some (0, ⟨values.reverse ++ machine.stack, machine.stack.length,
          (lua.runChunk (cString chunk) machine.world).2⟩) := by
      have pushed : dostring lua chunk { machine with lowest := machine.stack.length } =
          some (false, ⟨values.reverse ++ machine.stack, machine.stack.length,
            (lua.runChunk (cString chunk) machine.world).2⟩) := by
        simp only [dostring, outcome]
        rw [bind_of_run (pushAll_run _ _)]
        rfl
      rw [doString, bind_of_run pushed, if_neg Bool.false_ne_true]
      rfl
    constructor
    · rintro ⟨value, final, whole, same, -⟩
      rw [ran] at whole
      cases whole
      have none : values.length = 0 := by simpa using same
      rw [List.length_eq_zero_iff.mp none]
    · intro none
      cases none
      exact ⟨_, _, ran, rfl, Nat.le_refl _⟩
  | failed message =>
    refine iff_of_false ?_ nofun
    rintro ⟨value, final, whole, same, -⟩
    have pushed : dostring lua chunk { machine with lowest := machine.stack.length } =
        some (true, ⟨message :: machine.stack, machine.stack.length,
          (lua.runChunk (cString chunk) machine.world).2⟩) := by
      simp only [dostring, outcome]
      rfl
    rw [doString, bind_of_run pushed, if_pos rfl] at whole
    cases whole
    exact absurd same (Nat.succ_ne_self _)

end OpenTaker.CLua

namespace OpenTaker

open StackMachines CLua

/-- A call of the wrapper, with the values that its caller passes for the results. -/
inductive LuaCall (Number : Type) where
  | loadInteger (name : Option Text) (value : Int)
  | loadString (name : Option Text) (value : Text)
  | loadDouble (name : Option Text) (value : Number)
  | loadBoolean (name : Option Text) (value : Bool)
  | loadIntegerField (tableName name : Option Text) (value : Int)
  | loadStringField (tableName name : Option Text) (value : Text)
  | loadDoubleField (tableName name : Option Text) (value : Number)
  | loadBooleanField (tableName name : Option Text) (value : Bool)
  | loadObject (tableName : Option Text) (obj : LuaObject)
  | loadRecords (tableName : Option Text) (records : List LuaObject)
  | loadArrayS (tableName : Option Text) (vec : List Text)
  | loadArrayI (tableName : Option Text) (vec : List Int)
  | loadArrayD (tableName : Option Text) (vec : List Number)
  | doString (chunk : Option Text)

namespace LuaCall

variable {Number : Type} [DecidableEq Number]

/-- The call returns, its assertions hold, it returns with the height that it was made with
and never pops below it. -/
def Balances (lua : LuaLibrary Number) (machine : LuaState Number) : LuaCall Number → Prop
  | .loadInteger name value => Balanced (CLua.loadInteger lua name value) machine
  | .loadString name value => Balanced (CLua.loadString lua name value) machine
  | .loadDouble name value => Balanced (CLua.loadDouble lua name value) machine
  | .loadBoolean name value => Balanced (CLua.loadBoolean name value) machine
  | .loadIntegerField tableName name value => Balanced (CLua.loadIntegerField lua tableName name value) machine
  | .loadStringField tableName name value => Balanced (CLua.loadStringField lua tableName name value) machine
  | .loadDoubleField tableName name value => Balanced (CLua.loadDoubleField lua tableName name value) machine
  | .loadBooleanField tableName name value => Balanced (CLua.loadBooleanField tableName name value) machine
  | .loadObject tableName obj => Balanced (CLua.loadObject lua tableName obj) machine
  | .loadRecords tableName records => Balanced (CLua.loadRecords lua tableName records) machine
  | .loadArrayS tableName vec => Balanced (CLua.loadArrayS lua tableName vec) machine
  | .loadArrayI tableName vec => Balanced (CLua.loadArrayI lua tableName vec) machine
  | .loadArrayD tableName vec => Balanced (CLua.loadArrayD lua tableName vec) machine
  | .doString chunk => Balanced (CLua.doString lua chunk) machine

/-- Where a call is balanced: the load of a string field where its global is a table and
that of another field where it is not, an object where it is not empty in the end, a chunk
where it ends with no value, and the records nowhere, unless a name is NULL. -/
def Even (lua : LuaLibrary Number) (machine : LuaState Number) : LuaCall Number → Prop
  | .loadInteger .. | .loadString .. | .loadDouble .. | .loadBoolean .. => True
  | .loadArrayS .. | .loadArrayI .. | .loadArrayD .. => True
  | .loadIntegerField tableName name _ | .loadDoubleField tableName name _
  | .loadBooleanField tableName name _ =>
      ∀ table ∈ tableName, name.isSome → globalIsTable machine table = false
  | .loadStringField tableName name _ =>
      ∀ table ∈ tableName, name.isSome → globalIsTable machine table = true
  | .loadObject tableName obj =>
      ∀ table ∈ tableName, globalIsTable machine table = false ∨ obj.entries.isEmpty = false ∨
        ∃ entry ∈ tableEntries machine table, isField entry = true
  | .loadRecords tableName _ => tableName = none
  | .doString chunk =>
      ∀ text ∈ chunk, (lua.runChunk (CStrings.cString text) machine.world).1 = .returned []

variable (lua : LuaLibrary Number) (machine : LuaState Number)

omit [DecidableEq Number] in
/-- Loads of a global string look at the text that they have loaded. -/
theorem loadString_balanced (name : Option Text) (value : Text) :
    Balanced (CLua.loadString lua name value) machine := by
  obtain ⟨result, final, ran, same, above⟩ :=
    loadGlobal_balanced (readString_readsTop lua value) name (false, value) machine
  exact ⟨_, final, bind_of_run ran, same, above⟩

/-- The loads of a field that is not a string. -/
theorem field_balanced_iff {β : Type} {read : LuaValue Number → LuaAction Number β} (reads : ReadsTop read)
    (tableName name : Option Text) (unread : β) :
    Balanced (loadField tableName name read unread) machine ↔
      ∀ table ∈ tableName, name.isSome → globalIsTable machine table = false := by
  cases tableName with
  | none => exact iff_of_true ⟨_, _, rfl, rfl, Nat.le_refl _⟩ nofun
  | some tableName =>
    cases name with
    | none => exact iff_of_true ⟨_, _, rfl, rfl, Nat.le_refl _⟩ nofun
    | some name => simpa using loadField_balanced reads tableName name unread machine

/-- Every call is balanced just where it is said to be, for all tables and globals, and whichever of
its early returns it takes. -/
theorem balances_iff (call : LuaCall Number) : call.Balances lua machine ↔ call.Even lua machine := by
  cases call with
  | loadInteger name value =>
    exact iff_of_true (loadGlobal_balanced (readInteger_readsTop lua value) name _ machine) trivial
  | loadString name value => exact iff_of_true (loadString_balanced lua machine name value) trivial
  | loadDouble name value =>
    exact iff_of_true (loadGlobal_balanced (readDouble_readsTop lua value) name _ machine) trivial
  | loadBoolean name value =>
    exact iff_of_true (loadGlobal_balanced (readBoolean_readsTop value) name _ machine) trivial
  | loadIntegerField tableName name value =>
    exact field_balanced_iff machine (readInteger_readsTop lua value) tableName name _
  | loadDoubleField tableName name value =>
    exact field_balanced_iff machine (readDouble_readsTop lua value) tableName name _
  | loadBooleanField tableName name value =>
    exact field_balanced_iff machine (readTruth_readsTop value) tableName name _
  | loadStringField tableName name value =>
    cases tableName with
    | none => exact iff_of_true ⟨_, _, rfl, rfl, Nat.le_refl _⟩ nofun
    | some tableName =>
      cases name with
      | none => exact iff_of_true ⟨_, _, rfl, rfl, Nat.le_refl _⟩ nofun
      | some name =>
        simpa [Balances, Even] using loadStringField_balanced lua tableName name value machine
  | loadObject tableName obj =>
    cases tableName with
    | none => exact iff_of_true ⟨_, _, rfl, rfl, Nat.le_refl _⟩ nofun
    | some tableName =>
      simpa [Balances, Even] using loadObject_balanced lua tableName obj machine
  | loadRecords tableName records =>
    cases tableName with
    | none => exact iff_of_true ⟨_, _, rfl, rfl, Nat.le_refl _⟩ rfl
    | some tableName =>
      exact iff_of_false ((climbs_loadRecords tableName records).not_balanced Int.one_ne_zero machine) nofun
  | loadArrayS tableName vec =>
    exact iff_of_true (loadArray_balanced (readText_readsTop lua) tableName vec machine) trivial
  | loadArrayI tableName vec =>
    exact iff_of_true (loadArray_balanced (readsTop_pure _) tableName vec machine) trivial
  | loadArrayD tableName vec =>
    exact iff_of_true (loadArray_balanced (readsTop_pure _) tableName vec machine) trivial
  | doString chunk =>
    cases chunk with
    | none => exact iff_of_true ⟨_, _, rfl, rfl, Nat.le_refl _⟩ nofun
    | some chunk => simpa [Balances, Even] using doString_balanced lua chunk machine

/-- A library whose numbers are integers and whose chunks return nothing. -/
def integerLua : LuaLibrary Int where
  toInteger := id
  numberText number := number.repr.toList.map fun character => character.toNat.toUInt8
  textNumber _ := none
  runChunk _ world := (.returned [], world)

/-- The table with the field `n = 1`, a single entry that the walk goes through. -/
def oneField : LuaTable Int where
  entries := [(.string [110], .number 1)]
  missing _ := .nil
  distinct := by simp
  keysNotNil := by simp

/-- The global `t` is that table, and the caller has a value on the stack. -/
def oneGlobal : LuaState Int :=
  ⟨[.boolean true], 1, fun name => if name = [116] then .table 0 else .nil, fun _ => oneField⟩

/-- `loadInteger("t", "n", value)` loads the field and takes the value of its caller, as the table
is popped twice. -/
theorem integer_field_pops_caller :
    ¬ (LuaCall.loadIntegerField (some [116]) (some [110]) 0).Balances integerLua oneGlobal ∧
      ∃ final, CLua.loadIntegerField integerLua (some [116]) (some [110]) 0 oneGlobal =
        some ((true, 1), final) ∧ final.stack = [] := by
  constructor
  · rw [Balances, CLua.loadIntegerField, loadField_balanced (readInteger_readsTop _ _)]
    decide
  · exact ⟨_, rfl, rfl⟩

end LuaCall

end OpenTaker

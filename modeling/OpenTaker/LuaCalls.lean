import OpenTaker.CStrings
import OpenTaker.StackMachines
import Mathlib.Data.List.AList

/-!
# The Lua wrapper

What `CLua` does through the C interface of Lua: globals, fields, walks over tables and
chunks, by pushes and pops on the value stack of the interpreter. A walk asks for the entry
behind the key on the top of the stack, so that the key must stay as it is; converting a
number to a string changes the value on the stack.

The numbers of Lua and their texts, and what a chunk does, are those of the library.
-/

namespace OpenTaker

open CStrings StackMachines

/-- A string of Lua or of C, as the bytes in front of its terminator. -/
abbrev Text := List UInt8

/-- A value of Lua. Functions, userdata and threads only have an identity. -/
inductive LuaValue (Number : Type) where
  | nil
  | boolean (value : Bool)
  | number (value : Number)
  | string (value : Text)
  | table (address : Nat)
  | other (address : Nat)
deriving DecidableEq

variable {Number : Type} [DecidableEq Number]

/-- A table: its entries in the order in which they are walked, and what its metatable
answers for other keys. -/
structure LuaTable (Number : Type) where
  entries : List (LuaValue Number × LuaValue Number)
  missing : LuaValue Number → LuaValue Number
  distinct : (entries.map (·.1)).Nodup
  keysNotNil : LuaValue.nil ∉ entries.map (·.1)

namespace LuaTable

/-- The value of a key. For a key that is not in the table, a metatable may answer, and its answer
is given with the table. -/
def field (table : LuaTable Number) (key : LuaValue Number) : LuaValue Number :=
  match table.entries.find? (·.1 = key) with
  | some entry => entry.2
  | none => table.missing key

/-- The entry behind a key, or the first one for nil. It is an error when there is no such
key. -/
def following (table : LuaTable Number) (key : LuaValue Number) :
    Option (Option (LuaValue Number × LuaValue Number)) :=
  if key = .nil then some table.entries.head?
  else
    match table.entries.dropWhile (·.1 ≠ key) with
    | [] => none
    | _ :: rest => some rest.head?

end LuaTable

/-- The global variables and the tables of an interpreter. -/
structure LuaWorld (Number : Type) where
  globals : Text → LuaValue Number
  tables : Nat → LuaTable Number

/-- How a chunk ends: with values, or with an error, be it one of its syntax. -/
inductive ChunkOutcome (Number : Type) where
  | returned (values : List (LuaValue Number))
  | failed (message : LuaValue Number)

/-- What `CLua` uses of the Lua library beside its stack. -/
structure LuaLibrary (Number : Type) where
  toInteger : Number → Int
  numberText : Number → Text
  textNumber : Text → Option Number
  runChunk : Text → LuaWorld Number → ChunkOutcome Number × LuaWorld Number

/-- The state of Lua as the loaders see it: the stack, the bottom of their frame, and the world of
tables and globals. -/
abbrev LuaState (Number : Type) := Machine (LuaValue Number) (LuaWorld Number)

/-- What a call of the C interface does with that state; none when the call raises an error or
leaves its frame. -/
abbrev LuaAction (Number : Type) := Action (LuaValue Number) (LuaWorld Number)

/-- `LuaObject`: the fields of a record by their names, as texts. -/
abbrev LuaObject := AList (fun _ : Text => Text)

/-! ## The interface of Lua -/

namespace LuaValue

/-- `lua_istable`: whether the value is a table, which all walks ask before they index it. -/
def isTable : LuaValue Number → Bool
  | .table _ => true
  | _ => false

/-- What `lua_toboolean` makes of a value: all but nil and false are true. -/
def truth : LuaValue Number → Bool
  | .nil => false
  | .boolean value => value
  | _ => true

/-- The number that a value is or reads as. -/
def toNumber (lua : LuaLibrary Number) : LuaValue Number → Option Number
  | .number value => some value
  | .string value => lua.textNumber value
  | _ => none

/-- The text that `lua_tostring` has for a value: strings have their own and numbers that of the
library, and nothing else has one. -/
def toText (lua : LuaLibrary Number) : LuaValue Number → Option Text
  | .number value => some (lua.numberText value)
  | .string value => some value
  | _ => none

/-- What a value on the stack is after it was converted. -/
def converted (lua : LuaLibrary Number) : LuaValue Number → LuaValue Number
  | .number value => .string (lua.numberText value)
  | value => value

end LuaValue

/-- `lua_getglobal`: push the value of a global by the characters before the terminator of its name. -/
def getglobal (name : Text) : LuaAction Number Unit := fun machine =>
  push (machine.world.globals (cString name)) machine

/-- `lua_pushstring`, which copies up to the terminator, so that a text with a zero byte is cut
there. -/
def pushstring (text : Text) : LuaAction Number Unit := push (.string (cString text))

/-- `lua_pushnil`, with which a walk begins in front of the first key. -/
def pushnil : LuaAction Number Unit := push .nil

/-- `lua_pushvalue`: push a copy of the value at a position. -/
def pushvalue (position : Nat) : LuaAction Number Unit := do
  push (← peek position)

/-- `lua_gettable`: the key on the top gives way to its value. -/
def gettable (position : Nat) : LuaAction Number Unit := do
  let table ← peek position
  let key ← peek 1
  let world ← (fun machine => some (machine.world, machine) : LuaAction Number (LuaWorld Number))
  match table with
  | .table address => replace 1 ((world.tables address).field key)
  | _ => failure

/-- `lua_tostring`: the characters before a zero, after the value itself has been turned into text. -/
def tostring (lua : LuaLibrary Number) (position : Nat) : LuaAction Number (Option Text) := do
  let value ← peek position
  replace position (value.converted lua)
  return (value.toText lua).map cString

/-- `lua_next`: the key on the top gives way to the next one and its value, if any. -/
def next (position : Nat) : LuaAction Number Bool := fun machine =>
  match machine.stack[position - 1]?, machine.stack with
  | some (.table address), key :: below =>
      match (machine.world.tables address).following key with
      | some (some entry) =>
          some (true, { machine with
            stack := entry.2 :: entry.1 :: below, lowest := min machine.lowest below.length })
      | some none =>
          some (false, { machine with stack := below, lowest := min machine.lowest below.length })
      | none => none
  | _, _ => none

/-- How often the table at a position can be asked for a next entry. -/
def rounds (position : Nat) (machine : LuaState Number) : Nat :=
  match machine.stack[position - 1]? with
  | some (.table address) => (machine.world.tables address).entries.length + 1
  | _ => 1

/-- `while (lua_next(…))`: run the body for each entry of the table, with rounds enough for all of
them. -/
def whileNext {β : Type} (position : Nat) (body : β → LuaAction Number β) (value : β) :
    LuaAction Number β := fun machine =>
  repeatWhile (next position) body (rounds position machine) value machine

/-- The values that `luaL_dostring` leaves are pushed in their order. -/
def pushAll : List (LuaValue Number) → LuaAction Number Unit
  | [] => pure ()
  | value :: values => do
      push value
      pushAll values

/-- `luaL_dostring`, and whether it failed. The library says what the chunk returns and what it
makes of the world. -/
def dostring (lua : LuaLibrary Number) (chunk : Text) : LuaAction Number Bool := fun machine =>
  let ended := lua.runChunk (cString chunk) machine.world
  let left := { machine with world := ended.2 }
  match ended.1 with
  | .returned values => (do pushAll values; return false) left
  | .failed message => (do push message; return true) left

/-! ## `CLua` -/

namespace CLua

/-- `(int)` of an integer of Lua, of which the low 32 bits are kept. -/
def toInt (value : Int) : Int := Int.bmod value 4294967296

/-- The loads of a global: what is made of its value, and of the one that was there. -/
def loadGlobal {β : Type} (name : Option Text) (read : LuaValue Number → LuaAction Number β)
    (unnamed : β) : LuaAction Number β :=
  match name with
  | none => pure unnamed
  | some name => do
      getglobal name
      let result ← read (← peek 1)
      pop 1
      return result

/-- The value of an integer, and whether there is one. -/
def readInteger (lua : LuaLibrary Number) (value : Int) (top : LuaValue Number) :
    LuaAction Number (Bool × Int) :=
  match top.toNumber lua with
  | some number => pure (true, toInt (lua.toInteger number))
  | none => pure (false, value)

/-- The reader of a double, by `lua_tonumber`, keeps the given value where the value on the stack
has no number. -/
def readDouble (lua : LuaLibrary Number) (value : Number) (top : LuaValue Number) :
    LuaAction Number (Bool × Number) :=
  match top.toNumber lua with
  | some number => pure (true, number)
  | none => pure (false, value)

/-- The reader of a boolean keeps the given value for all other types. -/
def readBoolean (value : Bool) (top : LuaValue Number) : LuaAction Number (Bool × Bool) :=
  match top with
  | .boolean found => pure (true, found)
  | _ => pure (false, value)

/-- The table form of the reader of a boolean tests `lua_toboolean`, not `lua_isboolean`, and so
takes every value that is not false or nil. -/
def readTruth (value : Bool) (top : LuaValue Number) : LuaAction Number (Bool × Bool) :=
  if top.truth then pure (true, true) else pure (false, value)

/-- The reader of a text takes numbers too, as `lua_isstring` does, and converts them on the stack. -/
def readString (lua : LuaLibrary Number) (value : Text) (top : LuaValue Number) :
    LuaAction Number (Bool × Text) := do
  if (top.toText lua).isSome then
    return (true, (← tostring lua 1).getD value)
  else return (false, value)

/-- `loadInteger`: the value of a global as an int, if it has a number. -/
def loadInteger (lua : LuaLibrary Number) (name : Option Text) (value : Int) :
    LuaAction Number (Bool × Int) :=
  loadGlobal name (readInteger lua value) (false, value)

/-- `loadString`, which says whether the text is not empty. -/
def loadString (lua : LuaLibrary Number) (name : Option Text) (value : Text) :
    LuaAction Number (Bool × Text) := do
  let result ← loadGlobal name (readString lua value) (false, value)
  return (name.isSome && !result.2.isEmpty, result.2)

/-- `loadDouble`: the value of a global as a double, if it has a number. -/
def loadDouble (lua : LuaLibrary Number) (name : Option Text) (value : Number) :
    LuaAction Number (Bool × Number) :=
  loadGlobal name (readDouble lua value) (false, value)

/-- `loadBoolean`: the value of a global, if it is a boolean. -/
def loadBoolean (name : Option Text) (value : Bool) : LuaAction Number (Bool × Bool) :=
  loadGlobal name (readBoolean value) (false, value)

/-- The branch of a table: read the value of a field, and pop it and the table. -/
def tableField {β : Type} (name : Text) (read : LuaValue Number → LuaAction Number β) :
    LuaAction Number β := do
  pushstring name
  gettable 2
  let result ← read (← peek 1)
  pop 2
  return result

/-- The loads of a field: after the branch, which pops both the table and the value, the
table is popped once more. -/
def loadField {β : Type} (tableName name : Option Text)
    (read : LuaValue Number → LuaAction Number β) (unread : β) : LuaAction Number β :=
  match tableName, name with
  | some tableName, some name => do
      getglobal tableName
      let isTable := (← peek 1).isTable
      let result ← (if isTable then tableField name read else pure unread)
      pop 1
      return result
  | _, _ => pure unread

/-- `loadString` of a field. The last pop of its siblings is missing, so that the table stays on the
stack. -/
def loadStringField (lua : LuaLibrary Number) (tableName name : Option Text) (value : Text) :
    LuaAction Number (Bool × Text) :=
  match tableName, name with
  | some tableName, some name => do
      getglobal tableName
      if (← peek 1).isTable then tableField name (readString lua value) else return (false, value)
  | _, _ => pure (false, value)

/-- `loadInteger` of a field in a global table, which is the shape that all loads of a field share. -/
def loadIntegerField (lua : LuaLibrary Number) (tableName name : Option Text) (value : Int) :
    LuaAction Number (Bool × Int) :=
  loadField tableName name (readInteger lua value) (false, value)

/-- `loadDouble` of a field in a global table, of the same shape. -/
def loadDoubleField (lua : LuaLibrary Number) (tableName name : Option Text) (value : Number) :
    LuaAction Number (Bool × Number) :=
  loadField tableName name (readDouble lua value) (false, value)

/-- `loadBoolean` of a field, which takes any value for true or false. -/
def loadBooleanField (tableName name : Option Text) (value : Bool) :
    LuaAction Number (Bool × Bool) :=
  loadField tableName name (readTruth value) (false, value)

/-- `tolower` of the C locale, on one character: only the letters from A to Z are changed. -/
def tolower (byte : UInt8) : UInt8 := if 65 ≤ byte ∧ byte ≤ 90 then byte + 32 else byte

/-- `"true"` or `"false"`, as a field's boolean is stored. -/
def boolText (value : Bool) : Text :=
  if value then [116, 114, 117, 101] else [102, 97, 108, 115, 101]

/-- The text of a value in an object, where `lua_isnumber` is tried first. -/
def valueText (lua : LuaLibrary Number) : LuaAction Number (Option Text) := do
  let value ← peek 2
  if (value.toNumber lua).isSome then tostring lua 2
  else if (value.toText lua).isSome then tostring lua 2
  else
    match value with
    | .boolean value => return some (boolText value)
    | _ => return none

/-- The body of the loop of `loadObject`: the key is copied before its text is asked for, as the
conversion would confuse the walk. -/
def objectEntry (lua : LuaLibrary Number) (done : Bool × LuaObject) :
    LuaAction Number (Bool × LuaObject) := do
  pushvalue 2
  let key ← tostring lua 1
  let value ← valueText lua
  let done := match key, value with
    | some key, some value => (true, done.2.insert (key.map tolower) value)
    | _, _ => done
  pop 2
  return done

/-- The branch of a table in `loadObject`. The key that it pops in the end is the one that
the loop has popped. -/
def tableObject (lua : LuaLibrary Number) (obj : LuaObject) : LuaAction Number (Bool × LuaObject) := do
  pushnil
  let done ← whileNext 2 (objectEntry lua) (false, obj)
  if done.2.entries.isEmpty then pop 1
  return done

/-- `loadObject`: all fields of a global table that have texts, inserted in the object under
lower-case names. -/
def loadObject (lua : LuaLibrary Number) (tableName : Option Text) (obj : LuaObject) :
    LuaAction Number (Bool × LuaObject) :=
  match tableName with
  | none => pure (false, obj)
  | some tableName => do
      let n ← height
      getglobal tableName
      let isTable := (← peek 1).isTable
      let done ← (if isTable then tableObject lua obj else pure (false, obj))
      pop 1
      require ((← height) = n)
      return done

/-- The text of a value in a record: strings and numbers by `lua_tostring`, booleans by their names,
and nothing for the others. -/
def recordText (lua : LuaLibrary Number) : LuaAction Number Text := do
  let value ← peek 2
  if (value.toText lua).isSome then return (← tostring lua 2).getD []
  else
    match value with
    | .boolean value => return boolText value
    | _ => return []

/-- The body of the inner loop of `loadRecords`. A key without a text becomes the empty
string. -/
def recordEntry (lua : LuaLibrary Number) (record : LuaObject) : LuaAction Number LuaObject := do
  pushvalue 2
  let key ← tostring lua 1
  let value ← recordText lua
  pop 2
  return record.insert (key.getD []) value

/-- The branch of a table in the outer loop of `loadRecords`. -/
def tableRecord (lua : LuaLibrary Number) (records : List LuaObject) :
    LuaAction Number (List LuaObject) := do
  pushnil
  gettable 3
  let record ← whileNext 3 (recordEntry lua) ∅
  return if record.entries.isEmpty then records else records ++ [record]

/-- The body of the outer loop of `loadRecords`: an entry that is a table becomes a record, and the
others are passed over. -/
def recordsEntry (lua : LuaLibrary Number) (records : List LuaObject) :
    LuaAction Number (List LuaObject) := do
  pushvalue 2
  let _ ← tostring lua 1
  let isTable := (← peek 2).isTable
  let records ← (if isTable then tableRecord lua records else pure records)
  pop 2
  return records

/-- The branch of a table in `loadRecords`. It asks the table for the value of nil, and the walk
begins with the answer. -/
def tableRecords (lua : LuaLibrary Number) (records : List LuaObject) :
    LuaAction Number (List LuaObject) := do
  pushnil
  gettable 2
  whileNext 2 (recordsEntry lua) records

/-- `loadRecords`: the records of a global table of tables, appended to the list. -/
def loadRecords (lua : LuaLibrary Number) (tableName : Option Text) (records : List LuaObject) :
    LuaAction Number (Bool × List LuaObject) :=
  match tableName with
  | none => pure (false, records)
  | some tableName => do
      getglobal tableName
      let isTable := (← peek 1).isTable
      let records ← (if isTable then tableRecords lua records else pure records)
      return (true, records)

/-- The body of the loops of `loadArray`: the value is read and popped, and the key stays for
`lua_next`. -/
def arrayEntry {β : Type} (read : LuaValue Number → LuaAction Number (Option β))
    (done : Bool × List β) : LuaAction Number (Bool × List β) := do
  let element ← read (← peek 1)
  pop 1
  return (true, done.2 ++ element.toList)

/-- The branch of a table in the loads of an array. -/
def tableArray {β : Type} (read : LuaValue Number → LuaAction Number (Option β)) (vec : List β) :
    LuaAction Number (Bool × List β) := do
  pushnil
  whileNext 2 (arrayEntry read) (false, vec)

/-- The loads of an array: the values of a table that can be read. -/
def loadArray {β : Type} (read : LuaValue Number → LuaAction Number (Option β))
    (tableName : Option Text) (vec : List β) : LuaAction Number (Bool × List β) :=
  match tableName with
  | none => pure (false, vec)
  | some tableName => do
      let n ← height
      getglobal tableName
      let isTable := (← peek 1).isTable
      let done ← (if isTable then tableArray read vec else pure (false, vec))
      pop 1
      require ((← height) = n)
      return done

/-- `loadArray_s`: the texts among the values of a global table, in the order of its entries. -/
def loadArrayS (lua : LuaLibrary Number) (tableName : Option Text) (vec : List Text) :
    LuaAction Number (Bool × List Text) :=
  loadArray (fun value => if (value.toText lua).isSome then tostring lua 1 else pure none) tableName vec

/-- `loadArray_i`: the numbers among the values of a global table, each as the int that its low 32
bits give. -/
def loadArrayI (lua : LuaLibrary Number) (tableName : Option Text) (vec : List Int) :
    LuaAction Number (Bool × List Int) :=
  loadArray (fun value => pure ((value.toNumber lua).map fun number => toInt (lua.toInteger number)))
    tableName vec

/-- `loadArray_d`: the numbers among the values of a global table. -/
def loadArrayD (lua : LuaLibrary Number) (tableName : Option Text) (vec : List Number) :
    LuaAction Number (Bool × List Number) :=
  loadArray (fun value => pure (value.toNumber lua)) tableName vec

/-- `doString`: run a chunk, and answer minus one when it is NULL or fails. -/
def doString (lua : LuaLibrary Number) (chunk : Option Text) : LuaAction Number Int :=
  match chunk with
  | none => pure (-1)
  | some chunk => do
      if ← dostring lua chunk then return -1
      else return 0

end CLua

end OpenTaker

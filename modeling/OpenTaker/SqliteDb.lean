import Mathlib.Data.List.AList
import Mathlib.Tactic.Common

/-!
# The SQLite wrapper

A `CSqlLiteDB` keeps one compiled statement for each table and a flag for an open
transaction. The engine below it may fail at each preparation, begin and commit; what it did
is given with each call. It hands out a fresh statement for each preparation that succeeds,
refuses to begin inside of a transaction and to commit outside of one, and rolls an open
transaction back when the connection is closed.

Beside the wrapper the model keeps which statements have been finalized and whether one of
them has been used after that.
-/

namespace OpenTaker

/-- An open connection: the rows written in its transaction, when it is inside of one. -/
structure Connection where
  inside : Bool
  pending : List Nat
deriving DecidableEq

namespace Connection

/-- A connection that has just been opened is outside of a transaction. -/
def new : Connection := ⟨false, []⟩

/-- `begin;` where the engine has no other reason to fail, or has one. -/
def begin (connection : Connection) (succeeds : Bool) : Connection :=
  if !connection.inside && succeeds then ⟨true, []⟩ else connection

/-- `commit;` and the rows that it commits, which are none where it fails or no transaction is open. -/
def commit (connection : Connection) (succeeds : Bool) : List Nat × Connection :=
  if connection.inside && succeeds then (connection.pending, ⟨false, []⟩) else ([], connection)

/-- Write a row, and the rows that are committed at once. -/
def write (connection : Connection) (row : Nat) : List Nat × Connection :=
  if connection.inside then ([], { connection with pending := connection.pending ++ [row] })
  else ([row], connection)

end Connection

/-- `m_stmts`: one statement for each table name. -/
abbrev Stmts := AList (fun _ : String => Nat)

/-- The statements that are stored, whatever their names are. -/
def storedStmts (stmts : Stmts) : List Nat := stmts.entries.map (·.2)

/-- A `CSqlLiteDB`, and what the engine remembers. Statements are numbered as they are
prepared. -/
structure SqlLiteDB where
  db : Option Connection
  stmts : Stmts
  hasTransaction : Bool
  prepared : Nat
  finalized : List Nat
  /-- A statement was used after it had been finalized. -/
  misused : Bool
  committed : List Nat

namespace SqlLiteDB

/-- The constructor: nothing is open, stored or counted, and no transaction is noted. -/
def new : SqlLiteDB := ⟨none, ∅, false, 0, [], false, []⟩

/-- `commit`: with a transaction noted, ask the engine to commit, and clear the flag whatever it
answers. -/
def commit (state : SqlLiteDB) (commits : Bool) : SqlLiteDB :=
  match state.db with
  | none => state
  | some connection =>
      if !state.hasTransaction then state
      else
        let done := connection.commit commits
        { state with
          db := some done.2, hasTransaction := false, committed := state.committed ++ done.1 }

/-- `beginTransact`: ask the engine, and set the flag, whatever it has answered. -/
def beginTransact (state : SqlLiteDB) (begins : Bool) : SqlLiteDB :=
  match state.db with
  | none => state
  | some connection => { state with db := some (connection.begin begins), hasTransaction := true }

/-- `flush`: commit and begin again, with the flag as the two leave it. -/
def flush (state : SqlLiteDB) (commits begins : Bool) : SqlLiteDB :=
  (state.commit commits).beginTransact begins

/-- `close`: finalize what is stored, commit, and close the connection. -/
def close (state : SqlLiteDB) (commits : Bool) : SqlLiteDB :=
  match state.db with
  | none => state
  | some _ =>
      let finalized := { state with finalized := state.finalized ++ storedStmts state.stmts }
      { finalized.commit commits with stmts := ∅, db := none }

/-- `open`. When the engine cannot open the database, there is no connection. -/
def openDb (state : SqlLiteDB) (dbPath : Option String) (commits opens : Bool) : SqlLiteDB :=
  match dbPath with
  | none => state
  | some _ => { state.close commits with db := if opens then some .new else none }

/-- `getStatment`: the statement stored for a name. For NULL there is none, although `compile`
stores one under the empty name then. -/
def getStatment (state : SqlLiteDB) (tableName : Option String) : Option Nat :=
  match tableName with
  | none => none
  | some name => state.stmts.lookup name

/-- The key that `m_stmts[_tableName]` makes of a name: NULL becomes the empty string. -/
def keyOf (tableName : Option String) : String := tableName.getD ""

/-- `compile`: finalize the statement stored for the name, prepare a new one, and store it if that
succeeded. -/
def compile (state : SqlLiteDB) (tableName sql : Option String) (prepares : Bool) : SqlLiteDB :=
  if state.db.isNone ∨ sql.isNone then state
  else
    let released :=
      match state.getStatment tableName with
      | some stmt => { state with finalized := state.finalized ++ [stmt] }
      | none => state
    if prepares then
      { released with
        prepared := released.prepared + 1
        stmts := released.stmts.insert (keyOf tableName) released.prepared }
    else released

/-- `doStmt`, which resets, binds and steps the statement, and the row that it writes. -/
def doStmt (state : SqlLiteDB) (tableName fmt : Option String) (row : Option Nat) : SqlLiteDB :=
  match state.db, fmt, state.getStatment tableName with
  | some connection, some _, some stmt =>
      let done := (row.map connection.write).getD ([], connection)
      { state with
        db := some done.2
        misused := state.misused || decide (stmt ∈ state.finalized)
        committed := state.committed ++ done.1 }
  | _, _, _ => state

/-- `exec` of a statement that neither begins nor commits, and the row that it writes. -/
def exec (state : SqlLiteDB) (sql : Option String) (row : Option Nat) : SqlLiteDB :=
  match state.db, sql with
  | some connection, some _ =>
      let done := (row.map connection.write).getD ([], connection)
      { state with db := some done.2, committed := state.committed ++ done.1 }
  | _, _ => state

end SqlLiteDB

/-- One call, with what the engine does in it. -/
inductive DbCall where
  | open (dbPath : Option String) (commits opens : Bool)
  | close (commits : Bool)
  | compile (tableName sql : Option String) (prepares : Bool)
  | doStmt (tableName fmt : Option String) (row : Option Nat)
  | exec (sql : Option String) (row : Option Nat)
  | beginTransact (begins : Bool)
  | commit (commits : Bool)
  | flush (commits begins : Bool)

namespace SqlLiteDB

/-- Perform one call. Every call is possible in every state. -/
def step (state : SqlLiteDB) : DbCall → Option SqlLiteDB
  | .open dbPath commits opens => some (state.openDb dbPath commits opens)
  | .close commits => some (state.close commits)
  | .compile tableName sql prepares => some (state.compile tableName sql prepares)
  | .doStmt tableName fmt row => some (state.doStmt tableName fmt row)
  | .exec sql row => some (state.exec sql row)
  | .beginTransact begins => some (state.beginTransact begins)
  | .commit commits => some (state.commit commits)
  | .flush commits begins => some (state.flush commits begins)

/-- Every call can be made in every state, and has its next state. -/
theorem step_taken (state : SqlLiteDB) (call : DbCall) : ∃ next, state.step call = some next := by
  cases call <;> exact ⟨_, rfl⟩

end SqlLiteDB

end OpenTaker

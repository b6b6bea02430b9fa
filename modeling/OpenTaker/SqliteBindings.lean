import OpenTaker.Runs
import OpenTaker.CStrings
import OpenTaker.InetAddrText
import OpenTaker.SqliteDb

/-!
# The values of a statement

`doStmt` binds the arguments that its format names to the parameters of the statement, from the
first on, and executes it. The engine keeps what was bound to a parameter until something else is
bound to it, and of a text it keeps the pointer, as the databases are of its own encoding. A double
that is not a number is bound as NULL. So a row is made of the last value of each parameter, and a
format with fewer entries, or a call that has failed half-way, leaves values to later rows.

The engine prepares no statement from a text without one, and does not call that a failure: the
wrapper then stores a NULL, which `doStmt` refuses like a table that was never compiled.
-/

namespace OpenTaker.SqliteBindings

open AddressText

/-- An argument as `va_arg` finds it. A text is the address of its characters. -/
inductive StmtArg where
  | double (bits : UInt64)
  | int (value : Int)
  | string (addr : Nat)
deriving DecidableEq

/-- What is bound to a parameter. The engine copies numbers, and keeps the address and the size of
a text that is bound without a destructor. -/
inductive Bound where
  | null
  | double (bits : UInt64)
  | int (value : Int)
  | text (addr size : Nat)
deriving DecidableEq

/-- A value in a row, as the execution sees it: a text with its characters, no longer by its
address. -/
inductive Cell where
  | null
  | double (bits : UInt64)
  | int (value : Int)
  | text (bytes : List UInt8)
deriving DecidableEq

/-- The memory of the caller: the bytes from an address to the end of its buffer. -/
abbrev Buffers := Nat → List UInt8

/-- `sqlite3IsNaN`, which compares a double with itself: no number has all bits of the exponent set and
some of the fraction. -/
def isNaN (bits : UInt64) : Bool := decide (0x7ff0000000000000 < bits &&& 0x7fffffffffffffff)

/-- `strlen`, which the source measures a text by before it is bound. -/
def strlen (buffers : Buffers) (addr : Nat) : Nat := (CStrings.cString (buffers addr)).length

/-- What an argument says. A table has no value for a double that is not a number. -/
def StmtArg.cell (buffers : Buffers) : StmtArg → Cell
  | .double bits => if isNaN bits then .null else .double bits
  | .int value => .int value
  | .string addr => .text (CStrings.cString (buffers addr))

/-- What the engine finds when it executes the statement, which for a text is what stands there by then. -/
def Bound.cell (buffers : Buffers) : Bound → Cell
  | .null => .null
  | .double bits => .double bits
  | .int value => .int value
  | .text addr size => .text ((buffers addr).take size)

/-- What `doStmt` binds of an argument. `sqlite3VdbeMemSetDouble` makes a NULL of what is no number. -/
def StmtArg.bound (buffers : Buffers) : StmtArg → Bound
  | .double bits => if isNaN bits then .null else .double bits
  | .int value => .int value
  | .string addr => .text addr (strlen buffers addr)

/-- `SQLITE_MAX_LENGTH`, above which the engine refuses a text. Such texts are left out. -/
def sqliteMaxLength : Nat := 1000000000

/-- A text is short enough for the engine, and a number always is. -/
def StmtArg.fits (buffers : Buffers) : StmtArg → Bool
  | .string addr => strlen buffers addr ≤ sqliteMaxLength
  | _ => true

/-- A prepared statement of the engine: the number of its parameters and their values. -/
structure PreparedStmt where
  nVar : Nat
  aVar : Nat → Bound

/-- `SQLITE_RANGE`, for a parameter that the statement does not have. -/
def sqliteRange : Int := 25

/-- `sqlite3_bind_double`, `sqlite3_bind_int` and `sqlite3_bind_text` of a statement that was
reset. Parameters are counted from one. -/
def PreparedStmt.bind (stmt : PreparedStmt) (i : Nat) (value : Bound) : Int × PreparedStmt :=
  if i < 1 ∨ stmt.nVar < i then (sqliteRange, stmt)
  else (0, { stmt with aVar := Function.update stmt.aVar (i - 1) value })

/-- What an entry of the format asks for: an argument of its type, nothing that is known, or
something undefined. -/
inductive Entry where
  /-- `va_arg` of another type, or of no argument. -/
  | undefined
  | unknown
  | argument (arg : StmtArg) (rest : List StmtArg)

/-- An entry and the arguments that are left, one of which it takes if the type of that is its own. -/
def entryOf (piece : Text) (args : List StmtArg) : Entry :=
  if piece = ['%', 'd'] then
    match args with
    | .double bits :: rest => .argument (.double bits) rest
    | _ => .undefined
  else if piece = ['%', 'u'] then
    match args with
    | .int value :: rest => .argument (.int value) rest
    | _ => .undefined
  else if piece = ['%', 's'] then
    match args with
    | .string addr :: rest => .argument (.string addr) rest
    | _ => .undefined
  else .unknown

/-- The loop of `doStmt` over the entries, with `n` and the statement; `true` when it ends without
a return of -2. -/
def bindLoop (buffers : Buffers) : List Text → List StmtArg → Nat → PreparedStmt →
    Option (Bool × PreparedStmt)
  | [], _, _, stmt => some (true, stmt)
  | piece :: pieces, args, n, stmt =>
      match entryOf piece args with
      | .undefined => none
      | .unknown => some (false, stmt)
      | .argument arg rest =>
          if arg.fits buffers then
            match stmt.bind (n + 1) (arg.bound buffers) with
            | (0, stmt) => bindLoop buffers pieces rest (n + 1) stmt
            | (_, stmt) => some (false, stmt)
          else none

/-- The arguments that the loop binds when so many parameters are left. -/
def reached : List Text → List StmtArg → Nat → List StmtArg
  | [], _, _ => []
  | _ :: _, _, 0 => []
  | piece :: pieces, args, room + 1 =>
      match entryOf piece args with
      | .argument arg rest => arg :: reached pieces rest room
      | _ => []

/-! ## The loop -/

section Loop

variable (buffers : Buffers)

/-- The parameters from `n` on get the values that are given. -/
def PreparedStmt.bindAll (stmt : PreparedStmt) (n : Nat) (values : List Bound) : PreparedStmt where
  nVar := stmt.nVar
  aVar := fun i => if n ≤ i then values.getD (i - n) (stmt.aVar i) else stmt.aVar i

/-- Without values nothing is bound, and all parameters stay as they are. -/
@[simp] theorem bindAll_nil (stmt : PreparedStmt) (n : Nat) : stmt.bindAll n [] = stmt := by
  simp [PreparedStmt.bindAll]

/-- The values are bound one after the other, from the given parameter on. -/
theorem bindAll_cons (stmt : PreparedStmt) (n : Nat) (value : Bound) (values : List Bound) :
    stmt.bindAll n (value :: values) =
      PreparedStmt.bindAll { stmt with aVar := Function.update stmt.aVar n value } (n + 1)
        values := by
  simp only [PreparedStmt.bindAll, PreparedStmt.mk.injEq, true_and]
  funext i
  rcases Nat.lt_trichotomy i n with before | rfl | behind
  · have other : i ≠ n := by omega
    simp [show ¬ n ≤ i by omega, show ¬ n + 1 ≤ i by omega, other]
  · simp
  · have other : i ≠ n := by omega
    obtain ⟨offset, rfl⟩ := Nat.exists_eq_add_of_lt behind
    have here : n + offset + 1 - n = offset + 1 := by omega
    have there : n + offset + 1 - (n + 1) = offset := by omega
    simp [show n ≤ n + offset + 1 by omega, here, there, other]

/-- The loop binds what it reaches, whatever ends it; and when nothing does, it has reached an
argument for each entry. -/
theorem bindLoop_spec {pieces : List Text} {args : List StmtArg} {n : Nat}
    {stmt after : PreparedStmt} {completes : Bool}
    (bound : bindLoop buffers pieces args n stmt = some (completes, after)) :
    after = stmt.bindAll n ((reached pieces args (stmt.nVar - n)).map (StmtArg.bound buffers)) ∧
      (completes = true → (reached pieces args (stmt.nVar - n)).length = pieces.length) := by
  induction pieces generalizing args n stmt with
  | nil =>
    cases bound
    simp [reached]
  | cons piece pieces inductionHypothesis =>
    rw [bindLoop] at bound
    cases entry : entryOf piece args with
    | undefined => simp [entry] at bound
    | unknown =>
      simp only [entry, Option.some.injEq, Prod.mk.injEq] at bound
      obtain ⟨rfl, rfl⟩ := bound
      cases room : stmt.nVar - n <;> simp [reached, entry]
    | argument arg rest =>
      simp only [entry, Option.ite_none_right_eq_some] at bound
      replace bound := bound.2
      by_cases outside : stmt.nVar < n + 1
      · have noRoom : stmt.nVar - n = 0 := by omega
        simp only [PreparedStmt.bind, outside, or_true, ↓reduceIte, sqliteRange] at bound
        cases bound
        simp [noRoom, reached]
      · obtain ⟨room, isRoom⟩ : ∃ room, stmt.nVar - n = room + 1 := ⟨stmt.nVar - n - 1, by omega⟩
        have notOutside : ¬ (n + 1 < 1 ∨ stmt.nVar < n + 1) := by omega
        simp only [PreparedStmt.bind, notOutside, ↓reduceIte, Nat.add_sub_cancel] at bound
        obtain ⟨same, complete⟩ := inductionHypothesis bound
        have left : stmt.nVar - (n + 1) = room := by omega
        simp only [left] at same complete
        rw [isRoom, reached, entry]
        refine ⟨?_, ?_⟩
        · rw [same, List.map_cons, bindAll_cons]
        · intro done
          rw [List.length_cons, List.length_cons, complete done]

end Loop

/-! ## Calls -/

/-- An execution of a statement: the values of its parameters, and where they come from. -/
structure StmtRow where
  nVar : Nat
  /-- The number of entries of the format. -/
  entries : Nat
  cells : List Cell
  buffers : Buffers
  /-- The arguments that this call has bound, and the values that the calls before it have bound
  since the statement was prepared, the first ones first. -/
  given : List StmtArg
  earlier : List (List Bound)

/-- A `CSqlLiteDB` with the statements of the engine, by their numbers. A number that stands for a NULL
has no statement. -/
structure StmtDb where
  db : SqlLiteDB
  stmts : Nat → Option PreparedStmt
  /-- The values bound by each call since the preparation. No call reads them. -/
  attempts : Nat → List (List Bound)
  rows : List StmtRow

/-- The constructor. Nothing has been prepared, so that no number has a statement. -/
def StmtDb.new : StmtDb := ⟨.new, fun _ => none, fun _ => [], []⟩

/-- One call, with what the engine does in it. -/
inductive StmtCall where
  /-- `compile` of a text whose statement has so many parameters, or of a text without a statement. -/
  | compile (tableName sql : Option String) (prepares : Bool) (nVar : Option Nat)
  | doStmt (tableName : Option String) (fmt : Option Text) (args : List StmtArg)
      (buffers : Buffers) (row : Option Nat)
  | other (call : DbCall)

/-- The calls of the wrapper that are not described here. -/
def plainCall : DbCall → Bool
  | .compile .. => false
  | .doStmt .. => false
  | _ => true

namespace StmtDb

/-- `compile`: the statement it prepares, if the text has one, has no values yet. -/
def compile (state : StmtDb) (tableName sql : Option String) (prepares : Bool) (nVar : Option Nat) :
    StmtDb :=
  let db := state.db.compile tableName sql prepares
  if db.prepared = state.db.prepared then { state with db := db }
  else
    { state with
      db := db
      stmts := Function.update state.stmts state.db.prepared (nVar.map fun n => ⟨n, fun _ => .null⟩)
      attempts := Function.update state.attempts state.db.prepared [] }

/-- `doStmt`. Without a statement it returns -1 and changes nothing. A finalized statement, or an
argument that is not of the type its entry names, is undefined. -/
def doStmt (state : StmtDb) (tableName : Option String) (fmt : Option Text) (args : List StmtArg)
    (buffers : Buffers) (row : Option Nat) : Option StmtDb :=
  match state.db.db, fmt, state.db.getStatment tableName with
  | some _, some fmt, some number =>
      match state.stmts number with
      | none => some state
      | some stmt =>
          if number ∈ state.db.finalized then none
          else
            let pieces := strSplit fmt [',']
            match bindLoop buffers pieces args 0 stmt with
            | none => none
            | some (completes, after) =>
                let given := reached pieces args stmt.nVar
                let bound :=
                  { state with
                    stmts := Function.update state.stmts number (some after)
                    attempts := Function.update state.attempts number
                      (state.attempts number ++ [given.map (StmtArg.bound buffers)]) }
                if completes then
                  some { bound with
                    db := state.db.doStmt tableName (some (String.ofList fmt)) row
                    rows := state.rows ++ [
                      { nVar := after.nVar
                        entries := pieces.length
                        cells := (List.range after.nVar).map fun i => (after.aVar i).cell buffers
                        buffers := buffers
                        given := given
                        earlier := state.attempts number }] }
                else some bound
  | _, _, _ => some state

/-- Perform one call: a compilation, an execution, or another call of the wrapper that binds
nothing. -/
def step (state : StmtDb) : StmtCall → Option StmtDb
  | .compile tableName sql prepares nVar => some (state.compile tableName sql prepares nVar)
  | .doStmt tableName fmt args buffers row => state.doStmt tableName fmt args buffers row
  | .other call =>
      if plainCall call then (state.db.step call).map fun db => { state with db := db } else none

end StmtDb

/-! ## The last values -/

/-- The value that was bound to a parameter last. -/
def lastBound (attempts : List (List Bound)) (i : Nat) : Bound :=
  (attempts.reverse.findSome? fun values => values[i]?).getD .null

/-- The last value of a parameter is that of the last attempt which reached it, and an older one
otherwise. -/
theorem lastBound_append (attempts : List (List Bound)) (values : List Bound) (i : Nat) :
    lastBound (attempts ++ [values]) i = values.getD i (lastBound attempts i) := by
  rw [lastBound, List.reverse_append, List.reverse_singleton, List.singleton_append,
    List.findSome?_cons]
  cases found : values[i]? <;> simp [List.getD_eq_getElem?_getD, found, lastBound]

/-- The values of the engine are the last ones that were bound. -/
def KeepsLast (state : StmtDb) : Prop :=
  ∀ number stmt, state.stmts number = some stmt →
    ∀ i, stmt.aVar i = lastBound (state.attempts number) i

/-- A row has an argument for each entry of the format, and is made of the last value of each
parameter, the texts as they are now. -/
structure MadeOfLast (row : StmtRow) : Prop where
  given : row.given.length = row.entries
  cells : row.cells = (List.range row.nVar).map fun i =>
    (lastBound (row.earlier ++ [row.given.map (StmtArg.bound row.buffers)]) i).cell row.buffers

namespace StmtDb

variable {state next : StmtDb}

/-- A call that has bound some values of a statement keeps the last ones, of this statement and of the
others, whose values it has not touched. -/
theorem keepsLast_bound (keeps : KeepsLast state) {number : Nat} {stmt after : PreparedStmt}
    {values : List Bound} (stored : state.stmts number = some stmt)
    (bound : after = stmt.bindAll 0 values) :
    ∀ other found, Function.update state.stmts number (some after) other = some found → ∀ i, found.aVar i =
      lastBound (Function.update state.attempts number (state.attempts number ++ [values]) other) i := by
  intro other found isFound i
  by_cases here : other = number
  · subst here
    rw [Function.update_self] at isFound
    obtain rfl := Option.some.inj isFound
    rw [Function.update_self, lastBound_append, bound, ← keeps other stmt stored]
    simp [PreparedStmt.bindAll]
  · rw [Function.update_of_ne here] at isFound
    rw [Function.update_of_ne here]
    exact keeps other found isFound i

/-- `doStmt` keeps the values, and executes the statement with them if it executes it at all. -/
theorem doStmt_keepsLast {tableName : Option String} {fmt : Option Text} {args : List StmtArg}
    {buffers : Buffers} {row : Option Nat} (keeps : KeepsLast state)
    (stepped : state.doStmt tableName fmt args buffers row = some next) :
    KeepsLast next ∧ (next.rows = state.rows ∨
      ∃ written, next.rows = state.rows ++ [written] ∧ MadeOfLast written) := by
  simp only [doStmt] at stepped
  split at stepped
  · rename_i connection fmt number isOpen named
    split at stepped
    · cases stepped
      exact ⟨keeps, .inl rfl⟩
    · rename_i stmt stored
      split at stepped
      · cases stepped
      · split at stepped
        · cases stepped
        · rename_i completes after bound
          obtain ⟨isAll, complete⟩ := bindLoop_spec buffers bound
          rw [Nat.sub_zero] at isAll complete
          have kept := keepsLast_bound keeps stored isAll
          cases completes with
          | false =>
            simp only [Bool.false_eq_true, ↓reduceIte, Option.some.injEq] at stepped
            subst stepped
            exact ⟨kept, .inl rfl⟩
          | true =>
            simp only [↓reduceIte, Option.some.injEq] at stepped
            subst stepped
            refine ⟨kept, .inr ⟨_, rfl, complete rfl, ?_⟩⟩
            refine List.map_congr_left fun i _ => ?_
            have same := kept number after (Function.update_self ..) i
            rw [Function.update_self] at same
            rw [same]
  · cases stepped
    exact ⟨keeps, .inl rfl⟩

/-- `compile` keeps them too: a statement that it prepares starts with NULLs, and its number was not
used before. -/
theorem compile_keepsLast (keeps : KeepsLast state) (tableName sql : Option String)
    (prepares : Bool) (nVar : Option Nat) : KeepsLast (state.compile tableName sql prepares nVar) := by
  intro number stmt stored i
  simp only [compile] at stored ⊢
  split at stored
  · rename_i same
    rw [if_pos same]
    exact keeps number stmt stored i
  · rename_i other
    rw [if_neg other]
    by_cases here : number = state.db.prepared
    · subst here
      simp only [Function.update_self, Option.map_eq_some_iff] at stored ⊢
      obtain ⟨n, -, rfl⟩ := stored
      rfl
    · simp only [Function.update_of_ne here] at stored ⊢
      exact keeps number stmt stored i

/-- Each call keeps the values, and what it executes is made of them. -/
theorem step_keepsLast (keeps : KeepsLast state) {call : StmtCall}
    (stepped : state.step call = some next) :
    KeepsLast next ∧ (next.rows = state.rows ∨
      ∃ written, next.rows = state.rows ++ [written] ∧ MadeOfLast written) := by
  cases call with
  | compile tableName sql prepares nVar =>
    cases stepped
    refine ⟨compile_keepsLast keeps tableName sql prepares nVar, .inl ?_⟩
    simp only [compile]
    split <;> rfl
  | doStmt tableName fmt args buffers row => exact doStmt_keepsLast keeps stepped
  | other call =>
    simp only [step, Option.ite_none_right_eq_some] at stepped
    obtain ⟨db, -, rfl⟩ := Option.map_eq_some_iff.mp stepped.2
    exact ⟨keeps, .inl rfl⟩

end StmtDb

/-! ## Runs -/

/-- What an execution says: a format with an entry for each parameter gives its own arguments, and
any other completes them from the calls before it. -/
structure RowValues (row : StmtRow) : Prop where
  last : MadeOfLast row
  own : row.entries = row.nVar → row.cells = row.given.map (StmtArg.cell row.buffers)

/-- A value as it was bound shows in the row what its argument shows, as long as the text it points
to is the same. -/
@[simp] theorem bound_cell (buffers : Buffers) (arg : StmtArg) :
    (arg.bound buffers).cell buffers = arg.cell buffers := by
  cases arg with
  | double bits =>
    simp only [StmtArg.bound, StmtArg.cell]
    split <;> rfl
  | int value => rfl
  | string addr =>
    have start : CStrings.cString (buffers addr) <+: buffers addr := List.takeWhile_prefix _
    simp only [StmtArg.bound, Bound.cell, StmtArg.cell, strlen]
    rw [← List.prefix_iff_eq_take.mp start]

/-- A format with an entry for each parameter leaves nothing of the calls before, so that the row is
made of its own arguments. -/
theorem MadeOfLast.own {row : StmtRow} (last : MadeOfLast row) (full : row.entries = row.nVar) :
    row.cells = row.given.map (StmtArg.cell row.buffers) := by
  rw [last.cells, ← full, ← last.given]
  refine List.ext_getElem (by simp) fun i inside _ => ?_
  have within : i < row.given.length := by simpa using inside
  simp [lastBound_append, List.getD_eq_getElem?_getD, within]

/-- In every run of compilations, calls of `doStmt` that succeed or fail, and other calls of the
wrapper, each execution of a statement has for each parameter the value that was bound to it last
since the statement was prepared; and the values of its own arguments alone, when its format has an
entry for each parameter. -/
theorem rows_have_last_values (calls : List StmtCall) (final : StmtDb)
    (ran : Runs.run StmtDb.step StmtDb.new calls = some final) :
    ∀ row ∈ final.rows, RowValues row := by
  have invariant : KeepsLast final ∧ ∀ row ∈ final.rows, MadeOfLast row := by
    refine Runs.run_invariant StmtDb.step (fun state => KeepsLast state ∧ ∀ row ∈ state.rows,
      MadeOfLast row) ?_ StmtDb.new final calls ⟨fun _ _ stored => (by cases stored), fun _ listed => ?_⟩ ran
    · rintro state call next ⟨keeps, rows⟩ stepped
      obtain ⟨kept, same | ⟨written, extended, ofLast⟩⟩ := StmtDb.step_keepsLast keeps stepped
      · exact ⟨kept, same ▸ rows⟩
      · refine ⟨kept, fun row listed => ?_⟩
        rw [extended, List.mem_append, List.mem_singleton] at listed
        rcases listed with before | rfl
        · exact rows row before
        · exact ofLast
    · exact absurd listed List.not_mem_nil
  exact fun row listed => ⟨invariant.2 row listed, (invariant.2 row listed).own⟩

/-- Two executions of a statement with three parameters. The second one gives a number only, and the
text buffer of the first has been written over. -/
def twoExecutions : List StmtCall :=
  [.other (.open (some "") true true),
    .compile (some "t") (some "insert into t values(?, ?, ?)") true (some 3),
    .doStmt (some "t") (some ['%', 'u', ',', '%', 's', ',', '%', 'd'])
      [.int 7, .string 0, .double 0x7ff8000000000000] (fun _ => [97, 98, 0]) none,
    .doStmt (some "t") (some ['%', 'u']) [.int 8] (fun _ => [120, 121, 122, 0]) none]

/-- The second row keeps the place and the length of the first one's text, and what was no number
is NULL in both. -/
theorem rows_have_last_values_two :
    ∃ final, Runs.run StmtDb.step StmtDb.new twoExecutions = some final ∧
      final.rows.map StmtRow.cells =
        [[.int 7, .text [97, 98], .null], [.int 8, .text [120, 121], .null]] ∧
      ∀ row ∈ final.rows, RowValues row := by
  obtain ⟨final, ran, cells⟩ := Runs.run_reaches StmtDb.step StmtDb.new twoExecutions
    (fun final => final.rows.map StmtRow.cells =
      [[.int 7, .text [97, 98], .null], [.int 8, .text [120, 121], .null]]) (by decide)
  exact ⟨final, ran, cells, rows_have_last_values _ _ ran⟩

end OpenTaker.SqliteBindings

import OpenTaker.Runs
import OpenTaker.SqliteDb

/-!
# The transaction flag

`beginTransact` sets the flag and `commit` clears it whatever the engine answers. The flag
goes wrong where a transaction could not be begun and none was open, and where one could not
be committed, which is then out of the wrapper's reach: the next `commit` asks nothing of
the engine, and `close` rolls the rows back. A `flush` whose commit fails is mended by its
own begin, which fails inside of the transaction that is still open.
-/

namespace OpenTaker.SqlLiteDB

/-- The connection is inside of a transaction, as sqlite itself knows it. -/
def Inside (state : SqlLiteDB) : Prop := ∃ connection, state.db = some connection ∧ connection.inside = true

/-- The rows of the open transaction, which are not committed yet. -/
def pendingRows (state : SqlLiteDB) : List Nat := (state.db.map (·.pending)).getD []

/-- The flag agrees with the connection, and a commit or a close that the engine does not
refuse commits the pending rows. -/
structure FlagAgrees (state : SqlLiteDB) : Prop where
  agrees : state.hasTransaction = true ↔ state.Inside
  commits : (state.commit true).committed = state.committed ++ state.pendingRows
  closes : (state.close true).committed = state.committed ++ state.pendingRows

/-- What the engine does in a call leads to what the flag will say. -/
def Answered (state : SqlLiteDB) : DbCall → Prop
  | .beginTransact begins => state.db = none ∨ state.hasTransaction = true ∨ begins = true
  | .commit commits => state.db = none ∨ state.hasTransaction = false ∨ commits = true
  | .flush commits begins =>
      state.db = none ∨ begins = true ∨ (state.hasTransaction = true ∧ commits = false)
  | _ => True

/-- The flag agrees with the connection, and rows are pending inside of a transaction
only. -/
structure Flagged (state : SqlLiteDB) : Prop where
  agrees : ∀ connection, state.db = some connection → state.hasTransaction = connection.inside
  outside : ∀ connection, state.db = some connection → connection.inside = false → connection.pending = []
  disconnected : state.db = none → state.hasTransaction = false

variable {state next : SqlLiteDB}

/-- `close` commits as `commit` does, and clears the flag. -/
theorem close_commit {connection : Connection} (isOpen : state.db = some connection) (commits : Bool) :
    (state.close commits).committed = (state.commit commits).committed ∧
      (state.close commits).hasTransaction = false ∧ (state.close commits).db = none := by
  cases flag : state.hasTransaction <;> simp [close, commit, isOpen, flag]

namespace Flagged

/-- In a flagged state the flag tells whether the connection is inside of a transaction. -/
theorem inside_iff (flagged : Flagged state) : state.hasTransaction = true ↔ state.Inside := by
  cases isOpen : state.db with
  | none => simp [Inside, isOpen, flagged.disconnected isOpen]
  | some connection => simp [Inside, isOpen, flagged.agrees connection isOpen]

/-- A commit that the engine does not refuse commits the pending rows. -/
theorem commit_true (flagged : Flagged state) :
    (state.commit true).committed = state.committed ++ state.pendingRows := by
  cases isOpen : state.db with
  | none => simp [commit, pendingRows, isOpen]
  | some connection =>
    have agrees := flagged.agrees connection isOpen
    cases inside : connection.inside with
    | false => simp [commit, pendingRows, isOpen, agrees, inside, flagged.outside connection isOpen inside]
    | true => simp [commit, pendingRows, isOpen, agrees, inside, Connection.commit]

/-- A close that commits first commits the pending rows as well. -/
theorem close_true (flagged : Flagged state) :
    (state.close true).committed = state.committed ++ state.pendingRows := by
  cases isOpen : state.db with
  | none => simp [close, pendingRows, isOpen]
  | some connection => rw [(close_commit isOpen true).1, flagged.commit_true]

/-- A flagged state has all that is asked of the flag: the agreement, and both ways of committing. -/
theorem flagAgrees (flagged : Flagged state) : FlagAgrees state :=
  ⟨flagged.inside_iff, flagged.commit_true, flagged.close_true⟩

/-- Without a connection the flag is clear, as `close` clears it. -/
theorem of_disconnected (disconnected : state.db = none) (flag : state.hasTransaction = false) :
    Flagged state where
  agrees _ isOpen := by rw [disconnected] at isOpen; cases isOpen
  outside _ isOpen := by rw [disconnected] at isOpen; cases isOpen
  disconnected _ := flag

/-- With a connection, two facts are enough for the invariant. -/
theorem of_connection {connection : Connection} (isOpen : state.db = some connection)
    (flag : state.hasTransaction = connection.inside)
    (outside : connection.inside = false → connection.pending = []) : Flagged state where
  agrees other same := by
    rw [isOpen, Option.some.injEq] at same
    exact same ▸ flag
  outside other same := by
    rw [isOpen, Option.some.injEq] at same
    exact same ▸ outside
  disconnected none := by rw [isOpen] at none; cases none

/-- A call that leaves the flag and the connection alone. -/
theorem congr (flagged : Flagged state) (db : next.db = state.db)
    (flag : next.hasTransaction = state.hasTransaction) : Flagged next where
  agrees connection isOpen := flag.trans (flagged.agrees connection (db ▸ isOpen))
  outside connection isOpen := flagged.outside connection (db ▸ isOpen)
  disconnected none := flag.trans (flagged.disconnected (db ▸ none))

/-- A call that writes a row on the connection. -/
theorem written (flagged : Flagged state) {connection : Connection}
    (isOpen : state.db = some connection) (row : Option Nat)
    (db : next.db = some ((row.map connection.write).getD ([], connection)).2)
    (flag : next.hasTransaction = state.hasTransaction) : Flagged next := by
  have agrees := flagged.agrees connection isOpen
  have outside := flagged.outside connection isOpen
  cases row with
  | none => exact of_connection db (flag.trans agrees) outside
  | some row =>
    cases inside : connection.inside with
    | false =>
      simp [Connection.write, inside] at db
      exact of_connection db (flag.trans agrees) outside
    | true =>
      simp [Connection.write, inside] at db
      exact of_connection db (by rw [flag, agrees, inside]) (by simp)

/-- After `close` there is no connection, and the flag is cleared. -/
theorem close (flagged : Flagged state) (commits : Bool) : Flagged (state.close commits) := by
  cases isOpen : state.db with
  | none =>
    simp only [SqlLiteDB.close, isOpen]
    exact flagged
  | some connection =>
    obtain ⟨-, flag, disconnected⟩ := close_commit isOpen commits
    exact of_disconnected disconnected flag

/-- `open` closes first, so that its new connection is outside and the flag is cleared. -/
theorem openDb (flagged : Flagged state) (dbPath : Option String) (commits opens : Bool) :
    Flagged (state.openDb dbPath commits opens) := by
  cases dbPath with
  | none => exact flagged
  | some _ =>
    have flag : (state.close commits).hasTransaction = false := by
      cases isOpen : state.db with
      | none =>
        simp only [SqlLiteDB.close, isOpen]
        exact flagged.disconnected isOpen
      | some connection => exact (close_commit isOpen commits).2.1
    cases opens with
    | false => exact of_disconnected rfl flag
    | true => exact of_connection rfl flag (fun _ => rfl)

/-- `commit` on an open connection, when it fails only outside. -/
theorem commit (flagged : Flagged state) {commits : Bool} (answered : Answered state (.commit commits)) :
    Flagged (state.commit commits) := by
  cases isOpen : state.db with
  | none =>
    simp only [SqlLiteDB.commit, isOpen]
    exact flagged
  | some connection =>
    cases flag : state.hasTransaction with
    | false => simpa [SqlLiteDB.commit, isOpen, flag] using flagged
    | true =>
      have inside : connection.inside = true := (flagged.agrees connection isOpen).symm.trans flag
      have committed : commits = true := by simpa [Answered, isOpen, flag] using answered
      have after : (state.commit commits).db = some ⟨false, []⟩ := by
        simp [SqlLiteDB.commit, isOpen, flag, Connection.commit, inside, committed]
      exact of_connection after (by simp [SqlLiteDB.commit, isOpen, flag]) (fun _ => rfl)

/-- `beginTransact`, when it fails only inside of a transaction, keeps the flag right. -/
theorem beginTransact (flagged : Flagged state) {begins : Bool}
    (answered : Answered state (.beginTransact begins)) : Flagged (state.beginTransact begins) := by
  cases isOpen : state.db with
  | none =>
    simp only [SqlLiteDB.beginTransact, isOpen]
    exact flagged
  | some connection =>
    have agrees := flagged.agrees connection isOpen
    have begun : (connection.begin begins).inside = true := by
      cases inside : connection.inside with
      | true => simp [Connection.begin, inside]
      | false =>
        have succeeded : begins = true := by simpa [Answered, isOpen, agrees, inside] using answered
        simp [Connection.begin, inside, succeeded]
    have after : (state.beginTransact begins).db = some (connection.begin begins) := by
      simp [SqlLiteDB.beginTransact, isOpen]
    exact of_connection after (by simp [SqlLiteDB.beginTransact, isOpen, begun]) (by simp [begun])

/-- After a commit that fails inside of a transaction, the begin of `flush` fails there, too,
and sets the flag again. -/
theorem flush_failed (flagged : Flagged state) (flag : state.hasTransaction = true) (begins : Bool) :
    Flagged (state.flush false begins) := by
  cases isOpen : state.db with
  | none =>
    rw [flagged.disconnected isOpen] at flag
    cases flag
  | some connection =>
    have inside : connection.inside = true := (flagged.agrees connection isOpen).symm.trans flag
    apply flagged.congr
    · simp [SqlLiteDB.flush, SqlLiteDB.commit, SqlLiteDB.beginTransact, Connection.commit,
        Connection.begin, isOpen, flag, inside]
    · simp [SqlLiteDB.flush, SqlLiteDB.commit, SqlLiteDB.beginTransact, isOpen, flag]

/-- `flush` commits and begins again. The flag is right afterwards when the engine's answers lead to
what it will say. -/
theorem flush (flagged : Flagged state) {commits begins : Bool}
    (answered : Answered state (.flush commits begins)) : Flagged (state.flush commits begins) := by
  by_cases failed : state.hasTransaction = true ∧ commits = false
  · rw [failed.2]
    exact flagged.flush_failed failed.1 begins
  · have committed : Answered state (.commit commits) := by
      simp only [Answered]
      cases flag : state.hasTransaction <;> cases commits <;> simp_all
    rcases answered with disconnected | begun | impossible
    · simp only [SqlLiteDB.flush, SqlLiteDB.commit, SqlLiteDB.beginTransact, disconnected]
      exact flagged
    · exact (flagged.commit committed).beginTransact (.inr (.inr begun))
    · exact absurd impossible failed

/-- `compile` has nothing to do with transactions, and keeps the flag as it is. -/
theorem compile (flagged : Flagged state) (tableName sql : Option String) (prepares : Bool) :
    Flagged (state.compile tableName sql prepares) := by
  have kept : (state.compile tableName sql prepares).db = state.db ∧
      (state.compile tableName sql prepares).hasTransaction = state.hasTransaction := by
    simp only [SqlLiteDB.compile]
    split
    · exact ⟨rfl, rfl⟩
    · cases state.getStatment tableName <;> cases prepares <;> exact ⟨rfl, rfl⟩
  exact flagged.congr kept.1 kept.2

/-- A statement leaves the flag alone, and adds a pending row only inside of a transaction. -/
theorem doStmt (flagged : Flagged state) (tableName fmt : Option String) (row : Option Nat) :
    Flagged (state.doStmt tableName fmt row) := by
  unfold SqlLiteDB.doStmt
  split
  · rename_i isOpen _
    exact flagged.written isOpen row rfl rfl
  · exact flagged

/-- `exec` keeps the agreement too: its row is pending inside of a transaction and committed outside
of one. -/
theorem exec (flagged : Flagged state) (sql : Option String) (row : Option Nat) :
    Flagged (state.exec sql row) := by
  unfold SqlLiteDB.exec
  split
  · rename_i isOpen
    exact flagged.written isOpen row rfl rfl
  · exact flagged

/-- Each call that the engine answers so keeps the flag right. -/
theorem step (flagged : Flagged state) {call : DbCall} (answered : Answered state call)
    (stepped : state.step call = some next) : Flagged next := by
  cases call with
  | «open» dbPath commits opens => exact Option.some.inj stepped ▸ flagged.openDb dbPath commits opens
  | close commits => exact Option.some.inj stepped ▸ flagged.close commits
  | compile tableName sql prepares =>
    exact Option.some.inj stepped ▸ flagged.compile tableName sql prepares
  | doStmt tableName fmt row => exact Option.some.inj stepped ▸ flagged.doStmt tableName fmt row
  | exec sql row => exact Option.some.inj stepped ▸ flagged.exec sql row
  | beginTransact begins => exact Option.some.inj stepped ▸ flagged.beginTransact answered
  | commit commits => exact Option.some.inj stepped ▸ flagged.commit answered
  | flush commits begins => exact Option.some.inj stepped ▸ flagged.flush answered

/-- Any other answer leaves the flag set outside of a transaction, or clear inside. -/
theorem broken (flagged : Flagged state) {call : DbCall} (unanswered : ¬ Answered state call)
    (stepped : state.step call = some next) : ¬ next.FlagAgrees := by
  intro flagAgrees
  have agrees := flagAgrees.agrees
  cases call with
  | beginTransact begins =>
    cases stepped
    simp only [Answered, not_or, Bool.not_eq_true] at unanswered
    obtain ⟨connected, flag, refused⟩ := unanswered
    obtain ⟨connection, isOpen⟩ := Option.ne_none_iff_exists'.mp connected
    have outside : connection.inside = false := (flagged.agrees connection isOpen).symm.trans flag
    simp [SqlLiteDB.beginTransact, Inside, Connection.begin, isOpen, refused, outside] at agrees
  | commit commits =>
    cases stepped
    simp only [Answered, not_or, Bool.not_eq_true, Bool.not_eq_false] at unanswered
    obtain ⟨connected, flag, refused⟩ := unanswered
    obtain ⟨connection, isOpen⟩ := Option.ne_none_iff_exists'.mp connected
    have inside : connection.inside = true := (flagged.agrees connection isOpen).symm.trans flag
    simp [SqlLiteDB.commit, Inside, Connection.commit, isOpen, flag, refused, inside] at agrees
  | flush commits begins =>
    cases stepped
    simp only [Answered, not_or, Bool.not_eq_true] at unanswered
    obtain ⟨connected, refused, committed⟩ := unanswered
    obtain ⟨connection, isOpen⟩ := Option.ne_none_iff_exists'.mp connected
    have sameInside := flagged.agrees connection isOpen
    cases flag : state.hasTransaction with
    | false =>
      have outside : connection.inside = false := sameInside.symm.trans flag
      simp [SqlLiteDB.flush, SqlLiteDB.commit, SqlLiteDB.beginTransact, Inside, Connection.begin,
        isOpen, flag, refused, outside] at agrees
    | true =>
      have inside : connection.inside = true := sameInside.symm.trans flag
      have done : commits = true := by simpa [flag] using committed
      simp [SqlLiteDB.flush, SqlLiteDB.commit, SqlLiteDB.beginTransact, Inside, Connection.begin,
        Connection.commit, isOpen, flag, refused, inside, done] at agrees
  | «open» | close | compile | doStmt | exec => exact unanswered trivial

end Flagged

/-- The flag agrees with the connection throughout just the runs in which the engine answers
each begin and commit as the flag will say. -/
theorem flagAgrees_iff (calls : List DbCall) :
    Runs.Throughout step FlagAgrees new calls ↔ Runs.Meets step Answered new calls := by
  apply Runs.throughout_iff_meets step Answered Flagged FlagAgrees
  · exact fun _ flagged => flagged.flagAgrees
  · exact fun _ _ _ flagged answered stepped => flagged.step answered stepped
  · exact fun state call _ => step_taken state call
  · exact fun _ _ _ flagged unanswered stepped => flagged.broken unanswered stepped
  · exact Flagged.of_disconnected rfl rfl

/-- A commit that finds the database busy clears the flag: the row that was written stays
pending through a later commit and is lost when the database is closed. -/
theorem busy_commit_loses_row :
    ¬ Runs.Throughout step FlagAgrees new
        [.open (some "a.db") true true, .beginTransact true, .exec (some "insert") (some 7),
          .commit false] ∧
      ∃ final, Runs.run step new
        [.open (some "a.db") true true, .beginTransact true, .exec (some "insert") (some 7),
          .commit false, .commit true, .close true] = some final ∧ final.committed = [] := by
  constructor
  · intro throughout
    have after := ((((throughout.2 _ rfl).2 _ rfl).2 _ rfl).2 _ rfl)
    exact absurd (after.agrees.mpr ⟨⟨true, [7]⟩, rfl, rfl⟩) (by decide)
  · exact Runs.run_reaches step new _ (fun final => final.committed = []) (by decide +kernel)

end OpenTaker.SqlLiteDB

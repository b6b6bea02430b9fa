import OpenTaker.Runs
import OpenTaker.SqliteDb
import Mathlib.Data.List.Range
import Mathlib.Data.List.Perm.Basic

/-!
# Compiled statements

`compile` finalizes the statement of a table before it prepares the next one. When the
preparation fails, the finalized statement stays in `m_stmts`, where `doStmt` uses it and
`compile` and `close` finalize it again. A statement compiled for a NULL name is stored
under the empty name without a look for the one that is there.

In the runs without such calls the statements that are finalized and those that are stored
are all the time the prepared ones, each of them once.
-/

namespace OpenTaker.SqlLiteDB

/-- The statements are treated as the engine asks for: those that are stored are prepared
and not finalized, none is finalized twice or used after it, and closing now would finalize
all of them. -/
structure Sound (state : SqlLiteDB) : Prop where
  stored : ∀ name stmt, state.stmts.lookup name = some stmt →
    stmt < state.prepared ∧ stmt ∉ state.finalized
  once : state.finalized.Nodup
  unused : state.misused = false
  closed : ∀ commits, ∀ stmt < state.prepared, stmt ∈ (state.close commits).finalized

/-- A preparation does not fail for a table that has a statement, and the empty name has
none when a statement is compiled for NULL. -/
def Replaceable (state : SqlLiteDB) : DbCall → Prop
  | .compile tableName sql prepares =>
      state.db.isSome → sql.isSome →
        (prepares = false → state.getStatment tableName = none) ∧
          (prepares = true → tableName = none → state.stmts.lookup "" = none)
  | _ => True

/-- The finalized and the stored statements are the prepared ones, in some order, and
without a connection nothing is stored. -/
structure Accounted (state : SqlLiteDB) : Prop where
  account : (state.finalized ++ storedStmts state.stmts).Perm (List.range state.prepared)
  unused : state.misused = false
  disconnected : state.db = none → state.stmts = ∅

/-! ## Parts of the calls -/

variable {state next : SqlLiteDB}

/-- `commit` changes no statement, so that they outlive the transactions. -/
theorem commit_stmts (state : SqlLiteDB) (commits : Bool) :
    (state.commit commits).stmts = state.stmts ∧ (state.commit commits).prepared = state.prepared ∧
      (state.commit commits).finalized = state.finalized ∧
      (state.commit commits).misused = state.misused ∧
      ((state.commit commits).db = none ↔ state.db = none) := by
  unfold commit
  split
  · exact ⟨rfl, rfl, rfl, rfl, Iff.rfl⟩
  · rename_i isOpen
    split
    · exact ⟨rfl, rfl, rfl, rfl, Iff.rfl⟩
    · exact ⟨rfl, rfl, rfl, rfl, by simp [isOpen]⟩

/-- `close` finalizes what is stored, each statement once, and forgets it. -/
theorem close_open {connection : Connection} (isOpen : state.db = some connection) (commits : Bool) :
    (state.close commits).stmts = ∅ ∧ (state.close commits).prepared = state.prepared ∧
      (state.close commits).finalized = state.finalized ++ storedStmts state.stmts ∧
      (state.close commits).misused = state.misused ∧ (state.close commits).db = none := by
  obtain ⟨-, prepared, finalized, misused, -⟩ :=
    commit_stmts { state with finalized := state.finalized ++ storedStmts state.stmts } commits
  simp only [close, isOpen]
  rw [isOpen] at prepared finalized misused
  exact ⟨trivial, prepared, finalized, misused, trivial⟩

/-- Closing what is closed does nothing, so that the destructor may call it again. -/
theorem close_closed (isClosed : state.db = none) (commits : Bool) : state.close commits = state := by
  simp only [close, isClosed]

/-- A stored statement is one of the list, by which all of them are finalized. -/
theorem mem_stored {stmts : Stmts} {name : String} {stmt : Nat} (found : stmts.lookup name = some stmt) :
    stmt ∈ storedStmts stmts := by
  have entry := AList.mem_lookup_iff.mp found
  exact List.mem_map.mpr ⟨⟨name, stmt⟩, entry, rfl⟩

/-- What is stored, with the statement of one name in front. -/
theorem stored_perm {stmts : Stmts} {name : String} {stmt : Nat} (found : stmts.lookup name = some stmt) :
    (storedStmts stmts).Perm (stmt :: storedStmts (stmts.erase name)) := by
  have present : name ∈ stmts.keys := AList.lookup_isSome.mp (by rw [found]; rfl)
  obtain ⟨other, before, behind, -, entries, erased⟩ := List.exists_of_kerase present
  have same : other = stmt := by
    have entry : (⟨name, other⟩ : Sigma fun _ : String => Nat) ∈ stmts.entries := by
      rw [entries]
      exact List.mem_append_right before List.mem_cons_self
    exact Option.some.inj ((AList.mem_lookup_iff.mpr entry).symm.trans found)
  have rest : (stmts.erase name).entries = before ++ behind := erased
  rw [storedStmts, storedStmts, entries, rest, same, List.map_append, List.map_append, List.map_cons]
  exact List.perm_middle

/-- An inserted statement takes the place of the one of its name. -/
theorem stored_insert (stmts : Stmts) (name : String) (stmt : Nat) :
    storedStmts (stmts.insert name stmt) = stmt :: storedStmts (stmts.erase name) := by
  simp only [storedStmts, AList.entries_insert, List.map_cons]
  rfl

/-- Erasing a name that is not in the map leaves the stored statements as they are. -/
theorem stored_erase_absent {stmts : Stmts} {name : String} (absent : stmts.lookup name = none) :
    storedStmts (stmts.erase name) = storedStmts stmts := by
  have notKey : name ∉ stmts.entries.keys := AList.lookup_eq_none.mp absent
  have same : (stmts.erase name).entries = stmts.entries := List.kerase_of_notMem_keys notKey
  rw [storedStmts, storedStmts, same]

/-- For a NULL name nothing is looked up and the empty name is used. -/
theorem compile_unnamed {sql : Option String} (taken : ¬ (state.db.isNone = true ∨ sql.isNone = true)) :
    state.compile none sql true =
      { state with
        prepared := state.prepared + 1
        stmts := state.stmts.insert "" state.prepared } := by
  rw [compile, if_neg taken]
  rfl

/-! ## The account over every run -/

namespace Accounted

/-- A call that leaves the statements alone keeps the account of them. -/
theorem congr (accounted : Accounted state) (stmts : next.stmts = state.stmts)
    (prepared : next.prepared = state.prepared) (finalized : next.finalized = state.finalized)
    (misused : next.misused = state.misused) (db : next.db = none ↔ state.db = none) :
    Accounted next where
  account := by
    rw [stmts, prepared, finalized]
    exact accounted.account
  unused := misused.trans accounted.unused
  disconnected isClosed := stmts.trans (accounted.disconnected (db.mp isClosed))

/-- No statement is finalized twice, and none that is finalized is still stored. -/
theorem nodup (accounted : Accounted state) : (state.finalized ++ storedStmts state.stmts).Nodup :=
  accounted.account.nodup_iff.mpr List.nodup_range

/-- A stored statement is prepared and not finalized, so that it may be used. -/
theorem live (accounted : Accounted state) {name : String} {stmt : Nat}
    (found : state.stmts.lookup name = some stmt) :
    stmt < state.prepared ∧ stmt ∉ state.finalized := by
  have member := mem_stored found
  refine ⟨?_, fun released => ?_⟩
  · exact List.mem_range.mp (accounted.account.mem_iff.mp (List.mem_append_right _ member))
  · exact List.disjoint_of_nodup_append accounted.nodup released member

/-- A statement that is prepared is finalized or stored. -/
theorem known (accounted : Accounted state) {stmt : Nat} (prepared : stmt < state.prepared) :
    stmt ∈ state.finalized ++ storedStmts state.stmts :=
  accounted.account.mem_iff.mpr (List.mem_range.mpr prepared)

/-- The account implies that the statements are treated well. -/
theorem sound (accounted : Accounted state) : Sound state where
  stored _ _ found := accounted.live found
  once := accounted.nodup.of_append_left
  unused := accounted.unused
  closed commits stmt prepared := by
    have known := accounted.known prepared
    cases connection : state.db with
    | none =>
      rw [accounted.disconnected connection] at known
      rw [close_closed connection]
      simpa [storedStmts] using known
    | some _ =>
      obtain ⟨-, -, finalized, -⟩ := close_open connection commits
      rwa [finalized]

/-- `close` finalizes all that is stored and empties the map, which keeps the account. -/
theorem close (accounted : Accounted state) (commits : Bool) : Accounted (state.close commits) := by
  cases connection : state.db with
  | none =>
    rw [close_closed connection]
    exact accounted
  | some _ =>
    obtain ⟨stmts, prepared, finalized, misused, -⟩ := close_open connection commits
    refine ⟨?_, misused.trans accounted.unused, fun _ => stmts⟩
    rw [stmts, prepared, finalized]
    simpa [storedStmts] using accounted.account

/-- The statement of a table is released before another takes its place. -/
theorem replaced (accounted : Accounted state) {name : String} {stmt : Nat}
    (found : state.stmts.lookup name = some stmt) :
    ((state.finalized ++ [stmt]) ++ storedStmts (state.stmts.insert name state.prepared)).Perm
      (List.range (state.prepared + 1)) := by
  rw [stored_insert, List.range_succ]
  have moved : ((state.finalized ++ [stmt]) ++ storedStmts (state.stmts.erase name)).Perm
      (List.range state.prepared) := by
    rw [List.append_assoc]
    exact (List.Perm.append_left _ (stored_perm found).symm).trans accounted.account
  exact List.perm_middle.trans ((moved.cons _).trans (List.perm_append_singleton _ _).symm)

/-- A statement for a name without one is added. -/
theorem added (accounted : Accounted state) {name : String}
    (absent : state.stmts.lookup name = none) :
    (state.finalized ++ storedStmts (state.stmts.insert name state.prepared)).Perm
      (List.range (state.prepared + 1)) := by
  rw [stored_insert, stored_erase_absent absent, List.range_succ]
  exact List.perm_middle.trans ((accounted.account.cons _).trans (List.perm_append_singleton _ _).symm)

/-- `compile` stores a new statement for its name, and finalizes the one that stood there. What may
not be replaced is the condition. -/
theorem compile (accounted : Accounted state) {tableName sql : Option String} {prepares : Bool}
    (replaceable : Replaceable state (.compile tableName sql prepares)) :
    Accounted (state.compile tableName sql prepares) := by
  unfold SqlLiteDB.compile
  split
  · exact accounted
  · rename_i both
    rw [not_or] at both
    have isOpen : state.db ≠ none := by simpa using both.1
    obtain ⟨kept, unnamed⟩ := replaceable (by simpa [Option.isSome_iff_ne_none] using isOpen)
      (by simpa [Option.isSome_iff_ne_none] using both.2)
    cases prepares with
    | false =>
      rw [kept rfl]
      exact accounted
    | true =>
      cases tableName with
      | none =>
        exact ⟨accounted.added (unnamed rfl rfl), accounted.unused,
          fun isClosed => absurd isClosed isOpen⟩
      | some name =>
        cases found : state.stmts.lookup name with
        | none =>
          simp only [getStatment, found]
          exact ⟨accounted.added found, accounted.unused, fun isClosed => absurd isClosed isOpen⟩
        | some stmt =>
          simp only [getStatment, found]
          exact ⟨accounted.replaced found, accounted.unused, fun isClosed => absurd isClosed isOpen⟩

/-- `doStmt` uses a statement that is stored, and so one that has not been finalized. -/
theorem doStmt (accounted : Accounted state) (tableName fmt : Option String) (row : Option Nat) :
    Accounted (state.doStmt tableName fmt row) := by
  cases isOpen : state.db with
  | none =>
    simp only [SqlLiteDB.doStmt, isOpen]
    exact accounted
  | some connection =>
    cases fmt with
    | none =>
      simp only [SqlLiteDB.doStmt, isOpen]
      exact accounted
    | some _ =>
      cases found : state.getStatment tableName with
      | none =>
        simp only [SqlLiteDB.doStmt, isOpen, found]
        exact accounted
      | some stmt =>
        have live : stmt ∉ state.finalized := by
          cases tableName with
          | none => cases found
          | some name => exact (accounted.live found).2
        simp only [SqlLiteDB.doStmt, isOpen, found]
        exact accounted.congr rfl rfl rfl (by simp [live]) (by simp [isOpen])

/-- `exec` prepares and finalizes on its own, so that the account does not see it. -/
theorem exec (accounted : Accounted state) (sql : Option String) (row : Option Nat) :
    Accounted (state.exec sql row) := by
  unfold SqlLiteDB.exec
  split
  · rename_i isOpen
    exact accounted.congr rfl rfl rfl rfl (by simp [isOpen])
  · exact accounted

/-- `commit` touches no statement, whether it commits or not. -/
theorem commit (accounted : Accounted state) (commits : Bool) : Accounted (state.commit commits) := by
  obtain ⟨stmts, prepared, finalized, misused, db⟩ := commit_stmts state commits
  exact accounted.congr stmts prepared finalized misused db

/-- `beginTransact` does not touch a statement either. -/
theorem beginTransact (accounted : Accounted state) (begins : Bool) :
    Accounted (state.beginTransact begins) := by
  unfold SqlLiteDB.beginTransact
  split
  · exact accounted
  · rename_i isOpen
    exact accounted.congr rfl rfl rfl rfl (by simp [isOpen])

/-- `open` closes what was open before, and starts with an empty map. -/
theorem openDb (accounted : Accounted state) (dbPath : Option String) (commits opens : Bool) :
    Accounted (state.openDb dbPath commits opens) := by
  cases dbPath with
  | none => exact accounted
  | some _ =>
    have closed := accounted.close commits
    refine ⟨closed.account, closed.unused, fun _ => ?_⟩
    cases connection : state.db with
    | none =>
      simp only [SqlLiteDB.openDb, close_closed connection]
      exact accounted.disconnected connection
    | some _ => exact (close_open connection commits).1

/-- Each call keeps the account, where a statement can be replaced. -/
theorem step (accounted : Accounted state) {call : DbCall} (replaceable : Replaceable state call)
    (stepped : state.step call = some next) : Accounted next := by
  cases call with
  | «open» dbPath commits opens => exact Option.some.inj stepped ▸ accounted.openDb dbPath commits opens
  | close commits => exact Option.some.inj stepped ▸ accounted.close commits
  | compile tableName sql prepares => exact Option.some.inj stepped ▸ accounted.compile replaceable
  | doStmt tableName fmt row => exact Option.some.inj stepped ▸ accounted.doStmt tableName fmt row
  | exec sql row => exact Option.some.inj stepped ▸ accounted.exec sql row
  | beginTransact begins => exact Option.some.inj stepped ▸ accounted.beginTransact begins
  | commit commits => exact Option.some.inj stepped ▸ accounted.commit commits
  | flush commits begins =>
    exact Option.some.inj stepped ▸ (accounted.commit commits).beginTransact begins

end Accounted

/-- A statement whose replacement fails stays stored, and one that is overwritten is never
finalized. -/
theorem Accounted.broken (accounted : Accounted state) {call : DbCall} (fixed : ¬ Replaceable state call)
    (stepped : state.step call = some next) : ¬ Sound next := by
  cases call with
  | compile tableName sql prepares =>
    cases stepped
    simp only [Replaceable, not_forall] at fixed
    obtain ⟨isOpen, isSql, both⟩ := fixed
    have taken : ¬ (state.db.isNone = true ∨ sql.isNone = true) := by
      rw [Option.isNone_iff_eq_none, Option.isNone_iff_eq_none]
      rintro (none | none)
      · rw [none] at isOpen
        cases isOpen
      · rw [none] at isSql
        cases isSql
    cases prepares with
    | false =>
      rw [SqlLiteDB.compile, if_neg taken]
      have kept : state.getStatment tableName ≠ none := by simpa using both
      cases tableName with
      | none => exact absurd rfl kept
      | some name =>
        obtain ⟨stmt, found⟩ := Option.ne_none_iff_exists'.mp kept
        rw [found]
        intro sound
        exact (sound.stored name stmt found).2 (List.mem_append_right _ List.mem_cons_self)
    | true =>
      obtain ⟨rfl, kept⟩ : tableName = none ∧ state.stmts.lookup "" ≠ none := by simpa using both
      obtain ⟨stmt, found⟩ := Option.ne_none_iff_exists'.mp kept
      have live := accounted.live found
      have stored : stmt ∉ storedStmts (state.stmts.erase "") := by
        have nodup := (stored_perm found).nodup_iff.mp accounted.nodup.of_append_right
        exact (List.nodup_cons.mp nodup).1
      rw [compile_unnamed taken]
      intro sound
      have finalized := sound.closed true stmt (Nat.lt_succ_of_lt live.1)
      obtain ⟨connection, isConnection⟩ := Option.isSome_iff_exists.mp isOpen
      obtain ⟨-, -, closed, -⟩ := close_open
        (show ({ state with
            prepared := state.prepared + 1
            stmts := state.stmts.insert "" state.prepared } : SqlLiteDB).db = some connection
          from isConnection) true
      rw [closed, stored_insert] at finalized
      rcases List.mem_append.mp finalized with released | stored'
      · exact live.2 released
      · rcases List.mem_cons.mp stored' with fresh | other
        · exact absurd live.1 (by rw [fresh]; exact Nat.lt_irrefl _)
        · exact stored other
  | «open» | close | doStmt | exec | beginTransact | commit | flush => exact absurd trivial fixed

/-- The statements are treated well throughout just the runs in which each of them can be replaced:
a new preparation for its name succeeds, and NULL is given for a name only while none is stored
under the empty one. -/
theorem sound_iff (calls : List DbCall) :
    Runs.Throughout step Sound new calls ↔ Runs.Meets step Replaceable new calls := by
  apply Runs.throughout_iff_meets step Replaceable Accounted Sound
  · exact fun _ accounted => accounted.sound
  · exact fun _ _ _ accounted replaceable stepped => accounted.step replaceable stepped
  · exact fun state call _ => step_taken state call
  · exact fun _ _ _ accounted fixed stepped => accounted.broken fixed stepped
  · exact ⟨.refl _, rfl, fun _ => rfl⟩

/-- A preparation fails for a table with a statement: the next `doStmt` uses the finalized
statement, and `close` finalizes it again. -/
theorem used_after_finalize :
    ¬ Runs.Throughout step Sound new
        [.open (some "a.db") true true, .compile (some "t") (some "insert") true,
          .compile (some "t") (some "insrt") false] ∧
      ∃ final, Runs.run step new
        [.open (some "a.db") true true, .compile (some "t") (some "insert") true,
          .compile (some "t") (some "insrt") false, .doStmt (some "t") (some "%d") none,
          .close true] = some final ∧ final.misused = true ∧ final.finalized = [0, 0] := by
  constructor
  · intro throughout
    have sound := (((throughout.2 _ rfl).2 _ rfl).2 _ rfl)
    exact absurd (sound.stored "t" 0 (by decide +kernel)).2 (by decide +kernel)
  · exact Runs.run_reaches step new _ (fun final => final.misused = true ∧ final.finalized = [0, 0])
      (by decide +kernel)

end OpenTaker.SqlLiteDB

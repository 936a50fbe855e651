import TlsAttestation.Core.Hex
import TlsAttestation.Lib.Script
import TlsAttestation.Lib.Table
import TlsAttestation.Storage.Operations

/-!
# The store in a database

`tls_attestation_storage::sqlite`: two tables of an SQLite database.

```
  sessions (session_id PRIMARY KEY, session_json, is_terminal)
  approvals (session_id REFERENCES sessions, verifier_id, UNIQUE (session_id, verifier_id))
```

`Sqlite.execute` enforces the constraints. Every method is a script of statements, under the mutex
of the connection. What is needed of `serde_json` is `SessionJson`.
-/

namespace TlsAttestation

open Fallible

structure SessionJson where
  toString : Session → Except String String
  fromStr : String → Except String Session

def SessionJson.RoundTrips (json : SessionJson) : Prop :=
  ∀ session, ∃ text, json.toString session = .ok text ∧ json.fromStr text = .ok session

namespace Sqlite

/-! ### The database -/

structure SessionRow where
  sessionId : String
  sessionJson : String
  isTerminal : ℤ
deriving DecidableEq

structure ApprovalRow where
  sessionId : String
  verifierId : String
deriving DecidableEq

/-- An approval is of a session that is there. -/
@[ext]
structure Database where
  sessions : Table SessionRow String SessionRow.sessionId
  approvals : Table ApprovalRow ApprovalRow id
  references : ∀ a ∈ approvals.rows, a.sessionId ∈ sessions.rows.map SessionRow.sessionId

def Database.empty : Database := ⟨.empty, .empty, by simp [Table.empty]⟩

inductive Failure where
  | constraintViolation (message : String)
  | other (message : String)
deriving DecidableEq

def Failure.display : Failure → String
  | .constraintViolation message => message
  | .other message => message

inductive Statement : Type → Type where
  /-- `INSERT OR FAIL INTO sessions (session_id, session_json, is_terminal) VALUES (?1, ?2, ?3)` -/
  | insertSession (sessionId sessionJson : String) (isTerminal : ℤ) : Statement Unit
  /-- `SELECT is_terminal FROM sessions WHERE session_id = ?1` -/
  | selectIsTerminal (sessionId : String) : Statement (Option ℤ)
  /-- `SELECT session_json FROM sessions WHERE session_id = ?1` -/
  | selectSessionJson (sessionId : String) : Statement (Option String)
  /-- `UPDATE sessions SET session_json = ?1, is_terminal = ?2 WHERE session_id = ?3` -/
  | updateSession (sessionJson : String) (isTerminal : ℤ) (sessionId : String) : Statement Unit
  /-- `INSERT OR FAIL INTO approvals (session_id, verifier_id) VALUES (?1, ?2)` -/
  | insertApproval (sessionId verifierId : String) : Statement Unit
  /-- `SELECT COUNT(*) FROM approvals WHERE session_id = ?1 AND verifier_id = ?2` -/
  | countApprovals (sessionId verifierId : String) : Statement ℕ
  /-- `DELETE FROM approvals WHERE session_id = ?1` -/
  | deleteApprovals (sessionId : String) : Statement Unit
  /-- `DELETE FROM sessions WHERE session_id = ?1` -/
  | deleteSession (sessionId : String) : Statement Unit
  /-- `SELECT COUNT(*) FROM sessions WHERE session_id = ?1` -/
  | countSessions (sessionId : String) : Statement ℕ

namespace Database

variable (db : Database)

def insertSession (row : SessionRow) : Option Database :=
  match h : db.sessions.insert row with
  | none => none
  | some sessions => some { db with
      sessions
      references := fun a ha => by
        rw [(Table.insert_eq_some.1 h).2, List.map_append]
        exact List.mem_append_left _ (db.references a ha) }

def updateSession (sessionJson : String) (isTerminal : ℤ) (sessionId : String) :
    Database where
  sessions := db.sessions.update sessionId (fun row => { row with sessionJson, isTerminal })
    fun _ => rfl
  approvals := db.approvals
  references := fun a ha => by
    obtain ⟨row, hrow, hid⟩ := List.mem_map.1 (db.references a ha)
    refine List.mem_map.2 ⟨_, List.mem_map_of_mem hrow, ?_⟩
    rw [← hid]
    split <;> rfl

/-- Unless it is there, or there is no such session. -/
def insertApproval (row : ApprovalRow) : Option Database :=
  if href : row.sessionId ∈ db.sessions.rows.map SessionRow.sessionId then
    match h : db.approvals.insert row with
    | none => none
    | some approvals => some { db with
        approvals
        references := fun a ha => by
          rw [(Table.insert_eq_some.1 h).2] at ha
          rcases List.mem_append.1 ha with ha | ha
          · exact db.references a ha
          · rw [List.mem_singleton.1 ha]
            exact href }
  else none

def deleteApprovals (sessionId : String) : Database where
  sessions := db.sessions
  approvals := db.approvals.delete fun a => a.sessionId = sessionId
  references := fun a ha => db.references a (Table.mem_delete.1 ha).1

def deleteSession (sessionId : String) : Option Database :=
  if href : ∀ a ∈ db.approvals.rows, a.sessionId ≠ sessionId then some
    { sessions := db.sessions.delete fun row => row.sessionId = sessionId
      approvals := db.approvals
      references := fun a ha => by
        obtain ⟨row, hrow, hid⟩ := List.mem_map.1 (db.references a ha)
        have hne : row.sessionId ≠ sessionId := by
          rw [hid]
          exact href a ha
        exact List.mem_map.2 ⟨row, Table.mem_delete.2 ⟨hrow, decide_eq_false hne⟩, hid⟩ }
  else none

variable {db : Database}

theorem insertSession_of_mem {row : SessionRow}
    (h : row.sessionId ∈ db.sessions.rows.map SessionRow.sessionId) :
    db.insertSession row = none := by
  unfold insertSession
  split
  · rfl
  · next sessions hsome => exact absurd h (Table.insert_eq_some.1 hsome).1

theorem exists_insertSession {row : SessionRow}
    (h : row.sessionId ∉ db.sessions.rows.map SessionRow.sessionId) :
    ∃ db', db.insertSession row = some db' ∧ db.sessions.insert row = some db'.sessions ∧
      db'.approvals = db.approvals := by
  unfold insertSession
  split
  · next hnone => exact absurd (Table.insert_eq_none.1 hnone) h
  · next sessions hsome => exact ⟨_, rfl, hsome, rfl⟩

theorem insertApproval_of_mem {row : ApprovalRow} (h : row ∈ db.approvals.rows) :
    db.insertApproval row = none := by
  unfold insertApproval
  split
  · split
    · rfl
    · next approvals hsome =>
      exact absurd (by simpa using h) (Table.insert_eq_some.1 hsome).1
  · rfl

theorem exists_insertApproval {row : ApprovalRow}
    (href : row.sessionId ∈ db.sessions.rows.map SessionRow.sessionId)
    (h : row ∉ db.approvals.rows) :
    ∃ db', db.insertApproval row = some db' ∧ db'.sessions = db.sessions ∧
      db'.approvals.rows = db.approvals.rows ++ [row] := by
  unfold insertApproval
  rw [dif_pos href]
  split
  · next hnone => exact absurd (by simpa using Table.insert_eq_none.1 hnone) h
  · next approvals hsome => exact ⟨_, rfl, rfl, (Table.insert_eq_some.1 hsome).2⟩

theorem exists_deleteSession {sessionId : String}
    (h : ∀ a ∈ db.approvals.rows, a.sessionId ≠ sessionId) :
    ∃ db', db.deleteSession sessionId = some db' ∧
      db'.sessions = db.sessions.delete (fun row => row.sessionId = sessionId) ∧
      db'.approvals = db.approvals :=
  ⟨_, dif_pos h, rfl, rfl⟩

end Database

def orViolation (db : Database) : Option Database → Except Failure Unit × Database
  | some db' => (.ok (), db')
  | none => (.error (.constraintViolation "constraint failed"), db)

/-- What SQLite does with each statement of the store. -/
def execute : {β : Type} → Statement β → Database → Except Failure β × Database
  | _, .insertSession sessionId sessionJson isTerminal, db =>
    orViolation db (db.insertSession { sessionId, sessionJson, isTerminal })
  | _, .selectIsTerminal sessionId, db =>
    (.ok ((db.sessions.find sessionId).map SessionRow.isTerminal), db)
  | _, .selectSessionJson sessionId, db =>
    (.ok ((db.sessions.find sessionId).map SessionRow.sessionJson), db)
  | _, .updateSession sessionJson isTerminal sessionId, db =>
    (.ok (), db.updateSession sessionJson isTerminal sessionId)
  | _, .insertApproval sessionId verifierId, db =>
    orViolation db (db.insertApproval { sessionId, verifierId })
  | _, .countApprovals sessionId verifierId, db =>
    (.ok (db.approvals.count fun a => a.sessionId = sessionId ∧ a.verifierId = verifierId), db)
  | _, .deleteApprovals sessionId, db => (.ok (), db.deleteApprovals sessionId)
  | _, .deleteSession sessionId, db => orViolation db (db.deleteSession sessionId)
  | _, .countSessions sessionId, db =>
    (.ok (db.sessions.count fun row => row.sessionId = sessionId), db)

end Sqlite

/-! ### The methods -/

@[ext]
structure SqliteSessionStore (json : SessionJson) where
  conn : Sqlite.Database

namespace SqliteSessionStore

open Sqlite

abbrev Method (α : Type) := Script Sqlite.Statement Failure α

def ioError {α : Type} (e : Failure) : Method (Except StorageError α) :=
  .done (.error (.io e.display))

def encodeSessionId (id : SessionId) : String := hexEncode id.asBytes.toList

def encodeVerifierId (id : VerifierId) : String := hexEncode id.asBytes.toList

def asI64 (b : Bool) : ℤ := if b then 1 else 0

def isTerminalByHex (idHex : String) : Method (Except StorageError Bool) :=
  .exec (.selectIsTerminal idHex) fun
    | .error e => ioError e
    | .ok none => .done (.error .notFound)
    | .ok (some flag) => .done (.ok (flag ≠ 0))

section

variable (json : SessionJson)

def insert (session : Session) : Method (Except StorageError Unit) :=
  let idHex := encodeSessionId session.context.sessionId
  match json.toString session with
  | .error e => .done (.error (.io e))
  | .ok text => .exec (.insertSession idHex text (asI64 session.state.isTerminal)) fun
    | .ok () => .done (.ok ())
    | .error (.constraintViolation _) => .done (.error .alreadyExists)
    | .error e => ioError e

variable (id : SessionId)

def get : Method (Except StorageError Session) :=
  .exec (.selectSessionJson (encodeSessionId id)) fun
    | .error e => ioError e
    | .ok none => .done (.error .notFound)
    | .ok (some text) => .done ((json.fromStr text).mapError .io)

def updateState (state : SessionState) : Method (Except StorageError Unit) :=
  let idHex := encodeSessionId id
  (isTerminalByHex idHex).andThen fun terminal =>
    if terminal then .done (.error .sessionTerminated)
    else .exec (.selectSessionJson idHex) fun
      | .error e => ioError e
      | .ok none => .done (.error (.io "Query returned no rows"))
      | .ok (some text) =>
        match json.fromStr text with
        | .error e => .done (.error (.io e))
        | .ok session =>
          match json.toString { session with state } with
          | .error e => .done (.error (.io e))
          | .ok updated => .exec (.updateSession updated (asI64 state.isTerminal) idHex) fun
            | .ok () => .done (.ok ())
            | .error e => ioError e

/-- Unless it is there, or the session has ended. -/
def recordApproval (v : VerifierId) : Method (Except StorageError Unit) :=
  let idHex := encodeSessionId id
  (isTerminalByHex idHex).andThen fun terminal =>
    if terminal then .done (.error .sessionTerminated)
    else .exec (.insertApproval idHex (encodeVerifierId v)) fun
      | .ok () => .done (.ok ())
      | .error (.constraintViolation _) => .done (.error (.duplicateApproval v.display))
      | .error e => ioError e

def hasApproved (v : VerifierId) : Method Bool :=
  .exec (.countApprovals (encodeSessionId id) (encodeVerifierId v)) fun
    | .ok count => .done (0 < count)
    | .error _ => .done false

def remove : Method (Except StorageError Unit) :=
  let idHex := encodeSessionId id
  .exec (.deleteApprovals idHex) fun
    | .error e => ioError e
    | .ok () => .exec (.deleteSession idHex) fun
      | .error e => ioError e
      | .ok () => .done (.ok ())

def contains : Method Bool :=
  .exec (.countSessions (encodeSessionId id)) fun
    | .ok count => .done (0 < count)
    | .error _ => .done false

def script : Operation → Method Response
  | .insert session => (insert json session).map .done
  | .get id => (get json id).map .session
  | .updateState id state => (updateState json id state).map .done
  | .recordApproval id v => (recordApproval id v).map .done
  | .hasApproved id v => (hasApproved id v).map .flag
  | .remove id => (remove id).map .done
  | .contains id => (contains id).map .flag

variable {json}

def call (m : Method (Except StorageError Unit)) :
    EStateM StorageError (SqliteSessionStore json) Unit := fun s =>
  match m.run execute s.conn with
  | (.ok (), db) => .ok () ⟨db⟩
  | (.error e, db) => .error e ⟨db⟩

instance : SessionStore (SqliteSessionStore json) where
  insert session := call (insert json session)
  get s id := ((get json id).run execute s.conn).1
  updateState id state := call (updateState json id state)
  recordApproval id v := call (recordApproval id v)
  hasApproved s id v := ((hasApproved id v).run execute s.conn).1
  remove id := call (remove id)
  contains s id := ((contains id).run execute s.conn).1

def openNew : SqliteSessionStore json := ⟨.empty⟩

theorem run_get_snd (db : Database) : ((get json id).run execute db).2 = db := by
  simp only [get, Script.run, execute]
  rcases (db.sessions.find (encodeSessionId id)) with _ | row <;> rfl

theorem perform_eq (s : SqliteSessionStore json) (op : Operation) :
    perform s op =
      (((script json op).run execute s.conn).1, ⟨((script json op).run execute s.conn).2⟩) := by
  have hcall : ∀ m : Method (Except StorageError Unit), answer (call m) s =
      (((m.map Response.done).run execute s.conn).1,
        ⟨((m.map Response.done).run execute s.conn).2⟩) := by
    intro m
    rw [Script.run_map]
    simp only [answer, call, EStateM.run]
    rcases m.run execute s.conn with ⟨e | u, db⟩ <;> rfl
  cases op with
  | insert session => exact hcall _
  | updateState id state => exact hcall _
  | recordApproval id v => exact hcall _
  | remove id => exact hcall _
  | get id =>
    rw [script, Script.run_map, run_get_snd]
    rfl
  | hasApproved id v => rfl
  | contains id => rfl

end

end SqliteSessionStore

end TlsAttestation

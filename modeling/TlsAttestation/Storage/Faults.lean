import TlsAttestation.Storage.Equivalence

/-!
# Statements that fail

A method should leave both tables as they were or both as they should be
(`SqliteSessionStore.Atomic`). Six of the seven write in one statement (`Script.WritesOnce`).
`remove` deletes the approvals in one and the session in another, without a transaction.
-/

namespace TlsAttestation.SqliteSessionStore

open Sqlite

variable {json : SessionJson} {db : Database}

/-- Wherever a statement fails, the database is as before or as after the whole operation. -/
def Atomic (json : SessionJson) (op : Operation) (db : Database) : Prop :=
  ∀ fates, ((script json op).runWith execute fates db).2 = db ∨
    ((script json op).runWith execute fates db).2 = ((script json op).run execute db).2

/-! ### The methods that write once -/

theorem atomic_of_writesOnce {α : Type} {op : Operation} {m : Method α} {f : α → Response}
    (hop : script json op = m.map f) (h : Script.WritesOnce execute m) : Atomic json op db := by
  intro fates
  rw [hop, Script.runWith_map, Script.run_map]
  exact h.all_or_nothing fates db

variable (idHex : String)

theorem reads_selectIsTerminal :
    Script.Reads execute (.selectIsTerminal idHex) := fun _ => rfl

theorem reads_selectSessionJson :
    Script.Reads execute (.selectSessionJson idHex) := fun _ => rfl

theorem writesOnce_insert (session : Session) :
    Script.WritesOnce execute (insert json session) := by
  unfold insert
  rcases json.toString session with e | text
  · exact .done _
  · refine .write fun r => ?_
    rcases r with (_ | _) | _ <;> exact ⟨_, rfl⟩

variable (id : SessionId)

theorem writesOnce_get : Script.WritesOnce execute (get json id) := by
  refine .read (reads_selectSessionJson _) (fun e => ⟨_, rfl⟩) fun text => ?_
  rcases text with _ | text <;> exact .done _

theorem writesOnce_isTerminalByHex {idHex : String}
    {k : Bool → Method (Except StorageError Unit)} (hk : ∀ b, Script.WritesOnce execute (k b)) :
    Script.WritesOnce execute ((isTerminalByHex idHex).andThen k) := by
  refine .read (reads_selectIsTerminal _) (fun e => ⟨_, rfl⟩) fun flag => ?_
  rcases flag with _ | flag
  · exact .done _
  · exact hk _

theorem writesOnce_updateState (state : SessionState) :
    Script.WritesOnce execute (updateState json id state) := by
  refine writesOnce_isTerminalByHex fun terminal => ?_
  rcases terminal with _ | _
  · refine .read (reads_selectSessionJson _) (fun e => ⟨_, rfl⟩) fun text => ?_
    rcases text with _ | text
    · exact .done _
    · -- reading and writing the text may fail, before anything is written
      rcases hfrom : json.fromStr text with e | session
      · simp only [hfrom]
        exact .done _
      · rcases hto : json.toString { session with state } with e | updated
        · simp only [hfrom, hto]
          exact .done _
        · simp only [hfrom, hto]
          refine .write fun r => ?_
          rcases r with e | _ <;> exact ⟨_, rfl⟩
  · exact .done _

theorem writesOnce_recordApproval (v : VerifierId) :
    Script.WritesOnce execute (recordApproval id v) := by
  refine writesOnce_isTerminalByHex fun terminal => ?_
  rcases terminal with _ | _
  · refine .write fun r => ?_
    rcases r with (_ | _) | _ <;> exact ⟨_, rfl⟩
  · exact .done _

theorem writesOnce_hasApproved (v : VerifierId) :
    Script.WritesOnce execute (hasApproved id v) :=
  .read (fun _ => rfl) (fun _ => ⟨_, rfl⟩) fun _ => .done _

theorem writesOnce_contains : Script.WritesOnce execute (contains id) :=
  .read (fun _ => rfl) (fun _ => ⟨_, rfl⟩) fun _ => .done _

/-! ### The removal -/

theorem deleteApprovals_eq_self {idHex : String}
    (h : ∀ a ∈ db.approvals.rows, a.sessionId ≠ idHex) : db.deleteApprovals idHex = db := by
  refine Database.ext rfl (Table.delete_eq_self fun a ha => ?_)
  simpa using h a ha

def removeSession : Method (Except StorageError Unit) :=
  .exec (.deleteSession idHex) fun
    | .error e => ioError e
    | .ok () => .done (.ok ())

theorem remove_eq :
    remove id = .exec (.deleteApprovals (encodeSessionId id)) fun
      | .error e => ioError e
      | .ok () => removeSession (encodeSessionId id) := rfl

theorem writesOnce_removeSession :
    Script.WritesOnce execute (removeSession idHex) := by
  refine .write fun r => ?_
  rcases r with e | _ <;> exact ⟨_, rfl⟩

/-- Without approvals, a removal is all or nothing. -/
theorem atomic_remove {id : SessionId}
    (h : ∀ a ∈ db.approvals.rows, a.sessionId ≠ encodeSessionId id) :
    Atomic json (.remove id) db := by
  intro fates
  have hsecond := (writesOnce_removeSession (encodeSessionId id)).all_or_nothing (s := db)
  have hfirst : (execute (.deleteApprovals (encodeSessionId id)) db).2 = db :=
    deleteApprovals_eq_self h
  rw [script, Script.runWith_map, Script.run_map, remove_eq]
  rcases fates with _ | ⟨fate, fates⟩
  · rw [Script.runWith, Script.run, hfirst]
    exact hsecond []
  · cases fate with
    | works =>
      rw [Script.runWith, Script.run, hfirst]
      exact hsecond fates
    | fails e =>
      refine .inl ?_
      change (Script.runWith execute (ioError e : Method (Except StorageError Unit)) fates
        db).2 = db
      rw [ioError, Script.runWith_done]
    | stops => exact .inl rfl

/-- **The gap in a removal**: the approvals go first. -/
theorem not_atomic_remove {id : SessionId} {a : ApprovalRow} (ha : a ∈ db.approvals.rows)
    (hid : a.sessionId = encodeSessionId id) : ¬ Atomic json (.remove id) db := by
  intro h
  have hgap : ((script json (.remove id)).runWith execute [.works, .stops] db).2 =
      db.deleteApprovals (encodeSessionId id) := rfl
  rcases h [.works, .stops] with hbefore | hafter
  · -- the approval is gone
    have hrows := congrArg (fun db => db.approvals.rows) (hgap.symm.trans hbefore)
    have hgone := (Table.mem_delete.1 (hrows.symm ▸ ha)).2
    simp [hid] at hgone
  · -- the session is still there
    have hnone : ∀ b ∈ (db.deleteApprovals (encodeSessionId id)).approvals.rows,
        b.sessionId ≠ encodeSessionId id := by
      intro b hb
      simpa using (Table.mem_delete.1 hb).2
    obtain ⟨db', hdb', hdeleted, -⟩ := Database.exists_deleteSession hnone
    have hrun : ((script json (.remove id)).run execute db).2 = db' := by
      simp only [script, remove, Script.map, Script.run, execute, hdb', orViolation]
    have hses := congrArg Database.sessions (hgap.symm.trans (hafter.trans hrun))
    have hthere := db.references a ha
    rw [hid] at hthere
    have hfind : db'.sessions.find (encodeSessionId id) = none := by
      rw [hdeleted, Table.find_delete, if_pos rfl]
    rw [← hses] at hfind
    exact Table.find_eq_none.1 hfind hthere

/-! ### All methods -/

/-- **When a method is all or nothing**: if it does not remove a session that has approvals. -/
theorem atomic_iff (json : SessionJson) (op : Operation) (db : Database) :
    Atomic json op db ↔
      ∀ id, op = .remove id → ∀ a ∈ db.approvals.rows, a.sessionId ≠ encodeSessionId id := by
  constructor
  · rintro h id rfl a ha hid
    exact not_atomic_remove ha hid h
  · intro h
    cases op with
    | insert session => exact atomic_of_writesOnce rfl (writesOnce_insert session)
    | get id => exact atomic_of_writesOnce rfl (writesOnce_get id)
    | updateState id state => exact atomic_of_writesOnce rfl (writesOnce_updateState id state)
    | recordApproval id v => exact atomic_of_writesOnce rfl (writesOnce_recordApproval id v)
    | hasApproved id v => exact atomic_of_writesOnce rfl (writesOnce_hasApproved id v)
    | remove id => exact atomic_remove (h id rfl)
    | contains id => exact atomic_of_writesOnce rfl (writesOnce_contains id)

open InMemorySessionStore in
noncomputable def approvedStore : SqliteSessionStore hexJson :=
  Calls.after perform openNew
    [.insert (plainSession 7 .collecting), .recordApproval (plainId 7) plainVerifier]

open InMemorySessionStore in
theorem not_atomic_approvedStore : ¬ Atomic hexJson (.remove (plainId 7)) approvedStore.conn := by
  have happ : ⟨encodeSessionId (plainId 7), encodeVerifierId plainVerifier⟩ ∈
      approvedStore.conn.approvals.rows := by
    decide +kernel
  exact not_atomic_remove happ rfl

end TlsAttestation.SqliteSessionStore

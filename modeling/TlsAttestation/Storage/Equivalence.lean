import TlsAttestation.Storage.Sqlite

/-!
# The two stores cannot be told apart

Every sequence of calls has the same answers on both stores. A database mirrors a store in memory
(`SqliteSessionStore.Mirrors`) if there is one row for each session, with its text and a flag that
says whether it has ended, and one for each approval.
-/

namespace TlsAttestation

open ByteEncoding Finmap InMemorySessionStore

namespace SqliteSessionStore

open Sqlite

theorem encodeSessionId_injective : Function.Injective encodeSessionId := by
  intro a b h
  exact SessionId.asBytes_injective (Vector.toList_inj.1 (hexEncode_injective h))

theorem encodeVerifierId_injective : Function.Injective encodeVerifierId := by
  intro a b h
  exact VerifierId.asBytes_injective (Vector.toList_inj.1 (hexEncode_injective h))

variable {json : SessionJson}

inductive Stored (json : SessionJson) (id : SessionId) : Option Session → Option SessionRow → Prop
  | missing : Stored json id none none
  | row {session : Session} {text : String} (htext : json.toString session = .ok text) :
    Stored json id (some session)
      (some ⟨encodeSessionId id, text, asI64 session.state.isTerminal⟩)

/-- The database holds what the store in memory holds. -/
structure Mirrors (json : SessionJson) (s : InMemorySessionStore) (db : Database) : Prop where
  sessions : ∀ id, Stored json id (s.sessions.lookup id) (db.sessions.find (encodeSessionId id))
  approvals : ∀ id v, s.hasApproved id v = true ↔
    ⟨encodeSessionId id, encodeVerifierId v⟩ ∈ db.approvals.rows

variable {s s' : InMemorySessionStore} {db : Database} {id : SessionId}

theorem Mirrors.find_eq_none (h : Mirrors json s db) (hid : s.sessions.lookup id = none) :
    db.sessions.find (encodeSessionId id) = none := by
  have hstored := h.sessions id
  rw [hid] at hstored
  generalize db.sessions.find (encodeSessionId id) = row at hstored
  cases hstored
  rfl

variable {session : Session} {r : Response}

theorem Mirrors.exists_find_eq_some (h : Mirrors json s db)
    (hid : s.sessions.lookup id = some session) :
    ∃ text, json.toString session = .ok text ∧ db.sessions.find (encodeSessionId id) =
      some ⟨encodeSessionId id, text, asI64 session.state.isTerminal⟩ := by
  have hstored := h.sessions id
  rw [hid] at hstored
  generalize db.sessions.find (encodeSessionId id) = row at hstored
  cases hstored with
  | row htext => exact ⟨_, htext, rfl⟩

theorem mem_of_find {row : SessionRow} {idHex : String} (h : db.sessions.find idHex = some row) :
    idHex ∈ db.sessions.rows.map SessionRow.sessionId := by
  obtain ⟨hmem, hkey⟩ := Table.find_eq_some.1 h
  exact List.mem_map.2 ⟨row, hmem, hkey⟩

theorem fromStr_eq_ok (hjson : json.RoundTrips) {text : String}
    (htext : json.toString session = .ok text) : json.fromStr text = .ok session := by
  obtain ⟨text', htext', hback⟩ := hjson session
  obtain rfl := Except.ok.inj (htext.symm.trans htext')
  exact hback

theorem mirrors_empty : Mirrors json .new .empty where
  sessions _ := .missing
  approvals id v := by
    simp [InMemorySessionStore.hasApproved, InMemorySessionStore.new, Database.empty, Table.empty]

/-! ### One call -/

def Agrees (json : SessionJson) (op : Operation) (r : Response) (s' : InMemorySessionStore)
    (db : Database) : Prop :=
  r = ((script json op).run execute db).1 ∧ Mirrors json s' ((script json op).run execute db).2

theorem agrees_of_run {op : Operation} (db' : Database)
    (hrun : (script json op).run execute db = (r, db')) (h : Mirrors json s' db') :
    Agrees json op r s' db := by
  refine ⟨?_, ?_⟩
  · rw [hrun]
  · rw [hrun]
    exact h

section

attribute [local simp] script isTerminalByHex Script.andThen Script.map Script.run execute
  orViolation Fallible.okOr

variable (h : Mirrors json s db)

include h

theorem agrees_insert (hjson : json.RoundTrips) (hr : s.Performed (.insert session) r s') :
    Agrees json (.insert session) r s' db := by
  obtain ⟨text, htext, -⟩ := hjson session
  cases hr with
  | insertKnown hknown =>
    obtain ⟨old, hold⟩ := mem_iff.1 hknown
    obtain ⟨oldText, -, hfind⟩ := h.exists_find_eq_some hold
    have hnone : db.insertSession ⟨encodeSessionId session.context.sessionId, text,
        asI64 session.state.isTerminal⟩ = none :=
      Database.insertSession_of_mem (mem_of_find hfind)
    refine agrees_of_run db ?_ h
    simp [insert, htext, hnone]
  | insertNew hnew hses happs =>
    have hfind := h.find_eq_none (lookup_eq_none.2 hnew)
    obtain ⟨db', hdb', hins, hsame⟩ : ∃ db', db.insertSession _ = some db' ∧
        db.sessions.insert ⟨encodeSessionId session.context.sessionId, text,
          asI64 session.state.isTerminal⟩ = some db'.sessions ∧ db'.approvals = db.approvals :=
      Database.exists_insertSession (Table.find_eq_none.1 hfind)
    refine agrees_of_run db' ?_ ⟨fun id => ?_, fun id v => ?_⟩
    · simp [insert, htext, hdb']
    · rw [hses, Table.find_insert hins]
      by_cases hid : id = session.context.sessionId
      · subst hid
        rw [if_pos rfl, lookup_insert]
        exact .row htext
      · rw [if_neg fun he => hid (encodeSessionId_injective he).symm, lookup_insert_of_ne _ hid]
        exact h.sessions id
    · -- the new session has no approvals, and it had none before
      rw [hsame, ← h.approvals id v, hasApproved_eq_true, hasApproved_eq_true, happs]
      by_cases hid : id = session.context.sessionId
      · subst hid
        have hnone : s.approvals.lookup session.context.sessionId = none :=
          lookup_eq_none.2 ((s.mem_approvals _).not.2 hnew)
        simp [hnone]
      · rw [lookup_insert_of_ne _ hid]

theorem agrees_get (hjson : json.RoundTrips) :
    Agrees json (.get id) (.session (s.get id)) s db := by
  rcases hid : s.sessions.lookup id with _ | session
  · have hfind := h.find_eq_none hid
    refine agrees_of_run db ?_ h
    simp [get, hfind, InMemorySessionStore.get, hid]
  · obtain ⟨text, htext, hfind⟩ := h.exists_find_eq_some hid
    refine agrees_of_run db ?_ h
    simp [get, hfind, InMemorySessionStore.get, hid, fromStr_eq_ok hjson htext, Except.mapError]

theorem agrees_updateState (hjson : json.RoundTrips) {state : SessionState}
    (hr : s.Performed (.updateState id state) r s') :
    Agrees json (.updateState id state) r s' db := by
  cases hr with
  | updateMissing hid =>
    have hfind := h.find_eq_none hid
    refine agrees_of_run db ?_ h
    simp [updateState, hfind]
  | updateEnded hid hend =>
    obtain ⟨text, htext, hfind⟩ := h.exists_find_eq_some hid
    refine agrees_of_run db ?_ h
    simp [updateState, hfind, hend, asI64]
  | @updateOpen _ _ session _ hid hopen hses happs =>
    obtain ⟨text, htext, hfind⟩ := h.exists_find_eq_some hid
    obtain ⟨updated, hupdated, -⟩ := hjson { session with state }
    refine agrees_of_run (db.updateSession updated (asI64 state.isTerminal)
      (encodeSessionId id)) ?_ ⟨fun i => ?_, fun i v => ?_⟩
    · simp [updateState, hfind, hopen, asI64, fromStr_eq_ok hjson htext, hupdated]
    · rw [hses, Database.updateSession, Table.find_update]
      by_cases hi : i = id
      · subst hi
        rw [if_pos rfl, hfind, lookup_insert]
        exact .row hupdated
      · rw [if_neg fun he => hi (encodeSessionId_injective he), lookup_insert_of_ne _ hi]
        exact h.sessions i
    · rw [hasApproved_eq_true, happs, ← hasApproved_eq_true]
      exact h.approvals i v

theorem agrees_recordApproval {v : VerifierId} (hr : s.Performed (.recordApproval id v) r s') :
    Agrees json (.recordApproval id v) r s' db := by
  cases hr with
  | approveMissing hid =>
    have hfind := h.find_eq_none hid
    refine agrees_of_run db ?_ h
    simp [recordApproval, hfind]
  | approveEnded hid hend =>
    obtain ⟨text, htext, hfind⟩ := h.exists_find_eq_some hid
    refine agrees_of_run db ?_ h
    simp [recordApproval, hfind, hend, asI64]
  | approveAgain hid hopen hset hv =>
    obtain ⟨text, htext, hfind⟩ := h.exists_find_eq_some hid
    have hmem := (h.approvals id v).1 (hasApproved_eq_true.2 ⟨_, hset, hv⟩)
    refine agrees_of_run db ?_ h
    simp [recordApproval, hfind, hopen, asI64, Database.insertApproval_of_mem hmem]
  | @approve _ _ _ set _ hid hopen hset hv hses happs =>
    obtain ⟨text, htext, hfind⟩ := h.exists_find_eq_some hid
    have hnot : s.hasApproved id v ≠ true := by
      rw [Ne, hasApproved_eq_true, hset]
      rintro ⟨_, heq, hmem⟩
      exact hv (Option.some.inj heq ▸ hmem)
    obtain ⟨db', hdb', hsame, hrows⟩ : ∃ db', db.insertApproval _ = some db' ∧
        db'.sessions = db.sessions ∧
        db'.approvals.rows = db.approvals.rows ++ [⟨encodeSessionId id, encodeVerifierId v⟩] :=
      Database.exists_insertApproval (mem_of_find hfind)
        fun hmem => hnot ((h.approvals id v).2 hmem)
    refine agrees_of_run db' ?_ ⟨fun i => ?_, fun i w => ?_⟩
    · simp [recordApproval, hfind, hopen, asI64, hdb']
    · rw [hses, hsame]
      exact h.sessions i
    · rw [hrows, List.mem_append, ← h.approvals i w, List.mem_singleton, ApprovalRow.mk.injEq,
        encodeSessionId_injective.eq_iff, encodeVerifierId_injective.eq_iff,
        hasApproved_eq_true, hasApproved_eq_true,
        happs]
      by_cases hi : i = id
      · subst hi
        simp [hset, or_comm]
      · simp [lookup_insert_of_ne _ hi, hi]

theorem agrees_hasApproved {v : VerifierId} :
    Agrees json (.hasApproved id v) (.flag (s.hasApproved id v)) s db := by
  refine agrees_of_run db ?_ h
  have hcount : decide (0 < db.approvals.count fun a =>
      a.sessionId = encodeSessionId id ∧ a.verifierId = encodeVerifierId v) =
        s.hasApproved id v := by
    rw [Bool.eq_iff_iff, decide_eq_true_iff, Table.count_pos, h.approvals]
    constructor
    · rintro ⟨⟨_, _⟩, hmem, ha⟩
      obtain ⟨rfl, rfl⟩ := of_decide_eq_true ha
      exact hmem
    · intro hmem
      exact ⟨_, hmem, by simp⟩
  simp [hasApproved, ← hcount]

theorem agrees_contains :
    Agrees json (.contains id) (.flag (s.contains id)) s db := by
  refine agrees_of_run db ?_ h
  have hcount : decide (0 < db.sessions.count fun row => row.sessionId = encodeSessionId id) =
      s.contains id := by
    rw [Bool.eq_iff_iff, decide_eq_true_iff, Table.count_pos]
    rcases hid : s.sessions.lookup id with _ | session
    · have hnone := Table.find_eq_none.1 (h.find_eq_none hid)
      have hnot : id ∉ s.sessions := lookup_eq_none.1 hid
      simpa [InMemorySessionStore.contains, hnot] using hnone
    · obtain ⟨text, -, hfind⟩ := h.exists_find_eq_some hid
      have hmem : id ∈ s.sessions := mem_of_lookup_eq_some hid
      obtain ⟨hrow, hkey⟩ := Table.find_eq_some.1 hfind
      exact ⟨fun _ => by simp [InMemorySessionStore.contains, hmem], fun _ => ⟨_, hrow, by simp⟩⟩
  simp [contains, hcount]

theorem agrees_remove (hses : s'.sessions = s.sessions.erase id)
    (happs : s'.approvals = s.approvals.erase id) :
    Agrees json (.remove id) (.done (.ok ())) s' db := by
  have hnone : ∀ a ∈ (db.deleteApprovals (encodeSessionId id)).approvals.rows,
      a.sessionId ≠ encodeSessionId id := by
    intro a ha
    simpa using (Table.mem_delete.1 ha).2
  obtain ⟨db', hdb', hdeleted, hsame⟩ := Database.exists_deleteSession hnone
  refine agrees_of_run db' ?_ ⟨fun i => ?_, fun i w => ?_⟩
  · simp [remove, hdb']
  · rw [hdeleted, Table.find_delete, hses]
    by_cases hi : i = id
    · subst hi
      rw [if_pos rfl, lookup_erase]
      exact .missing
    · rw [if_neg fun he => hi (encodeSessionId_injective he), lookup_erase_ne hi]
      exact h.sessions i
  · have hmem : (⟨encodeSessionId i, encodeVerifierId w⟩ : ApprovalRow) ∈
        (db.deleteApprovals (encodeSessionId id)).approvals.rows ↔
          s.hasApproved i w = true ∧ i ≠ id := by
      rw [Database.deleteApprovals, Table.mem_delete, ← h.approvals, decide_eq_false_iff_not,
        encodeSessionId_injective.eq_iff]
    rw [hsame, hmem, hasApproved_eq_true, hasApproved_eq_true, happs]
    by_cases hi : i = id
    · subst hi
      simp
    · simp [lookup_erase_ne hi, hi]

theorem agrees_perform (hjson : json.RoundTrips) (op : Operation) :
    Agrees json op (perform s op).1 (perform s op).2 db := by
  cases op with
  | insert session => exact agrees_insert h hjson (s.performed_insert session)
  | get id => exact agrees_get h hjson
  | updateState id state => exact agrees_updateState h hjson (s.performed_updateState id state)
  | recordApproval id v => exact agrees_recordApproval h (s.performed_recordApproval id v)
  | hasApproved id v => exact agrees_hasApproved h
  | remove id => exact agrees_remove h rfl rfl
  | contains id => exact agrees_contains h

end

/-! ### A text form of sessions -/

def stateBytes : SessionState → Bytes
  | .pending => [0]
  | .active => [1]
  | .attesting => [2]
  | .collecting => [3]
  | .finalized => [4]
  | .expired => [5]
  | .failed reason => 6 :: strBytes reason

theorem stateBytes_injective : Function.Injective stateBytes := by
  intro a b h
  cases a <;> cases b <;> simp_all [stateBytes, strBytes_injective.eq_iff]

def hexText (session : Session) : String :=
  hexEncode (session.context.bytes ++
    (session.context.sessionDigest.asBytes.toList ++ stateBytes session.state))

theorem hexText_injective : Function.Injective hexText := by
  rintro ⟨c, a⟩ ⟨d, b⟩ h
  obtain ⟨hcontext, hrest⟩ := SessionContext.bytes_append_inj (hexEncode_injective h)
  obtain ⟨hdig, hstate⟩ := selfDelimiting_vector hrest
  obtain rfl := stateBytes_injective hstate
  rw [← DigestBytes.asBytes_injective hdig] at hcontext
  exact congrArg (Session.mk · a) hcontext

open Classical in
noncomputable def hexJson : SessionJson where
  toString session := .ok (hexText session)
  fromStr text :=
    if h : ∃ session, hexText session = text then .ok h.choose else .error "not a session"

theorem roundTrips_hexJson : hexJson.RoundTrips := by
  intro session
  have hex : ∃ session', hexText session' = hexText session := ⟨session, rfl⟩
  refine ⟨hexText session, rfl, ?_⟩
  simp only [hexJson, dif_pos hex]
  rw [hexText_injective hex.choose_spec]

/-! ### Runs -/

theorem events_eq_of_mirrors (hjson : json.RoundTrips) (h : Mirrors json s db)
    (ops : List Operation) :
    Calls.events perform s ops = Calls.events perform (⟨db⟩ : SqliteSessionStore json) ops := by
  refine Calls.events_eq_of_bisimulation (fun s (t : SqliteSessionStore json) =>
    Mirrors json s t.conn) ?_ h ops
  intro s t op hst
  rw [perform_eq t op]
  exact agrees_perform hst hjson op

/-- The two stores cannot be told apart. -/
theorem events_eq_inMemory (json : SessionJson) (hjson : json.RoundTrips) (ops : List Operation) :
    Calls.events perform (openNew : SqliteSessionStore json) ops =
      Calls.events perform InMemorySessionStore.new ops :=
  (events_eq_of_mirrors hjson mirrors_empty ops).symm

theorem events_eq_inMemory_replayedCalls :
    hexJson.RoundTrips ∧ Calls.events perform (openNew : SqliteSessionStore hexJson) replayedCalls =
      Calls.events perform InMemorySessionStore.new replayedCalls :=
  ⟨roundTrips_hexJson, events_eq_inMemory hexJson roundTrips_hexJson _⟩

end SqliteSessionStore

end TlsAttestation

import MySQLPlugin.Logic.History

/-!
# What the natives touch

The events that the statements of a program may leave. Most natives only read a connection or work
on the reading state of a handler: its stored result, the current row and field, the last error and
the text of a row; they leave *quiet* events. The natives other than `mysql_close` neither execute
nor hand out a threaded query, and keep every handler in its place.
-/

namespace MySQLPlugin

open Threads Prog CMySQLHandler

/-! ### Programs and their events -/

section

variable {t : ThreadId} {P Q : Event → Prop} {α : Type}

lemma all_only_mono {p : Code α} (hp : p.All (Stmt.Only t P)) (h : ∀ e, P e → Q e) :
    p.All (Stmt.Only t Q) := hp.mono fun _ ha => ha.mono h

lemma all_only_and {p : Code α} (hP : p.All (Stmt.Only t P)) (hQ : p.All (Stmt.Only t Q)) :
    p.All (Stmt.Only t fun e => P e ∧ Q e) := by
  induction p with
  | ret x => trivial
  | fail e => trivial
  | act a k ih => exact ⟨hP.1.and hQ.1, fun x => ih x (hP.2 x) (hQ.2 x)⟩

variable {M : Machine Stmt Fault State ThreadId Reply} {b : Build}

/-- An invariant kept by every event that the program may leave holds when the program ends. -/
lemma wp_of_only (hM : ∀ {β : Type} {a : Stmt β} {s o s'}, M.Step t a s o s' →
      (plugin b).Step t a s o s') {E : Fault → State → Prop} {I : State → Prop} {p : Code α}
    (hp : p.All (Stmt.Only t P))
    (hI : ∀ e s s', P e → I s → Effect t e s s' → I s') (hE : ∀ e s, I s → E e s) {s : State}
    (hs : I s) : p.wp M t E (fun _ => I) s := by
  refine wp_of_all hp (fun a s o s' ha hIs hst => ?_) hE hs
  obtain ⟨r, _, hrun⟩ := hM hst
  rcases Stmt.run_effect ha hrun with rfl | ⟨e, he, heff⟩
  · exact hIs
  · exact hI e s s' he hIs heff

/-- The events that a run of the program leaves. -/
lemma wp_events (hM : ∀ {β : Type} {a : Stmt β} {s o s'}, M.Step t a s o s' →
      (plugin b).Step t a s o s') {p : Code α} (hp : p.All (Stmt.Only t P)) (s : State) :
    p.wp M t (fun _ _ => True) (fun _ s' => ∃ es, s'.trace = s.trace ++ es ∧ ∀ e ∈ es, P e) s := by
  refine wp_of_only (I := fun s' => ∃ es, s'.trace = s.trace ++ es ∧ ∀ e ∈ es, P e) hM hp
    (fun e s₁ s₂ he hI heff => ?_) (fun _ _ _ => trivial) ⟨[], by simp⟩
  obtain ⟨es, htrace, hes⟩ := hI
  refine ⟨es ++ [e], by rw [heff.trace, htrace, List.append_assoc], fun e' he' => ?_⟩
  rcases List.mem_append.mp he' with he' | he'
  · exact hes e' he'
  · exact List.mem_singleton.mp he' ▸ he

/-- The same among other threads, when the events also keep what the others rely on. -/
lemma relies_of_only {rely : ThreadId → Set (State → Prop)}
    (hM : ∀ {β : Type} {a : Stmt β} {s o s'}, M.Step t a s o s' → (plugin b).Step t a s o s')
    {I : State → Prop} {p : Code α} (hp : p.All (Stmt.Only t P)) (hJ : Stable (rely t) I)
    (hI : ∀ e s s', P e → I s → Effect t e s s' → Guarantees rely t s s' ∧ I s') {s : State}
    (hs : I s) : p.Relies M rely t (fun _ => I) s := by
  refine relies_of_all hp hJ (fun a s o s' ha hIs hst => ?_) hs
  obtain ⟨r, _, hrun⟩ := hM hst
  rcases Stmt.run_effect ha hrun with rfl | ⟨e, he, heff⟩
  · exact ⟨fun _ _ => .refl _ _, hIs⟩
  · exact hI e s s' he hIs heff

end

/-! ### The quiet natives -/

/-- The assignment changes only the reading state. -/
def Assign.Quiet : Assign → Prop
  | .m_dwError _ | .m_dwFields _ | .Delimiter _ | .m_szResult _ | .m_cSStream_insert _
  | .m_cSStream_getline | .m_cSStream_extract | .m_cSStream_clear
  | .m_stResult _ | .m_stRow _ | .m_stField _ => True
  | .m_bIsConnected _ | .m_bNonThreadedQuery _ | .m_bQueryProcessing _ | .queueData_push _
  | .queueData_pop | .queueData_popAll | .callbackData_push _ | .callbackData_pop
  | .errorCallback_push _ | .errorCallback_pop | .m_stConnectionPtr _ => False

/-- The call neither opens or closes the connection nor executes a statement. -/
def LibCall.Quiet : LibCall → Prop
  | .mysql_real_connect _ _ _ _ _ | .mysql_close | .mysql_real_query _ => False
  | .mysql_ping | .mysql_store_result | .mysql_stat | .mysql_set_character_set _
  | .mysql_reload => True

def Event.Quiet : Event → Prop
  | .unset _ _ _ | .access _ _ _ _ | .onResult _ _ _ | .free _ | .setDebugging _ | .setString _ _
  | .setFloat _ _ => True
  | .assign _ _ a => a.Quiet
  | .enter _ _ f _ => f.Quiet
  | .leave _ _ f _ _ => f.Quiet
  | _ => False

/-- The assignment changes only what belongs to the row that is being read. -/
def Assign.Looks : Assign → Prop
  | .m_dwError _ | .m_dwFields _ | .Delimiter _ | .m_szResult _ | .m_cSStream_insert _
  | .m_cSStream_getline | .m_cSStream_extract | .m_cSStream_clear | .m_stRow _ | .m_stField _ => True
  | .m_bIsConnected _ | .m_bNonThreadedQuery _ | .m_bQueryProcessing _ | .queueData_push _
  | .queueData_pop | .queueData_popAll | .callbackData_push _ | .callbackData_pop
  | .errorCallback_push _ | .errorCallback_pop | .m_stConnectionPtr _ | .m_stResult _ => False

/-- The call changes neither the connection nor a result. -/
def LibCall.Looks : LibCall → Prop
  | .mysql_stat | .mysql_set_character_set _ | .mysql_reload => True
  | .mysql_real_connect _ _ _ _ _ | .mysql_close | .mysql_ping | .mysql_real_query _
  | .mysql_store_result => False

/-- The function leaves the result alive. -/
def ResCall.Looks : ResCall → Prop
  | .mysql_free_result => False
  | _ => True

/-- A quiet event that keeps the stored result of every handler. -/
def Event.Looks : Event → Prop
  | .unset _ _ _ | .access _ _ _ _ | .free _ | .setDebugging _ | .setString _ _ | .setFloat _ _ => True
  | .onResult _ _ f => f.Looks
  | .assign _ _ a => a.Looks
  | .enter _ _ f _ => f.Looks
  | .leave _ _ f _ _ => f.Looks
  | _ => False

lemma Event.Looks.quiet {e : Event} (he : e.Looks) : e.Quiet := by
  cases e with
  | assign u h a => cases a <;> first | exact he.elim | trivial
  | enter u h f c => cases f <;> first | exact he.elim | trivial
  | leave u h f c ok => cases f <;> first | exact he.elim | trivial
  | _ => first | exact he.elim | trivial

/-- The natives made of quiet statements. -/
def NativeCall.Quiet : NativeCall → Prop
  | .mysql_connect .. | .mysql_reconnect _ | .mysql_query .. | .mysql_query_callback ..
  | .mysql_close _ | .mysql_ping _ => False
  | _ => True

/-- The quiet natives that neither store nor free a result. -/
def NativeCall.Looks : NativeCall → Prop
  | .mysql_connect .. | .mysql_reconnect _ | .mysql_query .. | .mysql_query_callback ..
  | .mysql_close _ | .mysql_ping _ | .mysql_store_result _ | .mysql_free_result _ => False
  | _ => True

section

variable (t : ThreadId)

attribute [local simp] Stmt.Only Event.Looks Assign.Looks LibCall.Looks ResCall.Looks this load call access
  onResult assign Debug
  bind_bind ite_bind all_lift_bind all_ite withHandle Natives.body setString

lemma insertValue_looks (h : HandlerPtr) (i : Nat) : (insertValue h i).All (Stmt.Only t Event.Looks) := by
  simp [insertValue]

lemma nextRow_looks (h : HandlerPtr) : (nextRow h).All (Stmt.Only t Event.Looks) := by
  simp [nextRow]

lemma rowText_looks (h : HandlerPtr) : (rowText h).All (Stmt.Only t Event.Looks) := by
  simp only [rowText, load, all_lift_bind]
  refine ⟨by simp, fun n => .bind (.forEach _ fun i => ?_) fun _ => by simp⟩
  exact (insertValue_looks t h i).bind fun _ => by simp

lemma fetchRow_looks (h : HandlerPtr) : (fetchRow h).All (Stmt.Only t Event.Looks) := by
  simp only [fetchRow, this, load, all_lift_bind, all_ite]
  refine ⟨by simp, fun x => ⟨fun _ => trivial, fun _ => ⟨by simp, fun r => ⟨fun _ => trivial,
    fun _ => (nextRow_looks t h).bind fun row => ?_⟩⟩⟩⟩
  simp only [all_ite]
  exact ⟨fun _ => rowText_looks t h, fun _ => by simp⟩

lemma insertField_looks (h : HandlerPtr) (column : CString) (is : List Nat) :
    (insertField h column is).All (Stmt.Only t Event.Looks) := by
  induction is with
  | nil => trivial
  | cons i is ih =>
    simp only [insertField, load, all_lift_bind, all_ite]
    exact ⟨by simp, fun f => ⟨by simp, fun name => ⟨fun _ => insertValue_looks t h i, fun _ => ih⟩⟩⟩

lemma fetchField_looks (h : HandlerPtr) (column : CString) :
    (fetchField h column).All (Stmt.Only t Event.Looks) := by
  simp only [fetchField, this, load, all_lift_bind, all_ite]
  refine ⟨by simp, fun x => ⟨fun _ => trivial, fun _ => ⟨by simp, fun f => ⟨fun _ => trivial,
    fun _ => ⟨by simp, fun r => ⟨fun _ => trivial, fun _ => ⟨by simp, fun n => ?_⟩⟩⟩⟩⟩⟩⟩
  exact (insertField_looks t h column _).bind fun _ => by simp

lemma statistics_looks (h : HandlerPtr) : (statistics h).All (Stmt.Only t Event.Looks) := by
  simp only [statistics, this, call, all_lift_bind, all_ite, bind_bind]
  refine ⟨by simp, fun x => ⟨fun _ => trivial, fun _ => ⟨by simp, fun c => ⟨by simp, fun text => ?_⟩⟩⟩⟩
  cases text <;> trivial

lemma withHandle_only {P : Event → Prop} (c : Cell) {f : HandlerPtr → Code Cell}
    (hf : ∀ h, (f h).All (Stmt.Only t P)) : (withHandle c f).All (Stmt.Only t P) := by
  simp [hf]

lemma body_looks {n : NativeCall} (hn : n.Looks) :
    (Natives.body n).All (Stmt.Only t Event.Looks) := by
  cases n with
  | mysql_connect => exact hn.elim
  | mysql_reconnect => exact hn.elim
  | mysql_query => exact hn.elim
  | mysql_query_callback => exact hn.elim
  | mysql_close => exact hn.elim
  | mysql_ping => exact hn.elim
  | mysql_set_charset => simp [Natives.nMysqlSetCharset, setCharset]
  | mysql_get_charset => simp [Natives.nMysqlGetCharset, getCharset]
  | mysql_insert_id => simp [Natives.nMysqlInsertId, insertId]
  | mysql_free_result => exact hn.elim
  | mysql_store_result => exact hn.elim
  | mysql_real_escape_string => simp [Natives.nMysqlRealEscapeString, escapeStr]
  | mysql_field_count => simp [Natives.nMysqlFieldCount, fieldCount]
  | mysql_reload => simp [Natives.nMysqlReload, reload]
  | mysql_fetch_row_format =>
    refine withHandle_only t _ fun h => ⟨by simp, fun _ => ?_⟩
    exact (fetchRow_looks t h).bind fun r => by simp
  | mysql_fetch_field_row =>
    exact withHandle_only t _ fun h => (fetchField_looks t h _).bind fun _ => by simp
  | mysql_retrieve_row =>
    refine withHandle_only t _ fun h => ?_
    simp only [retrieveRow, this, load, all_lift_bind, all_ite]
    exact ⟨by simp, fun x => ⟨fun _ => trivial, fun _ => ⟨by simp, fun r => ⟨fun _ => trivial,
      fun _ => (nextRow_looks t h).bind fun row => by simp⟩⟩⟩⟩
  | mysql_num_rows => simp [Natives.nMysqlNumRows, numRows]
  | mysql_num_fields => simp [Natives.nMysqlNumFields, numFields]
  | mysql_affected_rows => simp [Natives.nMysqlAffectedRows, affectedRows]
  | mysql_stat =>
    exact withHandle_only t _ fun h => (statistics_looks t h).bind fun _ => by simp
  | mysql_warning_count => simp [Natives.nMysqlWarningCount, warningCount]
  | mysql_errno => simp [Natives.nMysqlErrno]
  | mysql_fetch_int =>
    refine withHandle_only t _ fun h => ⟨by simp, fun _ => ?_⟩
    exact (fetchRow_looks t h).bind fun r => by simp
  | mysql_fetch_float =>
    refine withHandle_only t _ fun h => ⟨by simp, fun _ => ?_⟩
    exact (fetchRow_looks t h).bind fun r => by simp
  | mysql_fetch_field => simp [Natives.nMysqlFetchField, fetchFieldName]
  | mysql_debug => simp [Natives.nMysqlDebug]

/-- The events of the native with the records of its call. -/
lemma native_looks {n : NativeCall} (hn : n.Looks) :
    (native n).All (Stmt.Only t fun e => e.Looks ∨ ∃ m, e = .mark m) := by
  rw [native, all_lift_bind]
  refine ⟨.inr ⟨_, rfl⟩, fun _ => .bind (all_only_mono (body_looks t hn) fun _ => .inl) fun r => ?_⟩
  rw [all_lift_bind]
  exact ⟨.inr ⟨_, rfl⟩, fun _ => trivial⟩

lemma body_quiet {n : NativeCall} (hn : n.Quiet) :
    (Natives.body n).All (Stmt.Only t Event.Quiet) := by
  by_cases hlooks : n.Looks
  · exact all_only_mono (body_looks t hlooks) fun _ => Event.Looks.quiet
  cases n with
  | mysql_store_result =>
    simp [Natives.body, Natives.nMysqlStoreResult, storeResult, Event.Quiet, Assign.Quiet, LibCall.Quiet]
  | mysql_free_result =>
    simp [Natives.body, Natives.nMysqlFreeResult, freeResult, Event.Quiet, Assign.Quiet]
  | mysql_connect => exact hn.elim
  | mysql_reconnect => exact hn.elim
  | mysql_query => exact hn.elim
  | mysql_query_callback => exact hn.elim
  | mysql_close => exact hn.elim
  | mysql_ping => exact hn.elim
  | _ => exact absurd trivial hlooks

end

/-! ### All natives -/

/-- The report of a query that `OldQuery` has executed itself. -/
def ErrorInfo.Synchronous (e : ErrorInfo) : Prop := e.m_uiResult = -1 ∧ e.m_szCallback = NULL

/-- The assignments of the natives: they neither execute nor hand out a threaded query. -/
def Assign.OfNative : Assign → Prop
  | .m_bQueryProcessing _ | .queueData_pop | .callbackData_push _ | .callbackData_pop
  | .errorCallback_pop => False
  | .errorCallback_push e => e.Synchronous
  | _ => True

/-- The events of the natives other than `mysql_close`. -/
def Event.OfNative : Event → Prop
  | .erase _ _ | .delete _ | .amxLoad _ | .amxUnload _ | .exec _ _ | .visit _ => False
  | .assign _ _ a => a.OfNative
  | .mark (.visitEnd _) | .mark .tick | .mark .tickEnd => False
  | _ => True

/-- The events of the body of such a native: the call itself is recorded around it. -/
def Event.OfBody : Event → Prop
  | .mark (.oldQuery _) | .mark (.oldQueryEnd _) => True
  | .mark _ => False
  | e => e.OfNative

lemma Event.OfBody.ofNative {e : Event} (he : e.OfBody) : e.OfNative := by
  cases e with
  | mark m => cases m <;> trivial
  | _ => exact he

lemma Event.Quiet.ofBody {e : Event} (he : e.Quiet) : e.OfBody := by
  cases e with
  | assign u h a => cases a <;> trivial
  | _ => trivial

/-- The native does not close a connection. -/
def NativeCall.Open : NativeCall → Prop
  | .mysql_close _ => False
  | _ => True

section

variable (t : ThreadId)

attribute [local simp] Stmt.Only Event.OfBody Event.OfNative Assign.OfNative this call access assign Debug
  lockMutex unlockMutex bind_bind ite_bind all_lift_bind all_ite withHandle

lemma connect_ofBody (h : HandlerPtr) : (connect h).All (Stmt.Only t Event.OfBody) := by
  simp [connect]

lemma disconnect_ofBody (h : HandlerPtr) : (disconnect h).All (Stmt.Only t Event.OfBody) := by
  simp [disconnect, closeConnection, clearQueue]

/-- The search of `mysql_connect` for a handler with the same parameters. -/
lemma reuse_only {P : Event → Prop} {host user db pass : CString} {port : Cell}
    (hflag : ∀ h, P (.assign t h (.m_bIsConnected false)))
    (hconnect : ∀ h, (connect h).All (Stmt.Only t P)) (hs : List HandlerPtr) (i : Nat) :
    (Natives.reuse host user db pass port hs i).All (Stmt.Only t P) := by
  induction hs generalizing i with
  | nil => trivial
  | cons h hs ih =>
    simp only [Natives.reuse, this, assign, all_lift_bind, all_ite]
    refine ⟨trivial, fun x => ⟨fun _ => ⟨hflag h, fun _ => ?_⟩, fun _ => ih (i + 1)⟩⟩
    exact (hconnect h).bind fun _ => trivial

/-- The events of `mysql_connect` are those of `Connect`, a new object and its entry. -/
lemma nMysqlConnect_only {P : Event → Prop} {host user db pass : CString} {port : Cell}
    (hflag : ∀ h, P (.assign t h (.m_bIsConnected false)))
    (hconnect : ∀ h, (connect h).All (Stmt.Only t P))
    (hnew : ∀ h, P (.new h host user pass db port)) (hpush : ∀ h, P (.pushBack h)) :
    (Natives.nMysqlConnect host user db pass port).All (Stmt.Only t P) := by
  have happend : (Natives.append host user db pass port).All (Stmt.Only t P) := by
    simp only [Natives.append, construct, bind_bind, all_lift_bind]
    refine ⟨hnew, fun h => (hconnect h).bind fun _ => ?_⟩
    exact ⟨hpush h, fun _ => ⟨trivial, fun _ => trivial⟩⟩
  simp only [Natives.nMysqlConnect, all_lift_bind, all_ite]
  refine ⟨trivial, fun n => ⟨fun _ => ⟨trivial, fun hs => ?_⟩, fun _ => happend⟩⟩
  refine (reuse_only t hflag hconnect hs 0).bind fun i => ?_
  cases i with
  | none => exact happend
  | some i => trivial

lemma body_ofBody {n : NativeCall} (hn : n.Open) :
    (Natives.body n).All (Stmt.Only t Event.OfBody) := by
  cases n with
  | mysql_close => exact hn.elim
  | mysql_connect =>
    exact nMysqlConnect_only t (fun _ => trivial) (connect_ofBody t) (fun _ => trivial) fun _ => trivial
  | mysql_reconnect c =>
    refine withHandle_only t c fun h => (disconnect_ofBody t h).bind fun _ => ⟨by simp, fun _ => ?_⟩
    exact (connect_ofBody t h).bind fun _ => trivial
  | mysql_query =>
    simp [Natives.body, Natives.nMysqlQuery, oldQuery, enqueue, nonThreadedQuery,
      ErrorInfo.Synchronous]
  | mysql_query_callback =>
    simp [Natives.body, Natives.nMysqlQueryCallback, query, enqueue]
  | mysql_ping => simp [Natives.body, Natives.nMysqlPing, ping]
  | _ => exact all_only_mono (body_quiet t (by trivial)) fun _ => Event.Quiet.ofBody

/-- The events of a native other than `mysql_close`. -/
lemma native_ofNative {n : NativeCall} (hn : n.Open) :
    (native n).All (Stmt.Only t Event.OfNative) := by
  simp only [native, all_lift_bind]
  exact ⟨by simp, fun _ =>
    (all_only_mono (body_ofBody t hn) fun _ => Event.OfBody.ofNative).bind fun r => by simp⟩

end

/-! ### The natives that take no query -/

/-- The text of the query that is the argument of the call. -/
def NativeCall.query : NativeCall → Option CString
  | .mysql_query query _ _ _ | .mysql_query_callback _ query _ _ _ => some query
  | _ => none

/-- The event neither queues nor executes a query. -/
def Event.NoQuery : Event → Prop
  | .assign _ _ (.queueData_push _) | .assign _ _ (.m_bNonThreadedQuery _)
  | .enter _ _ (.mysql_real_query _) _ | .leave _ _ (.mysql_real_query _) _ _ | .visit _ | .mark _ =>
    False
  | _ => True

lemma Event.Quiet.noQuery {e : Event} (he : e.Quiet) : e.NoQuery := by
  cases e with
  | assign u h a => cases a <;> first | exact he.elim | trivial
  | enter u h f c => cases f <;> first | exact he.elim | trivial
  | leave u h f c ok => cases f <;> first | exact he.elim | trivial
  | _ => first | exact he.elim | trivial

section

variable (t : ThreadId)

attribute [local simp] Stmt.Only Event.NoQuery this load call access assign onResult Debug lockMutex
  unlockMutex bind_bind ite_bind all_lift_bind all_ite withHandle

lemma connect_noQuery (h : HandlerPtr) : (connect h).All (Stmt.Only t Event.NoQuery) := by
  simp [connect]

lemma disconnect_noQuery (h : HandlerPtr) : (disconnect h).All (Stmt.Only t Event.NoQuery) := by
  simp [disconnect, closeConnection, clearQueue]

lemma body_noQuery {n : NativeCall} (hn : n.query = none) :
    (Natives.body n).All (Stmt.Only t Event.NoQuery) := by
  cases n with
  | mysql_query => cases hn
  | mysql_query_callback => cases hn
  | mysql_connect =>
    exact nMysqlConnect_only t (fun _ => trivial) (connect_noQuery t) (fun _ => trivial)
      fun _ => trivial
  | mysql_reconnect c =>
    refine withHandle_only t c fun h => (disconnect_noQuery t h).bind fun _ => ⟨by simp, fun _ => ?_⟩
    exact (connect_noQuery t h).bind fun _ => trivial
  | mysql_close c =>
    simp [Natives.body, Natives.nMysqlClose, clearQueue, destruct, freeResult, disconnect,
      closeConnection]
  | mysql_ping c => simp [Natives.body, Natives.nMysqlPing, ping]
  | _ => exact all_only_mono (body_quiet t (by trivial)) fun _ => Event.Quiet.noQuery

end

/-! ### The worker -/

/-- The assignments of a visit of the worker. -/
def Assign.OfVisit : Assign → Prop
  | .m_bNonThreadedQuery _ | .m_dwFields _ | .queueData_push _ | .queueData_popAll | .callbackData_pop
  | .errorCallback_pop | .Delimiter _ | .m_szResult _ | .m_cSStream_insert _ | .m_cSStream_getline
  | .m_cSStream_extract | .m_cSStream_clear | .m_stRow _ | .m_stField _ => False
  | .m_bIsConnected _ | .m_bQueryProcessing _ | .m_dwError _ | .queueData_pop | .callbackData_push _
  | .errorCallback_push _ | .m_stConnectionPtr _ | .m_stResult _ => True

/-- The call does not close the connection. -/
def LibCall.Open : LibCall → Prop
  | .mysql_close => False
  | _ => True

/-- The events of a visit of the worker. -/
def Event.OfVisit : Event → Prop
  | .visit _ | .mark (.visitEnd _) | .init _ _ _ | .access _ _ _ _ | .onResult _ _ _ => True
  | .enter _ _ f _ => f.Open
  | .leave _ _ f _ _ => f.Open
  | .assign _ _ a => a.OfVisit
  | _ => False

/-- The reconnection of the worker up to its call of `Connect`. -/
def dropPending (h : HandlerPtr) : Code Unit := do
  assign h (.m_bIsConnected false)
  let r ← call h .mysql_store_result
  assign h (.m_stResult r)
  if r ≠ none then do
    onResult r .mysql_free_result
    assign h (.m_stResult none)
  else
    pure ()

lemma reconnectInBackground_eq (h : HandlerPtr) :
    reconnectInBackground h = (dropPending h >>= fun _ => connect h >>= fun _ => pure ()) := by
  simp only [reconnectInBackground, dropPending, bind_bind]

section

variable (t : ThreadId)

attribute [local simp] Stmt.Only Event.OfVisit Assign.OfVisit LibCall.Open this call access assign
  onResult bind_bind ite_bind all_lift_bind all_ite

lemma executeFront_ofVisit (h : HandlerPtr) : (executeFront h).All (Stmt.Only t Event.OfVisit) := by
  simp only [executeFront, this, all_lift_bind]
  refine ⟨trivial, fun x => ?_⟩
  cases x.queueData with
  | nil => trivial
  | cons q qs => simp [front, queryFailed]

lemma reconnectInBackground_ofVisit (h : HandlerPtr) :
    (reconnectInBackground h).All (Stmt.Only t Event.OfVisit) := by
  simp [reconnectInBackground, connect]

lemma workerVisit_ofVisit (i : Nat) : (workerVisit i).All (Stmt.Only t Event.OfVisit) := by
  simp only [workerVisit, call, all_lift_bind, all_ite, bind_bind, ite_bind]
  refine ⟨trivial, fun h => ⟨trivial, fun v => ⟨fun _ => ⟨by simp, fun c => ⟨by simp, fun ok =>
    ⟨fun _ => ?_, fun _ => ?_⟩⟩⟩, fun _ => trivial⟩⟩⟩
  · exact (executeFront_ofVisit t h).bind fun _ => by simp
  · exact (reconnectInBackground_ofVisit t h).bind fun _ => by simp

end

end MySQLPlugin

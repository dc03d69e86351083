import MySQLPlugin.Threads.Protocol
import MySQLPlugin.Logic.Footprint

/-!
# Where connection objects come from

A call of libmysql ends on the connection object on which it has begun, and a handler gets the
connection object that `mysql_init` has just returned for it. In the programs of the plugin the one
statement directly follows the other.
-/

namespace MySQLPlugin

open Threads Prog CMySQLHandler Natives

/-- What the last statement of a program has been, as far as connection objects go. -/
inductive Last where
  | other
  | inited (h : HandlerPtr) (o : Option ConnPtr)
  | entered (h : HandlerPtr) (f : LibCall) (c : ConnPtr)

def Assign.AllowedAfter (g : Last) (h : HandlerPtr) : Assign → Prop
  | .m_stConnectionPtr o => o = none ∨ g = .inited h o
  | _ => True

/-- A call ends where it has begun, and a pointer comes from `mysql_init`. -/
def Stmt.AllowedAfter (g : Last) {β : Type} : Stmt β → Prop
  | .leave h c f => g = .entered h f c
  | .assign h a => a.AllowedAfter g h
  | .lockMutex | .unlockMutex | .size | .table | .at _ | .pushBack _ | .erase _ | .new .. | .delete _
  | .this _ | .load _ _ | .guard _ | .mysql_init _ | .enter _ _ | .access _ _ | .onResult _ _
  | .fieldName _ _ | .rowValue _ _ | .free _ | .setDebugging _ | .Debug _ _ | .scripts | .exec _ _
  | .setString _ _ | .setFloat _ _ | .amxLoad _ | .amxUnload _ | .mark _ => True

/-- What the next statement may use of this one. -/
def Stmt.hands {β : Type} : Stmt β → β → Last
  | .mysql_init h, o => .inited h o
  | .enter h f, c => .entered h f c
  | .lockMutex, _ | .unlockMutex, _ | .size, _ | .table, _ | .at _, _ | .pushBack _, _ | .erase _, _
  | .new .., _ | .delete _, _ | .this _, _ | .load _ _, _ | .assign _ _, _ | .guard _, _
  | .leave _ _ _, _ | .access _ _, _ | .onResult _ _, _ | .fieldName _ _, _ | .rowValue _ _, _
  | .free _, _ | .setDebugging _, _ | .Debug _ _, _ | .scripts, _ | .exec _ _, _ | .setString _ _, _
  | .setFloat _ _, _ | .amxLoad _, _ | .amxUnload _, _ | .mark _, _ => .other

/-- Calls end where they have begun, and pointers come from `mysql_init`. -/
def wiring : Protocol Stmt Last where
  allows g a := a.AllowedAfter g
  after _ a b := a.hands b

@[simp] lemma wiring_allows (g : Last) {β : Type} (a : Stmt β) :
    wiring.allows g a = a.AllowedAfter g := rfl

@[simp] lemma wiring_after (g : Last) {β : Type} (a : Stmt β) (b : β) :
    wiring.after g a b = a.hands b := rfl

/-- The program is wired, whatever has been before it. -/
abbrev Wired {α : Type} (p : Code α) : Prop := ∀ g, p.Follows wiring g

section

variable {α β : Type} {g : Last}

attribute [local simp] Stmt.AllowedAfter Assign.AllowedAfter Stmt.hands this load access onResult
  assign lockMutex unlockMutex setString bind_bind ite_bind follows_lift_bind follows_ite

lemma follows_call (h : HandlerPtr) (f : LibCall) (k : f.Ret → Code α) :
    (call h f >>= k).Follows wiring g ↔ ∀ v, (k v).Follows wiring .other := by
  simp only [call, bind_bind, follows_lift_bind, wiring_allows,
    wiring_after, Stmt.AllowedAfter, Stmt.hands, true_and]
  exact ⟨fun h v => h 0 v, fun h _ v => h v⟩

lemma Wired.bind {p : Code α} {f : α → Code β} (hp : Wired p) (hf : ∀ x, Wired (f x)) :
    Wired (p >>= f) := fun g => (hp g).bind hf

attribute [local simp] call

lemma connect_wired (h : HandlerPtr) : Wired (connect h) := by
  intro g
  simp [connect]

lemma clearQueue_wired (h : HandlerPtr) : Wired (clearQueue h) := by
  intro g
  simp [clearQueue]

lemma disconnect_wired (h : HandlerPtr) : Wired (disconnect h) := by
  intro g
  simp [disconnect, closeConnection, clearQueue]

lemma freeResult_wired (h : HandlerPtr) : Wired (freeResult h) := by
  intro g
  simp [freeResult]

lemma insertValue_wired (h : HandlerPtr) (i : Nat) : Wired (insertValue h i) := by
  intro g
  simp [insertValue]

lemma nextRow_wired (h : HandlerPtr) : Wired (nextRow h) := by
  intro g
  simp [nextRow]

lemma rowText_wired (h : HandlerPtr) : Wired (CMySQLHandler.rowText h) := by
  intro g
  simp only [CMySQLHandler.rowText, load, follows_lift_bind]
  refine ⟨trivial, fun n => Follows.bind (.forEach _ fun i g => ?_) fun _ _ => by simp⟩
  exact (insertValue_wired h i g).bind fun _ _ => by simp

lemma fetchRow_wired (h : HandlerPtr) : Wired (fetchRow h) := by
  intro g
  simp only [fetchRow, this, load, follows_lift_bind, follows_ite]
  refine ⟨trivial, fun x => ⟨fun _ => trivial, fun _ => ⟨trivial, fun r => ⟨fun _ => trivial,
    fun _ => (nextRow_wired h _).bind fun row g => ?_⟩⟩⟩⟩
  rw [follows_ite]
  exact ⟨fun _ => rowText_wired h g, fun _ => by simp⟩

lemma insertField_wired (h : HandlerPtr) (column : CString) (is : List Nat) :
    Wired (insertField h column is) := by
  induction is with
  | nil => exact fun _ => trivial
  | cons i is ih =>
    intro g
    simp only [insertField, load, follows_lift_bind, follows_ite]
    exact ⟨trivial, fun f => ⟨trivial, fun name => ⟨fun _ => insertValue_wired h i _, fun _ => ih _⟩⟩⟩

lemma fetchField_wired (h : HandlerPtr) (column : CString) : Wired (fetchField h column) := by
  intro g
  simp only [fetchField, this, load, follows_lift_bind, follows_ite]
  refine ⟨trivial, fun x => ⟨fun _ => trivial, fun _ => ⟨trivial, fun f => ⟨fun _ => trivial,
    fun _ => ⟨trivial, fun r => ⟨fun _ => trivial, fun _ => ⟨trivial, fun n => ?_⟩⟩⟩⟩⟩⟩⟩
  exact (insertField_wired h column _ _).bind fun _ _ => by simp

lemma statistics_wired (h : HandlerPtr) : Wired (statistics h) := by
  intro g
  simp only [statistics, this, follows_lift_bind, follows_ite]
  refine ⟨trivial, fun x => ⟨fun _ => trivial, fun _ => (follows_call h _ _).mpr fun text => ?_⟩⟩
  cases text <;> trivial

lemma withHandle_wired (c : Cell) {f : HandlerPtr → Code Cell} (hf : ∀ h, Wired (f h)) :
    Wired (withHandle c f) := by
  intro g
  simp only [withHandle, follows_lift_bind, follows_ite]
  exact ⟨trivial, fun n => ⟨fun _ => trivial, fun _ => ⟨trivial, fun h => hf h _⟩⟩⟩

lemma reuse_wired (host user db pass : CString) (port : Cell) (hs : List HandlerPtr) (i : Nat) :
    Wired (reuse host user db pass port hs i) := by
  induction hs generalizing i with
  | nil => exact fun _ => trivial
  | cons h hs ih =>
    intro g
    simp only [reuse, this, assign, follows_lift_bind, follows_ite]
    refine ⟨trivial, fun x => ⟨fun _ => ⟨trivial, fun _ => ?_⟩, fun _ => ih (i + 1) _⟩⟩
    exact (connect_wired h _).bind fun _ _ => trivial

lemma append_wired (host user db pass : CString) (port : Cell) :
    Wired (append host user db pass port) := by
  intro g
  simp only [append, construct, bind_bind, follows_lift_bind]
  exact ⟨trivial, fun h => (connect_wired h _).bind fun _ _ => ⟨trivial, fun _ => ⟨trivial, fun _ => trivial⟩⟩⟩

lemma nMysqlConnect_wired (host user db pass : CString) (port : Cell) :
    Wired (nMysqlConnect host user db pass port) := by
  intro g
  simp only [nMysqlConnect, follows_lift_bind, follows_ite]
  refine ⟨trivial, fun n => ⟨fun _ => ⟨trivial, fun hs => ?_⟩, fun _ => append_wired host user db pass port _⟩⟩
  refine (reuse_wired host user db pass port hs 0 _).bind fun i g => ?_
  cases i with
  | none => exact append_wired host user db pass port g
  | some i => trivial

lemma nMysqlClose_wired (c : Cell) : Wired (nMysqlClose c) := by
  intro g
  simp only [nMysqlClose, lockMutex, unlockMutex, follows_lift_bind, follows_ite, destruct, bind_bind]
  refine ⟨trivial, fun n => ⟨fun _ => trivial, fun _ => ⟨trivial, fun _ => ⟨trivial, fun h => ?_⟩⟩⟩⟩
  refine (clearQueue_wired h _).bind fun _ g => ⟨trivial, fun h => ?_⟩
  refine (freeResult_wired h _).bind fun _ g => (disconnect_wired h g).bind fun _ g => ?_
  exact ⟨trivial, fun _ => ⟨trivial, fun _ => ⟨trivial, fun _ => trivial⟩⟩⟩

/-- The bodies of the natives are wired. -/
lemma body_wired (n : NativeCall) : Wired (body n) := by
  cases n with
  | mysql_connect host user db pass port => exact nMysqlConnect_wired host user db pass port
  | mysql_close c => exact nMysqlClose_wired c
  | mysql_reconnect c =>
    refine withHandle_wired c fun h => (disconnect_wired h).bind fun _ g => ⟨trivial, fun _ => ?_⟩
    exact (connect_wired h _).bind fun _ _ => trivial
  | mysql_fetch_row_format _ _ c =>
    refine withHandle_wired c fun h g => ⟨trivial, fun _ => ?_⟩
    exact (fetchRow_wired h _).bind fun r _ => by simp
  | mysql_fetch_field_row _ _ c =>
    exact withHandle_wired c fun h g => (fetchField_wired h _ g).bind fun _ _ => by simp
  | mysql_retrieve_row c =>
    refine withHandle_wired c fun h g => ?_
    simp only [retrieveRow, this, load, follows_lift_bind, follows_ite]
    exact ⟨trivial, fun x => ⟨fun _ => trivial, fun _ => ⟨trivial, fun r => ⟨fun _ => trivial,
      fun _ => (nextRow_wired h _).bind fun row _ => by simp⟩⟩⟩⟩
  | mysql_stat _ c =>
    exact withHandle_wired c fun h g => (statistics_wired h g).bind fun _ _ => by simp
  | mysql_fetch_int c =>
    refine withHandle_wired c fun h g => ⟨trivial, fun _ => ?_⟩
    exact (fetchRow_wired h _).bind fun r _ => by simp
  | mysql_fetch_float _ c =>
    refine withHandle_wired c fun h g => ⟨trivial, fun _ => ?_⟩
    exact (fetchRow_wired h _).bind fun r _ => by simp
  | mysql_debug => exact fun _ => ⟨trivial, fun _ => trivial⟩
  | _ =>
    refine withHandle_wired _ fun h g => ?_
    simp [oldQuery, enqueue, nonThreadedQuery, CMySQLHandler.query, setCharset, getCharset, insertId,
      freeResult, storeResult, escapeStr, Debug, fieldCount, reload, ping, numRows, numFields, affectedRows,
      warningCount, fetchFieldName]

/-- The natives are wired. -/
lemma native_wired (n : NativeCall) : Wired (native n) := fun _ =>
  ⟨trivial, fun _ => (body_wired n _).bind fun _ _ => ⟨trivial, fun _ => trivial⟩⟩

/-- What a native does with the handler at the position of its handle follows the same wiring. -/
lemma follows_of_withHandle {c : Cell} {f : HandlerPtr → Code Cell} (hf : Wired (withHandle c f))
    (h : HandlerPtr) : (f h).Follows wiring .other := by
  have hentry := hf .other
  simp only [withHandle, follows_lift_bind, follows_ite] at hentry
  exact ((hentry.2 ((c - 1).toNat + 1)).2 (Nat.not_succ_le_self _)).2 h

/-! ### The worker -/

lemma executeFront_wired (h : HandlerPtr) : Wired (executeFront h) := by
  intro g
  simp only [executeFront, this, follows_lift_bind]
  refine ⟨trivial, fun x => ?_⟩
  cases x.queueData with
  | nil => trivial
  | cons q qs => simp [front, queryFailed]

lemma reconnectInBackground_wired (h : HandlerPtr) : Wired (reconnectInBackground h) := by
  intro g
  simp [reconnectInBackground, connect]

lemma workerVisit_wired (i : Nat) : Wired (workerVisit i) := by
  intro g
  simp only [workerVisit, follows_lift_bind, follows_ite, ite_bind]
  refine ⟨trivial, fun h => ⟨trivial, fun v => ⟨fun _ => (follows_call h _ _).mpr fun ok => ?_,
    fun _ => trivial⟩⟩⟩
  refine (follows_ite _ _).mpr ⟨fun _ => ?_, fun _ => ?_⟩
  · exact (executeFront_wired h _).bind fun _ _ => by simp
  · exact (reconnectInBackground_wired h _).bind fun _ _ => by simp

end

end MySQLPlugin

import MySQLPlugin.Dispatch.Positions
import MySQLPlugin.Model.Main

/-!
# The state as a history

A statement leaves at most one event in the trace, and the event says everything that the statement
did to the table, to the handlers and to the connections. What holds of all runs of a program can
thus be read off the events that its statements may leave.
-/

namespace MySQLPlugin

open Threads Dispatch

/-! ### What an event does -/

namespace Event

/-- The thread that an event belongs to, if it is recorded. -/
def By (t : ThreadId) : Event → Prop
  | .lock u | .relock u | .unlock u | .unset u _ _ | .assign u _ _ | .init u _ _ | .enter u _ _ _
  | .leave u _ _ _ _ | .access u _ _ _ | .onResult u _ _ => u = t
  | _ => True

/-- The change of `SQLHandle`. -/
def edit : Event → Option (Edit HandlerPtr)
  | .pushBack h => some (.push h)
  | .erase i _ => some (.erase i)
  | _ => none

def onTable (e : Event) (T : List HandlerPtr) : List HandlerPtr :=
  Edit.run T e.edit.toList

/-- The change of the object at `p`. -/
def onObject (p : HandlerPtr) : Event → Option CMySQLHandler → Option CMySQLHandler
  | .new h host user passw db port, x =>
    if p = h then
      some { m_Hostname := host, m_Username := user, m_Password := passw, m_Database := db
             m_Port := port }
    else x
  | .delete h, x => if p = h then none else x
  | .assign _ h a, x => if p = h then x.map a.apply else x
  | _, x => x

def onNextHandler : Event → HandlerPtr → HandlerPtr
  | .new _ _ _ _ _ _, n => n + 1
  | _, n => n

def onScripts : Event → List Amx → List Amx
  | .amxLoad a, l => l ++ [a]
  | .amxUnload a, l => l.erase a
  | _, l => l

/-- The flag of the log. -/
def onDebugging : Event → Bool → Bool
  | .setDebugging v, _ => v
  | _, v => v

def onMutex : Event → Option (ThreadId × Nat) → Option (ThreadId × Nat)
  | .lock t, _ => some (t, 1)
  | .unlock t, some (u, n) =>
    if u = t then if n ≤ 1 then none else some (t, n - 1) else some (u, n)
  | _, m => m

def onInCall : Event → (ThreadId → Option ConnPtr) → ThreadId → Option ConnPtr
  | .enter t _ _ (some c), f => Function.update f t (some c)
  | .leave t _ _ _ _, f => Function.update f t none
  | _, f => f

def onNextConn : Event → Nat → Nat
  | .init _ _ (some _), n => n + 1
  | _, n => n

/-- Whether `mysql_close` has been called on `c`. -/
def onClosed (c : ConnPtr) : Event → Bool → Bool
  | .init _ _ (some d), x => if c = d then false else x
  | .enter _ _ .mysql_close (some d), x => if c = d then true else x
  | _, x => x

/-- The last statement executed on `c`, when the event is at position `now`. -/
def onLast (now : Nat) (c : ConnPtr) : Event → Option Nat → Option Nat
  | .init _ _ (some d), x => if c = d then none else x
  | .leave _ _ (.mysql_real_query _) d true, x => if c = d then some now else x
  | _, x => x

/-- The event leaves the result sets as they are, alive or freed. -/
def KeepsResults : Event → Prop
  | .leave _ _ .mysql_store_result _ _ | .onResult _ _ .mysql_free_result => False
  | _ => True

/-- What is known of a state in which the event occurs. -/
def OccursIn (s : State) : Event → Prop
  | .erase i h => s.SQLHandle[i]? = some h
  | .new h _ _ _ _ _ => h = s.nextHandler ∧ s.SQLHandle.length < maxHandlers
  | .assign _ h a => ∃ x, s.heap h = some x ∧ a.defined x
  | .init _ _ (some c) => c = s.lib.nextConn
  | .enter _ h _ c | .access _ h _ c => ∃ x, s.heap h = some x ∧ x.m_stConnectionPtr = c
  | .lock _ => s.mutex = none
  | .relock t => ∃ n, s.mutex = some (t, n)
  | .visit h => ∃ x, s.heap h = some x ∧ x.ready
  | _ => True

end Event

/-- The step from `s` to `s'` by thread `t` leaves the event `e`. -/
structure Effect (t : ThreadId) (e : Event) (s s' : State) : Prop where
  trace : s'.trace = s.trace ++ [e]
  by_ : e.By t
  occurs : e.OccursIn s
  table : s'.SQLHandle = e.onTable s.SQLHandle
  heap : ∀ h, s'.heap h = e.onObject h (s.heap h)
  nextHandler : s'.nextHandler = e.onNextHandler s.nextHandler
  p_Amx : s'.p_Amx = e.onScripts s.p_Amx
  Debugging : s'.Debugging = e.onDebugging s.Debugging
  mutex : e ≠ .relock t → s'.mutex = e.onMutex s.mutex
  inCall : s'.inCall = e.onInCall s.inCall
  nextConn : s'.lib.nextConn = e.onNextConn s.lib.nextConn
  closed : ∀ c, (s'.lib.conn c).closed = e.onClosed c (s.lib.conn c).closed
  last : ∀ c, (s'.lib.conn c).last = e.onLast s.trace.length c (s.lib.conn c).last
  results : e.KeepsResults → s'.lib.nextRes = s.lib.nextRes ∧
    ∀ p, (s'.lib.live p).isSome = (s.lib.live p).isSome

/-! ### The events of a statement -/

/-- Every event that the statement may leave when thread `t` executes it satisfies `P`. -/
def Stmt.Only (t : ThreadId) (P : Event → Prop) {β : Type} : Stmt β → Prop
  | .lockMutex => P (.lock t) ∧ P (.relock t)
  | .unlockMutex => P (.unlock t)
  | .pushBack h => P (.pushBack h)
  | .erase i => ∀ h, P (.erase i h)
  | .new host user passw db port => ∀ h, P (.new h host user passw db port)
  | .delete h => P (.delete h)
  | .load h m => P (.unset t h m)
  | .assign h a => P (.assign t h a)
  | .guard h => P (.visit h)
  | .mysql_init h => ∀ c, P (.init t h c)
  | .enter h f => ∀ c, P (.enter t h f c)
  | .leave h c f => ∀ ok, P (.leave t h f c ok)
  | .access h f => ∀ c, P (.access t h f c)
  | .onResult r f => P (.onResult t r f)
  | .free f => P (.free f)
  | .setDebugging b => P (.setDebugging b)
  | .exec a p => P (.exec a p)
  | .setString dest str => P (.setString dest str)
  | .setFloat dest x => P (.setFloat dest x)
  | .amxLoad a => P (.amxLoad a)
  | .amxUnload a => P (.amxUnload a)
  | .mark m => P (.mark m)
  | .size | .table | .at _ | .this _ | .fieldName _ _ | .rowValue _ _ | .Debug _ _ | .scripts => True

lemma Stmt.Only.mono {t : ThreadId} {P Q : Event → Prop} {β : Type} {a : Stmt β}
    (ha : a.Only t P) (h : ∀ e, P e → Q e) : a.Only t Q := by
  cases a with
  | lockMutex => exact ⟨h _ ha.1, h _ ha.2⟩
  | erase i => exact fun p => h _ (ha p)
  | new => exact fun p => h _ (ha p)
  | mysql_init p => exact fun c => h _ (ha c)
  | enter p f => exact fun c => h _ (ha c)
  | leave p c f => exact fun ok => h _ (ha ok)
  | access p f => exact fun c => h _ (ha c)
  | _ => first | trivial | exact h _ ha

lemma Stmt.Only.and {t : ThreadId} {P Q : Event → Prop} {β : Type} {a : Stmt β} (hP : a.Only t P)
    (hQ : a.Only t Q) : a.Only t fun e => P e ∧ Q e := by
  cases a with
  | lockMutex => exact ⟨⟨hP.1, hQ.1⟩, hP.2, hQ.2⟩
  | erase i => exact fun p => ⟨hP p, hQ p⟩
  | new => exact fun p => ⟨hP p, hQ p⟩
  | mysql_init p => exact fun c => ⟨hP c, hQ c⟩
  | enter p f => exact fun c => ⟨hP c, hQ c⟩
  | leave p c f => exact fun ok => ⟨hP ok, hQ ok⟩
  | access p f => exact fun c => ⟨hP c, hQ c⟩
  | _ => trivial

/-! ### The effect of a statement -/

lemma Connection.report_closed (x : Connection) (r : Reply) : (x.report r).closed = x.closed := by
  unfold Connection.report
  split_ifs <;> rfl

lemma Connection.report_last (x : Connection) (r : Reply) : (x.report r).last = x.last := by
  unfold Connection.report
  split_ifs <;> rfl

lemma Libmysql.modifyConn_closed (l : Libmysql) (c d : ConnPtr) {f : Connection → Connection}
    (hf : ∀ x, (f x).closed = x.closed) : ((l.modifyConn c f).conn d).closed = (l.conn d).closed := by
  by_cases h : d = c
  · simp [h, hf]
  · simp [Libmysql.modifyConn_of_ne l f h]

lemma Libmysql.modifyConn_last (l : Libmysql) (c d : ConnPtr) {f : Connection → Connection}
    (hf : ∀ x, (f x).last = x.last) : ((l.modifyConn c f).conn d).last = (l.conn d).last := by
  by_cases h : d = c
  · simp [h, hf]
  · simp [Libmysql.modifyConn_of_ne l f h]

@[simp] lemma Libmysql.newResult_conn (l : Libmysql) (set : ResultSet) :
    (l.newResult set).conn = l.conn := rfl

/-- The end of a call closes no connection. -/
lemma Libmysql.answer_closed (l : Libmysql) (c d : ConnPtr) (now : Nat) (r : Reply) (f : LibCall) :
    ((l.answer c now r f).2.conn d).closed = (l.conn d).closed := by
  cases f with
  | mysql_real_connect => exact l.modifyConn_closed c d (·.report_closed r)
  | mysql_ping => exact l.modifyConn_closed c d (·.report_closed r)
  | mysql_real_query q =>
    simp only [Libmysql.answer]
    split_ifs
    · exact l.modifyConn_closed c d (f := fun x => { x.report r with last := _, pending := _ })
        (·.report_closed r)
    · exact l.modifyConn_closed c d (·.report_closed r)
  | mysql_store_result =>
    simp only [Libmysql.answer]
    split
    · exact l.modifyConn_closed c d (f := fun x => { x with pending := none }) fun _ => rfl
    · exact l.modifyConn_closed c d (f := fun x => { x with pending := none }) fun _ => rfl
  | _ => rfl

/-- Only a query that succeeds is the last statement of its connection afterwards. -/
lemma Libmysql.answer_last (l : Libmysql) (c d : ConnPtr) (now : Nat) (r : Reply) (f : LibCall)
    (t : ThreadId) (h : HandlerPtr) :
    ((l.answer c now r f).2.conn d).last
      = (Event.leave t h f c r.ok).onLast now d (l.conn d).last := by
  cases f with
  | mysql_real_connect => exact l.modifyConn_last c d (·.report_last r)
  | mysql_ping => exact l.modifyConn_last c d (·.report_last r)
  | mysql_real_query q =>
    cases hr : r.ok with
    | true =>
      simp only [Libmysql.answer, hr, if_true, Event.onLast]
      split_ifs with hd
      · simp [hd]
      · simp [Libmysql.modifyConn_of_ne l _ hd]
    | false =>
      simp only [Libmysql.answer, hr, Bool.false_eq_true, if_false, Event.onLast]
      exact l.modifyConn_last c d (·.report_last r)
  | mysql_store_result =>
    simp only [Libmysql.answer]
    split
    · exact l.modifyConn_last c d (f := fun x => { x with pending := none }) fun _ => rfl
    · exact l.modifyConn_last c d (f := fun x => { x with pending := none }) fun _ => rfl
  | _ => rfl

lemma Libmysql.answer_nextConn (l : Libmysql) (c : ConnPtr) (now : Nat) (r : Reply) (f : LibCall) :
    (l.answer c now r f).2.nextConn = l.nextConn := by
  cases f with
  | mysql_real_query q =>
    simp only [Libmysql.answer]
    split_ifs <;> rfl
  | mysql_store_result =>
    simp only [Libmysql.answer]
    split <;> rfl
  | _ => rfl

lemma Libmysql.onResult_conn (l : Libmysql) (p : ResPtr) (x : StoredResult) (f : ResCall) :
    (l.onResult p x f).2.conn = l.conn ∧ (l.onResult p x f).2.nextConn = l.nextConn := by
  cases f with
  | mysql_fetch_row =>
    simp only [Libmysql.onResult]
    split_ifs <;> exact ⟨rfl, rfl⟩
  | _ => exact ⟨rfl, rfl⟩

@[simp] lemma Libmysql.live_modifyConn (l : Libmysql) (c : ConnPtr) (f : Connection → Connection)
    (q : ResPtr) : (l.modifyConn c f).live q = l.live q := rfl

@[simp] lemma Libmysql.modifyConn_nextRes (l : Libmysql) (c : ConnPtr)
    (f : Connection → Connection) : (l.modifyConn c f).nextRes = l.nextRes := rfl

lemma Libmysql.live_newResult (l : Libmysql) (set : ResultSet) (q : ResPtr) :
    (l.newResult set).live q = if q = l.nextRes then some { set } else l.live q := by
  by_cases hq : q = l.nextRes
  · subst hq
    simp [live, newResult]
  · simp [live, newResult, hq]

lemma Libmysql.live_setResult (l : Libmysql) (p : ResPtr) (x : StoredResult) (q : ResPtr) :
    (l.setResult p x).live q = if q = p then (if x.freed then none else some x) else l.live q := by
  by_cases hq : q = p
  · subst hq
    cases hx : x.freed <;> simp [live, setResult, hx]
  · simp [live, setResult, hq]

/-- Only `mysql_store_result` ends with another result set. -/
lemma Libmysql.answer_results (l : Libmysql) (c : ConnPtr) (now : Nat) (r : Reply) {f : LibCall}
    (hf : f ≠ .mysql_store_result) : (l.answer c now r f).2.nextRes = l.nextRes ∧
      ∀ q, ((l.answer c now r f).2.live q).isSome = (l.live q).isSome := by
  cases f with
  | mysql_store_result => exact absurd rfl hf
  | mysql_real_query q =>
    simp only [Libmysql.answer]
    split_ifs <;> exact ⟨rfl, fun _ => rfl⟩
  | _ => exact ⟨rfl, fun _ => rfl⟩

/-- Only `mysql_free_result` ends the life of a result set. -/
lemma Libmysql.onResult_results (l : Libmysql) {p : ResPtr} {x : StoredResult}
    (hx : l.live p = some x) {f : ResCall} (hf : f ≠ .mysql_free_result) :
    (l.onResult p x f).2.nextRes = l.nextRes ∧
      ∀ q, ((l.onResult p x f).2.live q).isSome = (l.live q).isSome := by
  cases f with
  | mysql_free_result => exact absurd rfl hf
  | mysql_fetch_row =>
    simp only [Libmysql.onResult]
    split_ifs
    · refine ⟨rfl, fun q => ?_⟩
      have hfreed : x.freed = false := by simpa using (Option.filter_eq_some_iff.mp hx).2
      by_cases hq : q = p <;> simp [live_setResult, hfreed, hq, hx]
    · exact ⟨rfl, fun _ => rfl⟩
  | _ => exact ⟨rfl, fun _ => rfl⟩

/-- The event changes nothing but the trace. -/
def Event.Reads : Event → Prop
  | .unset _ _ _ | .access _ _ _ _ | .enter _ _ _ none | .init _ _ none | .onResult _ _ _ | .free _
  | .exec _ _ | .setString _ _ | .setFloat _ _ | .visit _ | .mark _ => True
  | _ => False

lemma Effect.record {t : ThreadId} {e : Event} {s : State} (hr : e.Reads) (hby : e.By t)
    (hocc : e.OccursIn s) : Effect t e s (s.record e) := by
  cases e with
  | enter u h f c =>
    cases c with
    | none =>
      cases f <;> exact ⟨rfl, hby, hocc, rfl, fun _ => rfl, rfl, rfl, rfl, fun _ => rfl, rfl, rfl,
        fun _ => rfl, fun _ => rfl, fun _ => ⟨rfl, fun _ => rfl⟩⟩
    | some c => exact hr.elim
  | init u h c =>
    cases c with
    | none => exact ⟨rfl, hby, hocc, rfl, fun _ => rfl, rfl, rfl, rfl, fun _ => rfl, rfl, rfl,
        fun _ => rfl, fun _ => rfl, fun _ => ⟨rfl, fun _ => rfl⟩⟩
    | some c => exact hr.elim
  | _ => first
    | exact hr.elim
    | exact ⟨rfl, hby, hocc, rfl, fun _ => rfl, rfl, rfl, rfl, fun _ => rfl, rfl, rfl, fun _ => rfl,
        fun _ => rfl, fun _ => ⟨rfl, fun _ => rfl⟩⟩

/-- A statement leaves one of its events, which says what it did, or it changes nothing. -/
theorem Stmt.run_effect {β : Type} {a : Stmt β} {b : Build} {t : ThreadId} {r : Reply}
    {s s' : State} {o : Except Fault β} {P : Event → Prop} (ha : a.Only t P)
    (h : a.run b t r s = some (o, s')) : s' = s ∨ ∃ e, P e ∧ Effect t e s s' := by
  cases a with
  | lockMutex =>
    simp only [Stmt.run, Build.lock] at h
    split at h
    · rename_i hm
      cases h
      exact .inr ⟨.lock t, ha.1, rfl, rfl, hm, rfl, fun _ => rfl, rfl, rfl, rfl, fun _ => rfl, rfl, rfl,
        fun _ => rfl, fun _ => rfl, fun _ => ⟨rfl, fun _ => rfl⟩⟩
    · rename_i u n hm
      split_ifs at h with hu
      subst hu
      cases b with
      | win32 =>
        cases h
        exact .inr ⟨.relock u, ha.2, rfl, rfl, ⟨n, hm⟩, rfl, fun _ => rfl, rfl, rfl, rfl,
          fun hne => absurd rfl hne, rfl, rfl, fun _ => rfl, fun _ => rfl, fun _ => ⟨rfl, fun _ => rfl⟩⟩
      | pthread =>
        cases h
        exact .inr ⟨.relock u, ha.2, rfl, rfl, ⟨n, hm⟩, rfl, fun _ => rfl, rfl, rfl, rfl,
          fun hne => absurd rfl hne, rfl, rfl, fun _ => rfl, fun _ => rfl, fun _ => ⟨rfl, fun _ => rfl⟩⟩
  | unlockMutex =>
    cases h
    refine .inr ⟨.unlock t, ha, ?_⟩
    unfold unlock
    split
    · rename_i u n hm
      split_ifs with hu hn
      · exact ⟨rfl, rfl, trivial, rfl, fun _ => rfl, rfl, rfl, rfl,
          fun _ => by simp [Event.onMutex, hm, hu, hn], rfl, rfl, fun _ => rfl, fun _ => rfl,
          fun _ => ⟨rfl, fun _ => rfl⟩⟩
      · exact ⟨rfl, rfl, trivial, rfl, fun _ => rfl, rfl, rfl, rfl,
          fun _ => by simp [Event.onMutex, hm, hu, hn], rfl, rfl, fun _ => rfl, fun _ => rfl,
          fun _ => ⟨rfl, fun _ => rfl⟩⟩
      · exact ⟨rfl, rfl, trivial, rfl, fun _ => rfl, rfl, rfl, rfl, fun _ => by simp [Event.onMutex, hm, hu],
          rfl, rfl, fun _ => rfl, fun _ => rfl, fun _ => ⟨rfl, fun _ => rfl⟩⟩
    · rename_i hm
      exact ⟨rfl, rfl, trivial, rfl, fun _ => rfl, rfl, rfl, rfl, fun _ => by simp [Event.onMutex, hm],
          rfl, rfl, fun _ => rfl, fun _ => rfl, fun _ => ⟨rfl, fun _ => rfl⟩⟩
  | size => cases h; exact .inl rfl
  | table => cases h; exact .inl rfl
  | «at» i =>
    simp only [Stmt.run] at h
    split at h <;> cases h <;> exact .inl rfl
  | pushBack p =>
    cases h
    exact .inr ⟨_, ha, rfl, trivial, trivial, rfl, fun _ => rfl, rfl, rfl, rfl, fun _ => rfl, rfl, rfl,
      fun _ => rfl, fun _ => rfl, fun _ => ⟨rfl, fun _ => rfl⟩⟩
  | erase i =>
    simp only [Stmt.run] at h
    split at h
    · rename_i p hp
      cases h
      exact .inr ⟨_, ha p, rfl, trivial, hp, rfl, fun _ => rfl, rfl, rfl, rfl, fun _ => rfl, rfl, rfl,
        fun _ => rfl, fun _ => rfl, fun _ => ⟨rfl, fun _ => rfl⟩⟩
    · cases h
      exact .inl rfl
  | new host user passw db port =>
    simp only [Stmt.run] at h
    split_ifs at h with hlen
    · cases h
      refine .inr ⟨_, ha _, rfl, trivial, ⟨rfl, hlen⟩, rfl, fun p => ?_, rfl, rfl, rfl, fun _ => rfl, rfl, rfl,
        fun _ => rfl, fun _ => rfl, fun _ => ⟨rfl, fun _ => rfl⟩⟩
      simp only [State.record_heap, State.setHandler, Event.onObject, Function.update_apply]
    · cases h
      exact .inl rfl
  | delete p =>
    cases h
    refine .inr ⟨_, ha, rfl, trivial, trivial, rfl, fun q => ?_, rfl, rfl, rfl, fun _ => rfl, rfl, rfl,
      fun _ => rfl, fun _ => rfl, fun _ => ⟨rfl, fun _ => rfl⟩⟩
    simp only [State.record_heap, Event.onObject, Function.update_apply]
  | this p =>
    simp only [Stmt.run] at h
    split at h <;> cases h <;> exact .inl rfl
  | load p m =>
    simp only [Stmt.run] at h
    split at h
    · split at h <;> cases h
      · exact .inl rfl
      · exact .inr ⟨_, ha, .record trivial rfl trivial⟩
    · cases h
      exact .inl rfl
  | assign p a =>
    simp only [Stmt.run] at h
    split at h
    · rename_i x hx
      split_ifs at h with hdef
      · cases h
        refine .inr ⟨_, ha, rfl, rfl, ⟨x, hx, hdef⟩, rfl, fun q => ?_, rfl, rfl, rfl, fun _ => rfl, rfl, rfl,
          fun _ => rfl, fun _ => rfl, fun _ => ⟨rfl, fun _ => rfl⟩⟩
        simp only [State.record_heap, State.setHandler, Event.onObject, Function.update_apply]
        split_ifs with hq
        · simp [hq, hx]
        · rfl
      · cases h
        exact .inl rfl
    · cases h
      exact .inl rfl
  | guard p =>
    simp only [Stmt.run] at h
    split at h
    · rename_i x hx
      split_ifs at h with hr
      · cases h
        exact .inr ⟨_, ha, .record trivial trivial ⟨x, hx, hr⟩⟩
      · cases h
        exact .inl rfl
    · cases h
      exact .inl rfl
  | mysql_init p =>
    simp only [Stmt.run] at h
    split_ifs at h
    · cases h
      refine .inr ⟨_, ha _, rfl, rfl, rfl, rfl, fun _ => rfl, rfl, rfl, rfl, fun _ => rfl, rfl, rfl,
        fun c => ?_, fun c => ?_, fun _ => ⟨rfl, fun _ => rfl⟩⟩
      · simp only [State.record_lib, Libmysql.newConn, Event.onClosed, Function.update_apply]
        split_ifs <;> rfl
      · simp only [State.record_lib, Libmysql.newConn, Event.onLast, Function.update_apply]
        split_ifs <;> rfl
    · cases h
      exact .inr ⟨_, ha _, .record trivial rfl trivial⟩
  | enter p f =>
    simp only [Stmt.run] at h
    split at h
    · rename_i x hx
      split at h
      · rename_i c hc
        cases h
        refine .inr ⟨_, ha _, rfl, rfl, ⟨x, hx, hc⟩, rfl, fun _ => rfl, rfl, rfl, rfl, fun _ => rfl, rfl,
          ?_, fun d => ?_, fun d => ?_, fun _ => ?_⟩
        · cases f <;> rfl
        · cases f with
          | mysql_close =>
            simp only [State.record_lib, State.setInCall_lib, Libmysql.begin, Event.onClosed]
            split_ifs with hd
            · simp [hd]
            · simp [Libmysql.modifyConn_of_ne _ _ hd]
          | _ => rfl
        · cases f with
          | mysql_close =>
            exact s.lib.modifyConn_last c d (f := fun x => { x with closed := true }) fun _ => rfl
          | _ => rfl
        · cases f <;> exact ⟨rfl, fun _ => rfl⟩
      · rename_i hc
        cases h
        exact .inr ⟨_, ha _, .record trivial rfl ⟨x, hx, hc⟩⟩
    · cases h
      exact .inl rfl
  | leave p c f =>
    cases h
    refine .inr ⟨_, ha _, rfl, rfl, trivial, rfl, fun _ => rfl, rfl, rfl, rfl, fun _ => rfl, rfl, ?_,
      fun d => ?_, fun d => ?_, fun hkeep => s.lib.answer_results c _ r (f := f) ?_⟩
    · exact s.lib.answer_nextConn c _ r f
    · exact s.lib.answer_closed c d _ r f
    · exact s.lib.answer_last c d _ r f t p
    · rintro rfl
      exact hkeep
  | access p f =>
    simp only [Stmt.run] at h
    split at h
    · rename_i x hx
      split at h
      · rename_i c hc
        cases h
        exact .inr ⟨_, ha _, .record trivial rfl ⟨x, hx, hc⟩⟩
      · rename_i hc
        cases h
        exact .inr ⟨_, ha _, .record trivial rfl ⟨x, hx, hc⟩⟩
    · cases h
      exact .inl rfl
  | onResult p f =>
    simp only [Stmt.run] at h
    split at h
    · cases h
      exact .inr ⟨_, ha, .record trivial rfl trivial⟩
    · rename_i p
      split at h
      · rename_i x hx
        have hc := s.lib.onResult_conn p x f
        cases h
        exact .inr ⟨_, ha, rfl, rfl, trivial, rfl, fun _ => rfl, rfl, rfl, rfl, fun _ => rfl, rfl, hc.2,
          fun d => by simp [hc.1, Event.onClosed], fun d => by simp [hc.1, Event.onLast],
          fun hkeep => s.lib.onResult_results hx (f := f) (by rintro rfl; exact hkeep)⟩
      · cases h
        exact .inr ⟨_, ha, .record trivial rfl trivial⟩
  | fieldName p i =>
    simp only [Stmt.run] at h
    split at h
    · cases h
      exact .inl rfl
    · split at h <;> cases h <;> exact .inl rfl
  | rowValue p i =>
    simp only [Stmt.run] at h
    split at h
    · cases h
      exact .inl rfl
    · split at h <;> cases h <;> exact .inl rfl
  | free p =>
    cases p with
    | none => cases h; exact .inr ⟨_, ha, .record trivial trivial trivial⟩
    | some p => cases h; exact .inr ⟨_, ha, .record trivial trivial trivial⟩
  | setDebugging v =>
    cases h
    exact .inr ⟨_, ha, rfl, trivial, trivial, rfl, fun _ => rfl, rfl, rfl, rfl, fun _ => rfl, rfl, rfl,
      fun _ => rfl, fun _ => rfl, fun _ => ⟨rfl, fun _ => rfl⟩⟩
  | Debug format args =>
    simp only [Stmt.run] at h
    split_ifs at h <;> cases h <;> exact .inl rfl
  | scripts => cases h; exact .inl rfl
  | exec a p => cases h; exact .inr ⟨_, ha, .record trivial trivial trivial⟩
  | setString dest str => cases h; exact .inr ⟨_, ha, .record trivial trivial trivial⟩
  | setFloat dest x => cases h; exact .inr ⟨_, ha, .record trivial trivial trivial⟩
  | amxLoad a =>
    cases h
    exact .inr ⟨_, ha, rfl, trivial, trivial, rfl, fun _ => rfl, rfl, rfl, rfl, fun _ => rfl, rfl, rfl,
      fun _ => rfl, fun _ => rfl, fun _ => ⟨rfl, fun _ => rfl⟩⟩
  | amxUnload a =>
    cases h
    exact .inr ⟨_, ha, rfl, trivial, trivial, rfl, fun _ => rfl, rfl, rfl, rfl, fun _ => rfl, rfl, rfl,
      fun _ => rfl, fun _ => rfl, fun _ => ⟨rfl, fun _ => rfl⟩⟩
  | mark m => cases h; exact .inr ⟨_, ha, .record trivial trivial trivial⟩

/-- A statement that leaves an event whenever it returns. -/
def Stmt.Records {β : Type} : Stmt β → Prop
  | .size | .table | .at _ | .this _ | .load _ _ | .guard _ | .fieldName _ _ | .rowValue _ _
  | .Debug _ _ | .scripts => False
  | _ => True

lemma unlock_trace (t : ThreadId) (s : State) : (unlock t s).trace = s.trace ++ [.unlock t] := by
  unfold unlock
  split
  · split_ifs <;> rfl
  · rfl

lemma Stmt.Records.length {β : Type} {a : Stmt β} (ha : a.Records) {b : Build} {t : ThreadId}
    {r : Reply} {s s' : State} {x : β} (h : a.run b t r s = some (.ok x, s')) :
    s'.trace.length = s.trace.length + 1 := by
  cases a with
  | lockMutex =>
    simp only [Stmt.run, Build.lock] at h
    split at h
    · cases h
      simp
    · split_ifs at h
      cases b <;> cases h
      simp
  | unlockMutex =>
    cases h
    simp [unlock_trace]
  | erase i =>
    simp only [Stmt.run] at h
    split at h <;> cases h
    simp
  | new =>
    simp only [Stmt.run] at h
    split_ifs at h <;> cases h
    simp
  | assign p a =>
    simp only [Stmt.run] at h
    split at h
    · split_ifs at h <;> cases h
      simp
    · cases h
  | mysql_init p =>
    simp only [Stmt.run] at h
    split_ifs at h <;> cases h <;> simp
  | enter p f =>
    simp only [Stmt.run] at h
    split at h
    · split at h <;> cases h
      simp
    · cases h
  | access p f =>
    simp only [Stmt.run] at h
    split at h
    · split at h <;> cases h
      simp
    · cases h
  | onResult p f =>
    simp only [Stmt.run] at h
    split at h
    · cases h
    · split at h <;> cases h
      simp
  | free p =>
    cases p <;> cases h
    simp
  | _ =>
    first
    | exact ha.elim
    | (cases h; simp)

/-- The event of a statement that returns. -/
lemma Stmt.Records.effect {β : Type} {a : Stmt β} (ha : a.Records) {b : Build} {t : ThreadId}
    {s s' : State} {x : β} {P : Event → Prop} (hP : a.Only t P)
    (hst : (plugin b).Step t a s (.ok x) s') : ∃ e, P e ∧ Effect t e s s' := by
  obtain ⟨r, _, hrun⟩ := hst
  rcases Stmt.run_effect hP hrun with rfl | heff
  · exact absurd (ha.length hrun) (Nat.ne_of_lt (Nat.lt_succ_self _))
  · exact heff

/-! ### Runs of any program -/

lemma all_only_true {t : ThreadId} {α : Type} (p : Code α) :
    p.All (Stmt.Only t fun _ => True) := by
  induction p with
  | ret x => trivial
  | fail e => trivial
  | act a k ih =>
    refine ⟨?_, ih⟩
    cases a <;> simp [Stmt.Only]

/-! ### What an event keeps -/

namespace Effect

variable {t : ThreadId} {e : Event} {s s' : State}

/-- An entry of the table keeps its position unless entries are erased. -/
lemma position (heff : Effect t e s s') (he : ∀ j p, e ≠ .erase j p) {i : Nat} {h : HandlerPtr}
    (hi : s.SQLHandle[i]? = some h) : s'.SQLHandle[i]? = some h := by
  rw [heff.table]
  cases e with
  | pushBack q =>
    obtain ⟨hlt, -⟩ := List.getElem?_eq_some_iff.mp hi
    exact (List.getElem?_append_left hlt).trans hi
  | erase j q => exact absurd rfl (he j q)
  | _ => exact hi

/-- An object changes by assignments to it only, as long as it lives. -/
lemma object (heff : Effect t e s s') {h : HandlerPtr} {x : CMySQLHandler}
    (hx : s.heap h = some x) (hlt : h < s.nextHandler) (hdel : e ≠ .delete h) :
    (∃ a, e = .assign t h a ∧ s'.heap h = some (a.apply x)) ∨ s'.heap h = some x := by
  rw [heff.heap h]
  cases e with
  | assign u q a =>
    obtain rfl : u = t := heff.by_
    by_cases hq : h = q
    · subst hq
      exact .inl ⟨a, rfl, by simp [Event.onObject, hx]⟩
    · exact .inr (by simp [Event.onObject, hq, hx])
  | new q =>
    have hq : q = s.nextHandler := heff.occurs.1
    refine .inr ?_
    rw [Event.onObject, if_neg (Nat.ne_of_lt (hq ▸ hlt)), hx]
  | delete q =>
    refine .inr ?_
    rw [Event.onObject, if_neg (fun hq => hdel (by rw [hq])), hx]
  | _ => exact .inr hx

/-- The object of an assignment, before and after it. -/
lemma assigned {h : HandlerPtr} {a : Assign} (heff : Effect t (.assign t h a) s s') :
    ∃ x, s.heap h = some x ∧ s'.heap h = some (a.apply x) := by
  obtain ⟨x, hx, -⟩ := heff.occurs
  refine ⟨x, hx, ?_⟩
  rw [heff.heap h, hx, Event.onObject, if_pos rfl]
  rfl

end Effect

/-! ### The state of a trace -/

/-- The object at `h` after the events. -/
def objectAt (h : HandlerPtr) (es : List Event) : Option CMySQLHandler :=
  es.foldl (fun x e => e.onObject h x) none

/-- `SQLHandle` after the events. -/
def tableAt (es : List Event) : List HandlerPtr := es.foldl (fun T e => e.onTable T) []

/-- The handlers are what the events of the trace have made of them. -/
structure Replayed (s : State) : Prop where
  heap : ∀ h, s.heap h = objectAt h s.trace
  table : s.SQLHandle = tableAt s.trace

lemma Effect.prefix {t : ThreadId} {e : Event} {s s' : State} (heff : Effect t e s s') :
    s.trace <+: s'.trace := ⟨[e], heff.trace.symm⟩

/-- An event of the trace has been there before the last step, or is the event of that step. -/
lemma Effect.occurrence {t : ThreadId} {e e' : Event} {s s' : State} {es : List Event}
    (heff : Effect t e s s') (h : es ++ [e'] <+: s'.trace) :
    es ++ [e'] <+: s.trace ∨ es = s.trace ∧ e' = e := by
  rw [heff.trace, List.prefix_concat_iff] at h
  rcases h with heq | h
  · obtain ⟨hes, he⟩ := List.append_inj' heq rfl
    exact .inr ⟨hes, by simpa using he⟩
  · exact .inl h

lemma replayed_init (p_Amx : List Amx) : Replayed (State.init p_Amx) := ⟨fun _ => rfl, rfl⟩

lemma Replayed.step {t : ThreadId} {e : Event} {s s' : State} (hs : Replayed s)
    (heff : Effect t e s s') : Replayed s' where
  heap h := by rw [heff.heap h, hs.heap h, heff.trace, objectAt, objectAt, List.foldl_concat]
  table := by rw [heff.table, hs.table, heff.trace, tableAt, tableAt, List.foldl_concat]

end MySQLPlugin

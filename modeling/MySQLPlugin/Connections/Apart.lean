import MySQLPlugin.Connections.Holders
import MySQLPlugin.Handles.Frame

/-!
# What leaves a connection alone

A connection object remembers the statement that has been executed last on it and the result that is
still to be read. Both stay as they are while the program works on other handlers, or on its own
handler without a statement, a read of the result or another connection.
-/

namespace MySQLPlugin

open Threads Prog CMySQLHandler Natives

/-! ### The last statement of a connection -/

/-- What is left of the last statement on a connection: its position in the trace, and its result
while nobody has read it. -/
structure LastStatement where
  last : Option Nat
  unread : Option ResultSet

def Connection.lastStatement (x : Connection) : LastStatement := ⟨x.last, x.pending⟩

/-- The call executes a statement, or reads its result. -/
def LibCall.Changes : LibCall → Prop
  | .mysql_real_query _ | .mysql_store_result => True
  | _ => False

/-- The connection on which such a call ends. -/
def Stmt.changes {β : Type} : Stmt β → Option ConnPtr
  | .leave _ c (.mysql_real_query _) | .leave _ c .mysql_store_result => some c
  | _ => none

lemma Connection.report_lastStatement (x : Connection) (r : Reply) :
    (x.report r).lastStatement = x.lastStatement := by
  rw [Connection.report]
  split_ifs <;> rfl

/-- A connection object is changed in the rest of its fields, or another one is. -/
lemma Libmysql.modifyConn_lastStatement {l : Libmysql} {c d : ConnPtr} {f : Connection → Connection}
    (hf : c = d → (f (l.conn d)).lastStatement = (l.conn d).lastStatement) :
    ((l.modifyConn c f).conn d).lastStatement = (l.conn d).lastStatement := by
  by_cases hc : c = d
  · subst hc
    rw [modifyConn_self]
    exact hf rfl
  · rw [modifyConn_of_ne l f (Ne.symm hc)]

lemma Libmysql.begin_lastStatement (l : Libmysql) (c d : ConnPtr) (f : LibCall) :
    ((l.begin c f).conn d).lastStatement = (l.conn d).lastStatement := by
  cases f with
  | mysql_close => exact modifyConn_lastStatement (f := fun x => { x with closed := true }) fun _ => rfl
  | _ => rfl

lemma Libmysql.answer_lastStatement (l : Libmysql) (c d : ConnPtr) (now : Nat) (r : Reply) (f : LibCall)
    (hf : f.Changes → c ≠ d) : ((l.answer c now r f).2.conn d).lastStatement = (l.conn d).lastStatement := by
  have hreport : ((l.modifyConn c (·.report r)).conn d).lastStatement = (l.conn d).lastStatement :=
    modifyConn_lastStatement fun _ => Connection.report_lastStatement _ r
  cases f with
  | mysql_real_query q =>
    have hne : c ≠ d := hf trivial
    have hexecuted : ((l.modifyConn c fun x =>
        { x.report r with last := some now, pending := r.rows }).conn d).lastStatement =
        (l.conn d).lastStatement := modifyConn_lastStatement fun heq => absurd heq hne
    rw [answer]
    split_ifs
    · exact hexecuted
    · exact hreport
  | mysql_store_result =>
    have hne : c ≠ d := hf trivial
    have hread : ((l.modifyConn c fun x => { x with pending := none }).conn d).lastStatement =
        (l.conn d).lastStatement := modifyConn_lastStatement fun heq => absurd heq hne
    rw [answer]
    cases r.rows <;> exact hread
  | mysql_real_connect => exact hreport
  | mysql_ping => exact hreport
  | _ => rfl

lemma Libmysql.onResult_lastStatement (l : Libmysql) (p : ResPtr) (y : StoredResult) (d : ConnPtr)
    (f : ResCall) : ((l.onResult p y f).2.conn d).lastStatement = (l.conn d).lastStatement := by
  cases f with
  | mysql_fetch_row =>
    simp only [onResult]
    split_ifs <;> rfl
  | _ => rfl

/-- Any other statement leaves the last statement of a connection as it is. -/
lemma Stmt.run_lastStatement {b : Build} {t : ThreadId} {β : Type} {a : Stmt β} {r : Reply} {s s' : State}
    {o : Except Fault β} {d : ConnPtr} (hd : d < s.lib.nextConn) (ha : a.changes ≠ some d)
    (h : a.run b t r s = some (o, s')) : (s'.lib.conn d).lastStatement = (s.lib.conn d).lastStatement := by
  cases a with
  | lockMutex =>
    simp only [Stmt.run, Build.lock] at h
    repeat' split at h
    all_goals cases h
    all_goals rfl
  | unlockMutex =>
    cases h
    simp only [unlock]
    repeat' split
    all_goals rfl
  | mysql_init p =>
    simp only [Stmt.run] at h
    split_ifs at h
    · cases h
      have hne : d ≠ s.lib.nextConn := Nat.ne_of_lt hd
      simp [Libmysql.newConn, hne]
    · cases h
      rfl
  | enter p f =>
    simp only [Stmt.run] at h
    repeat' split at h
    all_goals cases h
    · exact s.lib.begin_lastStatement _ d f
    · rfl
    · rfl
  | leave p c f =>
    cases h
    refine s.lib.answer_lastStatement c d _ r f fun hf heq => ha ?_
    cases f <;> first | exact hf.elim | rw [heq]; rfl
  | onResult p f =>
    simp only [Stmt.run] at h
    repeat' split at h
    all_goals cases h
    · rfl
    · exact s.lib.onResult_lastStatement _ _ d f
    · rfl
  | _ =>
    simp only [Stmt.run] at h
    repeat' split at h
    all_goals cases h
    all_goals rfl

/-! ### Programs -/

lemma closeAt_wired (c : Cell) (p : HandlerPtr) : Wired (closeAt c p) := by
  intro g
  simp only [closeAt, destruct, bind_bind, lockMutex, unlockMutex, follows_lift_bind]
  refine ⟨trivial, fun _ => (clearQueue_wired p _).bind fun _ g => ?_⟩
  refine (freeResult_wired p g).bind fun _ g => (disconnect_wired p g).bind fun _ g => ?_
  exact ⟨trivial, fun _ => ⟨trivial, fun _ => ⟨trivial, fun _ => trivial⟩⟩⟩

/-- The assignment leaves the handler its connection. -/
def Assign.Keeps : Assign → Prop
  | .m_stConnectionPtr _ | .m_bIsConnected _ => False
  | _ => True

/-- On the handler `h` the event neither executes nor reads a statement, nor changes the connection. -/
def Event.Apart (h : HandlerPtr) : Event → Prop
  | .delete p => p ≠ h
  | .assign _ p a => p = h → a.Keeps
  | .enter _ p f _ => p = h → ¬f.Changes
  | _ => True

/-- A statement that has begun is not one on `d`. -/
def Last.Apart (d : ConnPtr) : Last → Prop
  | .entered _ f c => f.Changes → c ≠ d
  | _ => True

/-- A connection object belongs to one handler, and no handler is there before it is made. -/
structure Founded (s : State) : Prop where
  issued : Issued s
  fresh : ∀ p, s.nextHandler ≤ p → s.heap p = none

/-- The handler `h` is connected with `d`, on which `o` is the last statement. -/
structure Holding (h : HandlerPtr) (d : ConnPtr) (o : LastStatement) (s : State) : Prop
    extends Founded s where
  object : ∃ x, s.heap h = some x ∧ x.m_stConnectionPtr = some d ∧ x.m_bIsConnected = true
  lastStatement : (s.lib.conn d).lastStatement = o

section

variable {h : HandlerPtr} {d : ConnPtr} {o : LastStatement} {s s' : State} {t : ThreadId} {e : Event}

lemma Holding.connection (hs : Holding h d o s) : s.connection h = some d := by
  obtain ⟨x, hx, hc, -⟩ := hs.object
  exact Option.bind_eq_some_iff.mpr ⟨x, hx, hc⟩

lemma Holding.object_step (hs : Holding h d o s) (heff : Effect t e s s') (he : e.Apart h) :
    ∃ x, s'.heap h = some x ∧ x.m_stConnectionPtr = some d ∧ x.m_bIsConnected = true := by
  obtain ⟨x, hx, hc, hconnected⟩ := hs.object
  have hx' := heff.heap h
  rw [hx] at hx'
  cases e with
  | new p =>
    have hp : h ≠ p := by
      rintro rfl
      have hnone := hs.fresh h (Nat.le_of_eq heff.occurs.1.symm)
      cases hx.symm.trans hnone
    rw [Event.onObject, if_neg hp] at hx'
    exact ⟨x, hx', hc, hconnected⟩
  | delete p =>
    rw [Event.onObject, if_neg (Ne.symm he)] at hx'
    exact ⟨x, hx', hc, hconnected⟩
  | assign u p a =>
    by_cases hp : h = p
    · rw [Event.onObject, if_pos hp] at hx'
      refine ⟨a.apply x, hx', ?_⟩
      have hkeeps : a.Keeps := he hp.symm
      cases a <;> first | exact hkeeps.elim | exact ⟨hc, hconnected⟩
    · rw [Event.onObject, if_neg hp] at hx'
      exact ⟨x, hx', hc, hconnected⟩
  | _ => exact ⟨x, hx', hc, hconnected⟩

/-- A statement apart from the handler, after statements apart from its connection. -/
lemma Holding.step {b : Build} {g : Last} {β : Type} {a : Stmt β} {x : β} (hs : Holding h d o s)
    (hg : g.Recorded t s) (hapart : g.Apart d) (ha : a.Only t (Event.Apart h))
    (hallowed : a.AllowedAfter g) (hst : (plugin b).Step t a s (.ok x) s') :
    Holding h d o s' ∧ (a.hands x).Recorded t s' ∧ (a.hands x).Apart d := by
  have hd : d < s.lib.nextConn := hs.issued.held_lt hs.connection
  have hchanges : a.changes ≠ some d := by
    intro heq
    cases a with
    | leave p c f =>
      obtain rfl : g = .entered p f c := hallowed
      cases f with
      | mysql_real_query q => exact hapart trivial (Option.some.inj heq)
      | mysql_store_result => exact hapart trivial (Option.some.inj heq)
      | _ => cases heq
    | _ => cases heq
  refine ⟨?_, Stmt.hands_recorded hst, ?_⟩
  · obtain ⟨r, -, hrun⟩ := hst
    have hlast := Stmt.run_lastStatement hd hchanges hrun
    rcases Stmt.run_effect (Stmt.Only.and ha (hallowed.only t)) hrun with rfl | ⟨e, ⟨he, hallowed⟩, heff⟩
    · exact hs
    · exact ⟨⟨hs.issued.step heff hg hallowed, heff.fresh hs.fresh⟩, hs.object_step heff he,
        hlast.trans hs.lastStatement⟩
  · cases a with
    | enter p f =>
      rintro hf rfl
      obtain ⟨y, hy, hc⟩ := (step_enter hst).occurs
      have hp : p = h := hs.issued.held_unique (Option.bind_eq_some_iff.mpr ⟨y, hy, hc⟩) hs.connection
      exact ha x hp hf
    | _ => trivial

lemma Stmt.Spares.apart {β : Type} {a : Stmt β} (ha : a.Spares h) : a.Only t (Event.Apart h) := by
  cases a with
  | assign p a => exact fun hp => absurd hp ha
  | enter p f => exact fun _ hp => absurd hp ha
  | delete p => exact ha
  | new => exact fun _ => trivial
  | _ => simp [Stmt.Only, Event.Apart]

end

section

variable {M : Machine Stmt Fault State ThreadId Reply} {b : Build} [IsPlugin M b] {t : ThreadId}
  {α : Type} {h p : HandlerPtr} {d : ConnPtr} {o : LastStatement} {s : State}

include b

lemma wp_founded {p : Code α} (hp : Wired p) (hs : Founded s) :
    p.wp M t (fun _ _ => True) (fun _ => Founded) s := by
  have hfresh : p.wp M t (fun _ _ => True) (fun _ s => ∀ q, s.nextHandler ≤ q → s.heap q = none) s :=
    wp_of_only IsPlugin.step (I := fun s => ∀ q, s.nextHandler ≤ q → s.heap q = none)
      (all_only_true p) (fun _ _ _ _ hI heff => heff.fresh hI) (fun _ _ _ => trivial) hs.fresh
  exact wp_mono (wp_and (wp_issued hp hs.issued) hfresh) fun _ _ h => ⟨h.1, h.2⟩

/-- A program apart from the handler leaves the last statement on its connection as it is. -/
lemma wp_holding {g : Last} {p : Code α} (hp : p.All (Stmt.Only t (Event.Apart h)))
    (hπ : p.Follows wiring g) (hg : g.Recorded t s) (hapart : g.Apart d) (hs : Holding h d o s) :
    p.wp M t (fun _ _ => True) (fun _ => Holding h d o) s := by
  refine wp_mono (wp_of_follows (J := fun g s => Holding h d o s ∧ g.Recorded t s ∧ g.Apart d) hp hπ
    (fun g a s x s' ha hallowed hs hst => ?_) (fun _ _ _ _ _ _ _ _ _ => trivial)
    (fun _ _ _ _ => trivial) ⟨hs, hg, hapart⟩) fun _ s' ⟨_, hs'⟩ => hs'.1
  exact hs.1.step hs.2.1 hs.2.2 ha hallowed (IsPlugin.step hst)

/-- The same for a program that begins with no call under way. -/
lemma wp_holding_wired {p : Code α} (hp : p.All (Stmt.Only t (Event.Apart h))) (hπ : Wired p)
    (hs : Holding h d o s) : p.wp M t (fun _ _ => True) (fun _ => Holding h d o) s :=
  wp_holding hp (hπ .other) trivial trivial hs

/-- The body of a native keeps it, and so does the native. -/
lemma wp_native_holding {n : NativeCall}
    (hbody : ∀ r s', M.admits .main (.mark (.call n)) r s → s'.SQLHandle = s.SQLHandle →
      s'.heap = s.heap → Holding h d o s' →
      (body n).wp M .main (fun _ _ => True) (fun _ => Holding h d o) s')
    (hs : Holding h d o s) : (native n).wp M .main (fun _ _ => True) (fun _ => Holding h d o) s := by
  refine wp_step (fun _ s₁ hst => ?_) fun _ _ _ => trivial
  have hmark : (Stmt.mark (.call n)).Only .main (Event.Apart h) := trivial
  have hs₁ := (hs.step (g := .other) trivial trivial hmark trivial (IsPlugin.step hst)).1
  have heff := step_mark (IsPlugin.step hst)
  obtain ⟨r, hr, -⟩ := hst
  rw [wp_bind]
  refine wp_mono (hbody r s₁ hr heff.table (funext heff.heap) hs₁) fun v s₂ hs₂ => ?_
  exact wp_holding_wired (p := do
    .lift (.mark (.return n v))
    pure v) ⟨trivial, fun _ => trivial⟩ (fun _ => ⟨trivial, fun _ => trivial⟩) hs₂

/-- A native that works on another handler. -/
lemma wp_withHandle_holding {c : Cell} {f : HandlerPtr → Code Cell} (hf : Wired (withHandle c f))
    (hspares : ∀ p q, p ≠ q → (f p).All (Stmt.Spares q)) (hc : handlerAt s c ≠ some h)
    (hs : Holding h d o s) :
    (withHandle c f).wp M .main (fun _ _ => True) (fun _ => Holding h d o) s := by
  refine wp_withHandle (fun _ => hs) fun p hp => ?_
  have hne : p ≠ h := by
    rintro rfl
    exact hc hp
  exact wp_holding ((hspares p h hne).mono fun _ => Stmt.Spares.apart) (follows_of_withHandle hf p)
    trivial trivial hs

/-- `mysql_close` of another handler. -/
lemma nMysqlClose_holding {c : Cell} (hc : handlerAt s c ≠ some h) (hs : Holding h d o s) :
    (nMysqlClose c).wp M .main (fun _ _ => True) (fun _ => Holding h d o) s := by
  cases hp : handlerAt s c with
  | none =>
    refine wp_nMysqlClose (fun _ => hs) fun p hp' => ?_
    cases hp.symm.trans hp'
  | some p =>
    have hne : p ≠ h := by
      rintro rfl
      exact hc hp
    have hclose : (closeAt c p).wp (plugin b) .main (fun _ _ => True) (fun _ => Holding h d o) s :=
      wp_holding_wired ((closeAt_spares hne).mono fun _ => Stmt.Spares.apart) (closeAt_wired c p) hs
    refine (wp_iff _ _ _).mpr ⟨fun v s' hrun => ?_, fun _ _ _ => trivial⟩
    exact ((wp_iff _ _ _).mp hclose).1 v s' ((run_nMysqlClose_iff hp).mp (hrun.mono IsPlugin.step))

/-- `mysql_connect` with other parameters. -/
lemma nMysqlConnect_holding {host user db pass : CString} {port : Cell}
    (hother : ∀ x, s.heap h = some x → sameConnection host user db pass port x = false)
    (hs : Holding h d o s) : (nMysqlConnect host user db pass port).wp M .main (fun _ _ => True)
      (fun _ => Holding h d o) s := by
  refine wp_nMysqlConnect (fun _ => trivial) (fun i p x _ hx hsame => ?_) ?_
  · have hne : p ≠ h := by
      rintro rfl
      cases (hother x hx).symm.trans hsame
    refine wp_holding_wired (p := do
      assign p (.m_bIsConnected false)
      connect p) ⟨fun hp => absurd hp hne, fun _ => ?_⟩ (fun _ => ⟨trivial, fun _ => ?_⟩) hs
    · exact (connect_spares hne).mono fun _ => Stmt.Spares.apart
    · exact connect_wired p _
  · rw [append, construct, bind_bind]
    refine wp_step (fun p s₁ hst => ?_) fun _ _ _ => trivial
    have hnew : (Stmt.new host user pass db port).Only .main (Event.Apart h) := fun _ => trivial
    have hs₁ := (hs.step (g := .other) trivial trivial hnew trivial (IsPlugin.step hst)).1
    have hne : p ≠ h := by
      rintro rfl
      obtain ⟨x, hx, -⟩ := hs.object
      have hnone := hs.fresh p (Nat.le_of_eq (step_new (IsPlugin.step hst)).occurs.1.symm)
      cases hx.symm.trans hnone
    rw [bind_bind, wp_bind]
    refine wp_mono (wp_holding_wired ((connect_spares hne).mono fun _ => Stmt.Spares.apart)
      (connect_wired p) hs₁) fun _ s₂ hs₂ => ?_
    exact wp_holding_wired (p := do
      .lift (.pushBack p)
      pure (BitVec.ofNat 32 (← .lift .size))) ⟨trivial, fun _ => ⟨trivial, fun _ => trivial⟩⟩
      (fun _ => ⟨trivial, fun _ => ⟨trivial, fun _ => trivial⟩⟩) hs₂

end

/-! ### The other natives -/

/-- The native runs no statement and no command on the handler `h` and leaves it its connection. -/
def NativeCall.Leaves (h : HandlerPtr) : NativeCall → State → Prop
  | .mysql_query _ resultid _ c, s => resultid = -1 → handlerAt s c ≠ some h
  | .mysql_reconnect c, s | .mysql_close c, s => handlerAt s c ≠ some h
  | .mysql_set_charset _ c, s | .mysql_reload c, s | .mysql_stat _ c, s => handlerAt s c ≠ some h
  | .mysql_connect host user db pass port, s =>
    ∀ x ∈ s.heap h, sameConnection host user db pass port x = false
  | _, _ => True

/-- Nor does the native store a result of `h`. -/
def NativeCall.Elsewhere (h : HandlerPtr) (n : NativeCall) (s : State) : Prop :=
  n.Leaves h s ∧ ∀ c, n = .mysql_store_result c → handlerAt s c ≠ some h

lemma Event.Looks.apart {h : HandlerPtr} {e : Event} (he : e.Looks) : e.Apart h := by
  cases e with
  | assign u p a =>
    intro _
    cases a <;> first | exact he.elim | trivial
  | enter u p f c =>
    intro _ hf
    cases f <;> first | exact he.elim | exact hf
  | delete => exact he.elim
  | _ => trivial

/-- A threaded query is only queued. -/
lemma oldQuery_apart (t : ThreadId) {h p : HandlerPtr} {q : CString} {resultID extraID : Cell}
    (hid : resultID ≠ -1) : (oldQuery p q resultID extraID).All (Stmt.Only t (Event.Apart h)) := by
  simp only [oldQuery, if_pos hid]
  simp [enqueue, this, assign, lockMutex, unlockMutex, bind_bind, all_lift_bind, all_ite, Stmt.Only,
    Event.Apart, Assign.Keeps]

section

variable {M : Machine Stmt Fault State ThreadId Reply} {b : Build} [IsPlugin M b] {t : ThreadId}
  {h : HandlerPtr} {d : ConnPtr} {o : LastStatement} {s : State}

include b

lemma native_holding {n : NativeCall}
    (hn : ∀ r, M.admits .main (.mark (.call n)) r s → n.Elsewhere h s) (hs : Holding h d o s) :
    (native n).wp M .main (fun _ _ => True) (fun _ => Holding h d o) s := by
  refine wp_native_holding (fun r s' hr htable hheap hs' => ?_) hs
  have hat (c : Cell) : handlerAt s' c = handlerAt s c := by rw [handlerAt, htable, handlerAt]
  have hopen {c : Cell} (hc : n.connectionHandle = some c) (hn : n.Open)
      (hne : handlerAt s c ≠ some h) :
      (body n).wp M .main (fun _ _ => True) (fun _ => Holding h d o) s' := by
    obtain ⟨f, hf, hspares⟩ := body_eq_withHandle hc hn
    have hwired := body_wired n
    rw [hf] at hwired ⊢
    exact wp_withHandle_holding hwired hspares (by rwa [hat]) hs'
  have hstatic (hall : (body n).All (Stmt.Only .main (Event.Apart h))) :
      (body n).wp M .main (fun _ _ => True) (fun _ => Holding h d o) s' :=
    wp_holding_wired hall (body_wired n) hs'
  cases n with
  | mysql_connect host user db pass port =>
    refine nMysqlConnect_holding (fun x hx => (hn r hr).1 x ?_) hs'
    rwa [hheap] at hx
  | mysql_reconnect c => exact hopen rfl trivial (hn r hr).1
  | mysql_close c => exact nMysqlClose_holding (by rw [hat]; exact (hn r hr).1) hs'
  | mysql_store_result c => exact hopen rfl trivial ((hn r hr).2 c rfl)
  | mysql_query q resultid extraid c =>
    by_cases hid : resultid = -1
    · exact hopen rfl trivial ((hn r hr).1 hid)
    · refine hstatic (withHandle_only .main c fun p => ⟨trivial, fun _ => ?_⟩)
      exact (oldQuery_apart .main hid).bind fun r => ⟨trivial, fun _ => trivial⟩
  | mysql_query_callback index q callback extraid c =>
    refine hstatic (withHandle_only .main c fun p => ?_)
    simp [CMySQLHandler.query, enqueue, this, assign, lockMutex, unlockMutex, bind_bind, all_lift_bind,
      all_ite, Stmt.Only, Event.Apart, Assign.Keeps]
  | mysql_ping c =>
    refine hstatic (withHandle_only .main c fun p => ?_)
    simp [ping, Debug, this, call, access, assign, lockMutex, unlockMutex, bind_bind, ite_bind, all_lift_bind,
      all_ite, Stmt.Only, Event.Apart, Assign.Keeps, LibCall.Changes]
  | mysql_free_result c =>
    refine hstatic (withHandle_only .main c fun p => ?_)
    simp [freeResult, this, load, assign, onResult, bind_bind, ite_bind, all_lift_bind, all_ite,
      Stmt.Only, Event.Apart, Assign.Keeps]
  | _ => exact hstatic (all_only_mono (body_looks .main (by trivial)) fun _ => Event.Looks.apart)

end

/-! ### Visits -/

/-- A visit of another handler. -/
lemma visit_spares {p q : HandlerPtr} (hp : p ≠ q) : (do
    if ← .lift (.guard p) then
      (if ← call p .mysql_ping then executeFront p else reconnectInBackground p)
      .lift (.mark (.visitEnd p))
    else
      pure () : Code Unit).All (Stmt.Spares q) := by
  have hexecute : (executeFront p).All (Stmt.Spares q) := by
    simp only [executeFront, this, all_lift_bind]
    refine ⟨hp, fun x => ?_⟩
    cases x.queueData with
    | nil => trivial
    | cons d ds =>
      simp [front, queryFailed, call, access, assign, bind_bind, ite_bind, all_lift_bind, all_ite,
        Stmt.Spares, hp]
  have hreconnect : (reconnectInBackground p).All (Stmt.Spares q) := by
    simp [reconnectInBackground, connect, this, call, access, assign, onResult, bind_bind, ite_bind,
      all_lift_bind, all_ite, Stmt.Spares, hp]
  simp only [call, all_lift_bind, all_ite, bind_bind, ite_bind]
  refine ⟨hp, fun v => ⟨fun _ => ⟨hp, fun c => ⟨trivial, fun ok => ⟨fun _ => ?_, fun _ => ?_⟩⟩⟩,
    fun _ => trivial⟩⟩
  · exact hexecute.bind fun _ => ⟨trivial, fun _ => trivial⟩
  · exact hreconnect.bind fun _ => ⟨trivial, fun _ => trivial⟩

section

variable {M : Machine Stmt Fault State ThreadId Reply} {b : Build} [IsPlugin M b] {t : ThreadId}
  {h : HandlerPtr} {d : ConnPtr} {o : LastStatement} {s : State}

include b

lemma wp_sameObject {α : Type} {p : Code α} (hp : p.All (Stmt.Spares h)) :
    p.wp M t (fun _ _ => True) (fun _ s' => s'.heap h = s.heap h) s :=
  (wp_iff _ _ _).mpr ⟨fun _ _ hrun => run_spares hp (hrun.mono IsPlugin.step), fun _ _ _ => trivial⟩

/-- A visit that finds the guard of the handler closed leaves it alone. -/
lemma workerVisit_holding {i : Nat}
    (hrest : ∀ r x, M.admits .worker (.guard h) r s → s.heap h = some x → x.ready = false)
    (hs : Holding h d o s) : (workerVisit i).wp M .worker (fun _ _ => True)
      (fun _ s' => Holding h d o s' ∧ s'.heap h = s.heap h) s := by
  refine wp_at (fun _ => trivial) fun p _ => ?_
  by_cases hp : p = h
  · subst hp
    refine wp_guard_lib (fun _ => trivial) (fun _ _ _ => ⟨hs, rfl⟩) fun x r s' hr hx hready _ _ => ?_
    cases (hrest r x hr hx).symm.trans hready
  · have hspares := visit_spares (q := h) hp
    have hwired := (workerVisit_wired i .other).2 p
    exact wp_and (wp_holding (hspares.mono fun _ => Stmt.Spares.apart) hwired trivial trivial hs)
      (wp_sameObject hspares)

end

end MySQLPlugin

import MySQLPlugin.Connections.Apart
import MySQLPlugin.Logic.Views

/-!
# What a synchronous query leaves to read

`mysql_query` with the result id `-1` executes its query at once, and the script reads the outcome with
the natives that follow. Until then the worker may visit the handler, as often as it likes.
-/

namespace MySQLPlugin

open Threads Prog CMySQLHandler Natives

/-! ### A connection takes one statement after the other -/

/-- While a result is unread, a ping or another statement fails. `mysql_store_result` reads it. -/
def Stmt.InSync {β : Type} : Stmt β → Reply → State → Prop
  | .leave _ c .mysql_ping, r, s | .leave _ c (.mysql_real_query _), r, s =>
    (s.lib.conn c).pending ≠ none → r.ok = false
  | .leave _ c .mysql_store_result, r, s => r.rows = (s.lib.conn c).pending
  | _, _, _ => True

/-- The plugin with such connections. -/
def inSync (b : Build) : Machine Stmt Fault State ThreadId Reply :=
  (plugin b).restrict fun _ a r s => a.InSync r s

/-- The worker goes past the handler `h`. -/
def Stmt.Passes (h : HandlerPtr) {β : Type} : Stmt β → State → Prop
  | .guard p, s => p = h → ∀ x ∈ s.heap h, x.queueData = [] ∨ x.m_bQueryProcessing = true
  | _, _ => True

/-- The same with scripts that respect the preconditions `P`. -/
def inSyncCalling (b : Build) (P : NativeCall → State → Prop) :
    Machine Stmt Fault State ThreadId Reply :=
  (plugin b).restrict fun _ a r s => a.InSync r s ∧ a.Meets P s

/-- The same with a worker that goes past the handler `h`. -/
def inSyncPassing (b : Build) (P : NativeCall → State → Prop) (h : HandlerPtr) :
    Machine Stmt Fault State ThreadId Reply :=
  (plugin b).restrict fun _ a r s => a.InSync r s ∧ a.Meets P s ∧ a.Passes h s

instance (b : Build) : IsPlugin (inSync b) b := ⟨fun _ _ _ => rfl⟩

instance (b : Build) (P : NativeCall → State → Prop) : IsPlugin (inSyncCalling b P) b :=
  ⟨fun _ _ _ => rfl⟩

instance (b : Build) (P : NativeCall → State → Prop) (h : HandlerPtr) :
    IsPlugin (inSyncPassing b P h) b := ⟨fun _ _ _ => rfl⟩

/-! ### Reading the outcome -/

/-- The end of `mysql_store_result`. -/
lemma Libmysql.answer_storeResult (l : Libmysql) (c : ConnPtr) (now : Nat) (r : Reply) :
    ((l.answer c now r .mysql_store_result).1.bind
      (l.answer c now r .mysql_store_result).2.live).map (·.set) = r.rows ∧
    ((l.answer c now r .mysql_store_result).2.conn c).lastStatement = ⟨(l.conn c).last, none⟩ := by
  cases hr : r.rows with
  | none => simp [answer, hr, Connection.lastStatement]
  | some set => simp [answer, hr, Connection.lastStatement, live_newResult]

/-- The native asks the connection of its handle. -/
def NativeCall.asks : NativeCall → Option (Cell × LibAccess)
  | .mysql_insert_id c => some (c, .mysql_insert_id)
  | .mysql_affected_rows c => some (c, .mysql_affected_rows)
  | _ => none

/-- `mysql_insert_id` and `mysql_affected_rows` of libmysql return `number`. -/
def Stmt.Numbered (number : BitVec 64) {β : Type} : Stmt β → Reply → Prop
  | .access _ .mysql_insert_id, r | .access _ .mysql_affected_rows, r => r.number = number
  | _, _ => True

/-- The plugin on connections that answer so. -/
def numbered (b : Build) (number : BitVec 64) : Machine Stmt Fault State ThreadId Reply :=
  (inSync b).restrict fun _ a r _ => a.Numbered number r

instance (b : Build) (number : BitVec 64) : IsPlugin (numbered b number) b := ⟨fun _ _ _ => rfl⟩

/-- `mysql_insert_id` and `mysql_affected_rows` ask the connection `d`, where the statement at the
position `now` is the last one, and return what it answers. -/
def AccessReports (b : Build) (h : HandlerPtr) (d : ConnPtr) (now : Nat) (s : State) : Prop :=
  ∀ n c f r s', n.asks = some (c, f) → handlerAt s c = some h →
    (Run (inSync b) .main (native n) s r s' → (s.lib.conn d).last = some now ∧ ∃ v, r = .ok v ∧
      s'.trace = s.trace ++ [.mark (.call n), .access .main h f (some d), .mark (.return n v)]) ∧
    ∀ number, Run (numbered b number) .main (native n) s r s' → r = .ok (number.setWidth 32)

/-- A call of `mysql_store_result` that stores the result `unread` of the connection `d`, or returns
`0` when there is none. -/
def StoresResult (h : HandlerPtr) (d : ConnPtr) (c : Cell) (unread : Option ResultSet) (v : Cell)
    (s s' : State) : Prop :=
  ∃ (p : Option ResPtr) (ok : Bool), v = (if p.isSome then 1 else 0) ∧
    (p.bind s'.lib.live).map (·.set) = unread ∧ (s'.heap h).map (·.m_stResult) = some (.set p) ∧
    s'.trace = s.trace ++ [.mark (.call (.mysql_store_result c)),
      .enter .main h .mysql_store_result (some d), .leave .main h .mysql_store_result d ok,
      .assign .main h (.m_stResult p), .mark (.return (.mysql_store_result c) v)]

/-- `mysql_store_result` stores the result of the connection `d`, where `o` is the last statement. -/
def StoreReports (b : Build) (h : HandlerPtr) (d : ConnPtr) (o : LastStatement) (s : State) : Prop :=
  ∀ c r s', handlerAt s c = some h → Run (inSync b) .main (native (.mysql_store_result c)) s r s' →
    (s.lib.conn d).lastStatement = o ∧ ∃ v, r = .ok v ∧ StoresResult h d c o.unread v s s'

section

variable {M : Machine Stmt Fault State ThreadId Reply} {b : Build} [IsPlugin M b] {h : HandlerPtr}
  {d : ConnPtr} {o : LastStatement} {s : State} {c : Cell}

include b

/-- An accessor of libmysql on the connection that the handler holds. -/
lemma access_wp {f : LibAccess} {z : f.Ret} {x : CMySQLHandler} (hx : s.heap h = some x)
    (hconnected : x.m_bIsConnected = true) (hd : x.m_stConnectionPtr = some d) {k : f.Ret → Cell} :
    (do
      let v ← (do if !(← this h).m_bIsConnected then pure z else access h f : Code f.Ret)
      pure (k v) : Code Cell).wp M .main (fun _ _ => False)
      (fun v s' => Effect .main (.access .main h f (some d)) s s' ∧
        ∃ r, M.admits .main (.access h f) r s ∧ v = k (s.lib.access d r f)) s := by
  rw [bind_bind]
  refine wp_object hx ?_
  simp only [hconnected, Bool.not_true, Bool.false_eq_true, if_false]
  exact wp_access_held hx hd fun r s' hr heff => ⟨heff, r, hr, rfl⟩

/-- The native asks the connection that its handler holds, and returns the low half of the answer. -/
lemma asks_wp {n : NativeCall} {f : LibAccess} {x : CMySQLHandler} (hn : n.asks = some (c, f))
    (hh : handlerAt s c = some h) (hx : s.heap h = some x) (hconnected : x.m_bIsConnected = true)
    (hd : x.m_stConnectionPtr = some d) :
    (native n).wp M .main (fun _ _ => False) (fun v s' => s'.trace = s.trace ++
        [.mark (.call n), .access .main h f (some d), .mark (.return n v)] ∧
      ∃ r s₁, M.admits .main (.access h f) r s₁ ∧ v = r.number.setWidth 32) s := by
  refine wp_native fun r s₁ _ heff₁ => ?_
  have hat : handlerAt s₁ c = some h := by rwa [handlerAt, heff₁.table]
  have hx₁ : s₁.heap h = some x := (heff₁.heap h).trans hx
  have hbody : (body n).wp M .main (fun _ _ => False)
      (fun v s₂ => Effect .main (.access .main h f (some d)) s₁ s₂ ∧
        ∃ r, M.admits .main (.access h f) r s₁ ∧ v = r.number.setWidth 32) s₁ := by
    cases n with
    | mysql_insert_id =>
      cases hn
      exact wp_handled hat (access_wp hx₁ hconnected hd)
    | mysql_affected_rows =>
      cases hn
      exact wp_handled hat (access_wp hx₁ hconnected hd)
    | _ => cases hn
  refine wp_mono hbody fun v s₂ hasked s₃ heff₃ => ?_
  obtain ⟨heff₂, r, hr, hv⟩ := hasked
  refine ⟨?_, r, s₁, hr, hv⟩
  rw [heff₃.trace, heff₂.trace, heff₁.trace]
  simp

/-- `mysql_store_result` reads the result, and leaves none on the connection. -/
lemma storeResult_wp
    (hM : ∀ r s, M.admits .main (.leave h d .mysql_store_result) r s → r.rows = (s.lib.conn d).pending)
    (hh : handlerAt s c = some h) (hs : Holding h d o s) :
    (native (.mysql_store_result c)).wp M .main (fun _ _ => False) (fun v s' =>
      StoresResult h d c o.unread v s s' ∧ (s'.lib.conn d).lastStatement = ⟨o.last, none⟩ ∧
      ∃ x, s'.heap h = some x ∧ x.m_stConnectionPtr = some d ∧ x.m_bIsConnected = true) s := by
  obtain ⟨x, hx, hd, hconnected⟩ := hs.object
  have ho := hs.lastStatement
  refine wp_mark_record ?_
  rw [wp_bind]
  refine wp_handled hh ?_
  rw [storeResult, bind_bind]
  refine wp_object (x := x) hx ?_
  simp only [hconnected, Bool.not_true, Bool.false_eq_true, if_false, call, bind_bind]
  refine wp_enter_held (x := x) hx hd fun s₂ heff₂ hlib₂ => wp_leave_lib fun r s₃ hr heff₃ hlib₃ => ?_
  have hrows := hM r s₂ hr
  have hx₃ : s₃.heap h = some x := (heff₃.heap h).trans ((heff₂.heap h).trans hx)
  refine wp_assign_held hx₃ rfl fun s₄ heff₄ hlib₄ => wp_mark_record ?_
  have hx₄ := heff₄.heap h
  rw [hx₃, Event.onObject, if_pos rfl] at hx₄
  obtain ⟨hset, hlast⟩ := s₂.lib.answer_storeResult d s₂.trace.length r
  rw [← hlib₃, ← hlib₄] at hset hlast
  have hlib : s₂.lib.conn d = s.lib.conn d := by
    rw [hlib₂]
    rfl
  rw [hlib] at hlast hrows
  rw [hrows] at hset
  subst ho
  refine ⟨⟨_, r.ok, rfl, hset, ?_, ?_⟩, hlast, _, hx₄, hd, hconnected⟩
  · simp [hx₄, Assign.apply]
  · rw [State.record_trace, heff₄.trace, heff₃.trace, heff₂.trace]
    simp

end

section

variable {b : Build} {h : HandlerPtr} {d : ConnPtr} {o : LastStatement} {now : Nat} {s : State}

lemma inSync_store (r : Reply) (s : State)
    (hr : (inSync b).admits .main (.leave h d .mysql_store_result) r s) :
    r.rows = (s.lib.conn d).pending := hr.2

lemma numbered_number {number : BitVec 64} {n : NativeCall} {c : Cell} {f : LibAccess} {r : Reply}
    (hn : n.asks = some (c, f)) (hr : (numbered b number).admits .main (.access h f) r s) :
    r.number = number := by
  cases n with
  | mysql_insert_id => cases hn; exact hr.2
  | mysql_affected_rows => cases hn; exact hr.2
  | _ => cases hn

lemma Holding.accessReports (hs : Holding h d o s) (ho : o.last = some now) :
    AccessReports b h d now s := by
  intro n c f r s' hn hh
  obtain ⟨x, hx, hd, hconnected⟩ := hs.object
  refine ⟨fun hrun => ⟨(congrArg LastStatement.last hs.lastStatement).trans ho, ?_⟩, fun number hrun => ?_⟩
  · obtain ⟨hok, herr⟩ := (wp_iff _ _ _).mp (asks_wp (M := inSync b) hn hh hx hconnected hd)
    cases r with
    | ok v => exact ⟨v, rfl, (hok v s' hrun).1⟩
    | error e => exact (herr e s' hrun).elim
  · obtain ⟨hok, herr⟩ := (wp_iff _ _ _).mp (asks_wp (M := numbered b number) hn hh hx hconnected hd)
    cases r with
    | ok v =>
      obtain ⟨-, r, s₁, hr, rfl⟩ := hok v s' hrun
      rw [numbered_number hn hr]
    | error e => exact (herr e s' hrun).elim

lemma Holding.storeReports (hs : Holding h d o s) : StoreReports b h d o s := by
  intro c r s' hh hrun
  obtain ⟨hok, herr⟩ := (wp_iff _ _ _).mp (storeResult_wp (M := inSync b) inSync_store hh hs)
  refine ⟨hs.lastStatement, ?_⟩
  cases r with
  | ok v => exact ⟨v, rfl, (hok v s' hrun).1⟩
  | error e => exact (herr e s' hrun).elim

end

/-! ### The query -/

/-- Between `s₀` and `s₁` the query `q` has been executed for the handle `c`, at the position `now` of
the trace; it is the last statement of the connection. -/
structure ExecutedAtOnce (q : CString) (c : Cell) (s₀ s₁ : State) (h : HandlerPtr) (x : CMySQLHandler)
    (d : ConnPtr) (now : Nat) : Prop where
  table : s₁.SQLHandle = s₀.SQLHandle
  handle : handlerAt s₀ c = some h
  before : s₀.heap h = some x
  after : s₁.heap h = some { x with m_bNonThreadedQuery := false, m_dwError := .set 0 }
  connected : x.m_bIsConnected = true
  connection : x.m_stConnectionPtr = some d
  since : s₀.trace.length ≤ now
  executed : s₁.trace[now]? = some (.leave .main h (.mysql_real_query q) d true)
  last : (s₁.lib.conn d).last = some now

section

variable {M : Machine Stmt Fault State ThreadId Reply} {b : Build} [IsPlugin M b] {q : CString}
  {extra c : Cell} {s : State}

include b

lemma executedAtOnce_of_query : (native (.mysql_query q (-1) extra c)).wp M .main (fun _ _ => True)
    (fun v s₁ => v = 1 → ∃ h x d now, ExecutedAtOnce q c s s₁ h x d now) s := by
  refine wp_native fun _ s₁ _ heff₁ => wp_withHandle (fun _ _ _ hv => ?_) fun h hh => ?_
  · cases hv
  refine wp_mark fun s₂ heff₂ => ?_
  rw [oldQuery, bind_bind]
  refine wp_this (fun _ => trivial) fun x hx => ?_
  rw [wp_bind, wp_ite]
  split_ifs with hdead hid
  · exact wp_mark fun _ _ _ _ hv => by cases hv
  · exact absurd rfl hid
  have hconnected : x.m_bIsConnected = true := by simpa using hdead
  rw [nonThreadedQuery]
  refine wp_assign (fun _ => trivial) fun s₃ heff₃ => ?_
  rw [call, bind_bind]
  refine wp_enter (fun _ => trivial) (fun _ _ _ => trivial) fun d s₄ heff₄ => ?_
  refine wp_leave_reply fun r s₅ _ heff₅ => ?_
  cases hr : r.ok with
  | false =>
    simp only [Libmysql.answer, hr, Bool.false_eq_true, if_false, Bool.not_false, if_true]
    refine wp_access_lib (fun _ _ => trivial) fun _ _ s₆ _ _ => wp_assign (fun _ => trivial) fun s₇ _ => ?_
    refine wp_access_lib (fun _ _ => trivial) fun _ _ s₈ _ _ => wp_assign (fun _ => trivial) fun s₉ _ => ?_
    refine wp_access_lib (fun _ _ => trivial) fun _ _ s₁₀ _ _ => ?_
    refine wp_access_lib (fun _ _ => trivial) fun _ _ s₁₁ _ _ => wp_assign (fun _ => trivial) fun s₁₂ _ => ?_
    exact wp_mark fun _ _ _ _ hv => by cases hv
  | true =>
    simp only [Libmysql.answer, hr, Bool.false_eq_true, if_false, Bool.not_true, if_true]
    refine wp_assign (fun _ => trivial) fun s₆ heff₆ => ?_
    refine wp_assign (fun _ => trivial) fun s₇ heff₇ => ?_
    refine wp_mark fun s₈ heff₈ s₉ heff₉ _ => ⟨h, x, d, s₄.trace.length, ?_⟩
    rw [hr] at heff₅
    have hx₂ : s.heap h = some x := ((heff₁.heap h).symm.trans (heff₂.heap h).symm).trans hx
    obtain ⟨y, hy, hd⟩ := heff₄.occurs
    have hy₃ := heff₃.heap h
    rw [hx, Event.onObject, if_pos rfl] at hy₃
    cases hy.symm.trans hy₃
    constructor
    case table =>
      simp only [heff₉.table, heff₈.table, heff₇.table, heff₆.table, heff₅.table, heff₄.table,
        heff₃.table, heff₂.table, heff₁.table]
      rfl
    case handle => rwa [handlerAt, heff₁.table] at hh
    case before => exact hx₂
    case after =>
      simp only [heff₉.heap h, heff₈.heap h, heff₇.heap h, heff₆.heap h, heff₅.heap h, heff₄.heap h,
        heff₃.heap h, Event.onObject, if_true, hx]
      rfl
    case connected => exact hconnected
    case connection => exact hd
    case since =>
      rw [heff₄.trace, heff₃.trace, heff₂.trace, heff₁.trace]
      simp
    case executed =>
      rw [heff₉.trace, heff₈.trace, heff₇.trace, heff₆.trace, heff₅.trace]
      simp
    case last =>
      rw [heff₉.last, heff₈.last, heff₇.last, heff₆.last, heff₅.last]
      simp [Event.onLast]

end

/-! ### The steps in between -/

/-- Native calls and visits of the worker. -/
def Action.steps : Set Action := {a | (∃ n, a = .native n) ∨ ∃ i, a = .visit i}

def Action.visits : Set Action := {a | ∃ i, a = .visit i}

lemma ready_eq_false {x : CMySQLHandler} (hx : x.queueData = [] ∨ x.m_bQueryProcessing = true) :
    x.ready = false := by
  rw [CMySQLHandler.ready]
  rcases hx with hx | hx <;> simp [hx]

section

variable {M : Machine Stmt Fault State ThreadId Reply} {b : Build} [IsPlugin M b] {h : HandlerPtr}
  {d : ConnPtr} {o : LastStatement} {s s' : State}

include b

lemma serial_founded {A : Set Action} (hserial : Serial M (Acts A) s s') (hs : Founded s) :
    Founded s' :=
  serial_invariant (confined_univ _) (fun n _ => Set.mem_univ n)
    (fun _ _ _ he hs heff => ⟨hs.issued.keep heff he.allowed, heff.fresh hs.fresh⟩)
    (fun n _ _ hs => wp_founded (native_wired n) hs)
    (fun i _ hs => wp_founded (workerVisit_wired i) hs) hserial hs

/-- A native that executes no statement on the handler may store its result. -/
lemma native_leaves {n : NativeCall}
    (hM : ∀ r s, M.admits .main (.leave h d .mysql_store_result) r s → r.rows = (s.lib.conn d).pending)
    (hn : ∀ r, M.admits .main (.mark (.call n)) r s → n.Leaves h s) (hs : Holding h d o s) :
    (native n).wp M .main (fun _ _ => True) (fun _ s' => ∃ u, Holding h d ⟨o.last, u⟩ s') s := by
  by_cases hstore : ∃ c, n = .mysql_store_result c ∧ handlerAt s c = some h
  · obtain ⟨c, rfl, hh⟩ := hstore
    have hfounded := wp_founded (M := M) (t := .main) (native_wired (.mysql_store_result c)) hs.toFounded
    refine wp_mono (wp_and hfounded (storeResult_wp hM hh hs)) fun _ s₁ h => ?_
    obtain ⟨hs₁, -, hlast, hobject⟩ := h
    exact ⟨none, hs₁, hobject, hlast⟩
  · refine wp_mono (native_holding (fun r hr => ⟨hn r hr, fun c hc hh => ?_⟩) hs) fun _ _ hs' => ⟨_, hs'⟩
    exact hstore ⟨c, hc, hh⟩

end

section

variable {b : Build} {h : HandlerPtr} {d : ConnPtr} {o : LastStatement} {s s' : State}

lemma passes_ready {P : NativeCall → State → Prop} (r : Reply) (x : CMySQLHandler)
    (hr : (inSyncPassing b P h).admits .worker (.guard h) r s) (hx : s.heap h = some x) :
    x.ready = false :=
  ready_eq_false (hr.2.2.2 rfl x hx)

/-- A run that executes no statement on the handler. -/
lemma serial_leaves
    (hserial : Serial (inSyncPassing b (NativeCall.Leaves h) h) (Acts Action.steps) s s')
    (hs : Holding h d o s) : ∃ u, Holding h d ⟨o.last, u⟩ s' := by
  refine hserial.invariant (I := fun s => ∃ u, Holding h d ⟨o.last, u⟩ s) (fun t p s hp hI => ?_)
    ⟨o.unread, hs⟩
  obtain ⟨u, hs⟩ := hI
  obtain ⟨⟨n, rfl⟩ | ⟨i, rfl⟩⟩ := hp
  · rw [Action.code, wp_bind]
    exact native_leaves (o := ⟨o.last, u⟩) (fun r s hr => hr.2.1) (fun r hr => hr.2.2.1 n rfl) hs
  · exact wp_mono (workerVisit_holding passes_ready hs) fun _ _ hs' => ⟨u, hs'.1⟩

/-- A run that does not read its result either. -/
lemma serial_elsewhere
    (hserial : Serial (inSyncPassing b (NativeCall.Elsewhere h) h) (Acts Action.steps) s s')
    (hs : Holding h d o s) : Holding h d o s' := by
  refine hserial.invariant (I := Holding h d o) (fun t p s hp hs => ?_) hs
  obtain ⟨⟨n, rfl⟩ | ⟨i, rfl⟩⟩ := hp
  · rw [Action.code, wp_bind]
    exact native_holding (fun r hr => hr.2.2.1 n rfl) hs
  · exact wp_mono (workerVisit_holding passes_ready hs) fun _ _ hs' => hs'.1

/-- Visits of a worker that finds nothing to do for the handler. -/
lemma serial_visits {x : CMySQLHandler} (hx : s.heap h = some x)
    (hrest : x.queueData = [] ∨ x.m_bQueryProcessing = true)
    (hserial : Serial (inSync b) (Acts Action.visits) s s') (hs : Holding h d o s) :
    Holding h d o s' := by
  refine (hserial.invariant (I := fun s => Holding h d o s ∧ s.heap h = some x)
    (fun t p s hp hI => ?_) ⟨hs, hx⟩).1
  obtain ⟨i, rfl⟩ := hp
  refine wp_mono (workerVisit_holding (fun r y _ hy => ?_) hI.1) fun _ _ hs' => ⟨hs'.1, hs'.2.trans hI.2⟩
  obtain rfl : x = y := Option.some.inj (hI.2.symm.trans hy)
  exact ready_eq_false hrest

end

/-! ### A visit that goes wrong -/

/-- The ping fails, and the handler connects again. -/
def Stmt.Drops {β : Type} : Stmt β → Reply → Prop
  | .leave _ _ .mysql_ping, r => r.ok = false
  | .leave _ _ (.mysql_real_connect _ _ _ _ _), r => r.ok = true
  | .mysql_init _, r => r.ok = true
  | _, _ => True

def dropping (b : Build) : Machine Stmt Fault State ThreadId Reply :=
  (inSync b).restrict fun _ a r _ => a.Drops r

instance (b : Build) : IsPlugin (dropping b) b := ⟨fun _ _ _ => rfl⟩

/-- The handler is connected, and no statement has been executed on its connection. -/
def Unasked (h : HandlerPtr) (s : State) : Prop :=
  ∃ x d, s.heap h = some x ∧ x.m_bIsConnected = true ∧ x.m_stConnectionPtr = some d ∧
    (s.lib.conn d).last = none

section

variable {b : Build} {h : HandlerPtr} {x : CMySQLHandler} {s : State} {i : Nat}

/-- `Connect` gives the handler a connection without a statement. -/
lemma connect_drops {l : Libmysql} {w : List Event} (hs : Sees h x l w s)
    (hconnected : x.m_bIsConnected = false) :
    (connect h).wp (dropping b) .worker (fun _ _ => False) (fun _ => Unasked h) s := by
  refine hs.wp_this ?_
  rw [hconnected, if_neg Bool.false_ne_true]
  refine hs.wp_init (fun r _ hr hok _ => ?_) fun s₁ hs₁ => ?_
  · cases hok.symm.trans hr.2
  refine hs₁.wp_assign rfl fun s₂ hs₂ => hs₂.wp_this ?_
  rw [call, bind_bind]
  refine hs₂.wp_enter (fun hnull => ?_) fun c s₃ hc hs₃ => ?_
  · cases hnull
  cases hc
  refine hs₃.wp_leave fun now r s₄ hr hs₄ => ?_
  have hok : r.ok = true := hr.2
  simp only [Libmysql.answer, hok, Bool.not_true, Bool.false_eq_true, if_false]
  refine hs₄.wp_assign rfl fun s₅ hs₅ => ?_
  refine hs₅.wp_access (fun hnull => ?_) fun c _ s₆ hc hs₆ => ?_
  · cases hnull
  refine ⟨_, l.nextConn, hs₆.heap, rfl, rfl, ?_⟩
  rw [hs₆.lib]
  simp [Libmysql.answer, Libmysql.begin, Libmysql.newConn, Connection.report_last]

/-- The worker replaces the connection by one without a statement. -/
lemma workerVisit_drops (hi : s.SQLHandle[i]? = some h) (hx : s.heap h = some x)
    (hready : x.ready = true) (hc : x.m_stConnectionPtr ≠ none) :
    (workerVisit i).wp (dropping b) .worker (fun _ _ => False) (fun _ => Unasked h) s := by
  refine wp_entry hi (wp_guard_open hx hready ?_)
  have hs := (Sees.refl hx).record (e := .visit h) rfl
  rw [if_pos rfl, call, bind_bind]
  refine hs.wp_enter (fun hnull => absurd hnull hc) fun c s₁ _ hs₁ => ?_
  refine hs₁.wp_leave fun _ r s₂ hr hs₂ => ?_
  have hping : r.ok = false := hr.2
  simp only [Libmysql.answer, hping, Bool.false_eq_true, if_false, reconnectInBackground, bind_bind]
  refine hs₂.wp_assign rfl fun s₃ hs₃ => ?_
  rw [call, bind_bind]
  refine hs₃.wp_enter (fun hnull => absurd hnull hc) fun c' s₄ _ hs₄ => ?_
  refine hs₄.wp_leave fun now r' s₅ _ hs₅ => hs₅.wp_assign rfl fun s₆ hs₆ => ?_
  have hconnect {l : Libmysql} {y : CMySQLHandler} {s₇ : State} (hs₇ : Sees h y l s.writes s₇)
      (hy : y.m_bIsConnected = false) : (do
        let _ ← connect h
        pure ()
        .lift (.mark (.visitEnd h)) : Code Unit).wp (dropping b) .worker (fun _ _ => False)
        (fun _ => Unasked h) s₇ := by
    rw [wp_bind]
    refine wp_mono (connect_drops hs₇ hy) fun _ s₈ hs₈ => ?_
    rw [← bind_ret_right (Prog.lift _)]
    exact wp_mark_record hs₈
  cases hrows : r'.rows with
  | none =>
    simp only [Libmysql.answer, hrows, ne_eq, not_true_eq_false, if_false] at hs₆ ⊢
    exact hconnect hs₆ rfl
  | some set =>
    simp only [Libmysql.answer, hrows, ne_eq, reduceCtorEq, not_false_eq_true, if_true, bind_bind] at hs₆ ⊢
    refine hs₆.wp_onResult (fun hnull => ?_) fun p y s₇ _ _ hs₇ => hs₇.wp_assign rfl fun s₈ hs₈ => ?_
    · simp [Libmysql.live_newResult] at hnull
    · exact hconnect hs₈ rfl

lemma dropping_admits {t : ThreadId} {β : Type} (a : Stmt β) (s : State) :
    ∃ r, (dropping b).admits t a r s := by
  cases a with
  | leave p c f =>
    cases f with
    | mysql_ping => exact ⟨{ ok := false }, ⟨trivial, fun _ => rfl⟩, rfl⟩
    | mysql_real_query q => exact ⟨{ ok := false }, ⟨trivial, fun _ => rfl⟩, trivial⟩
    | mysql_store_result => exact ⟨{ rows := (s.lib.conn c).pending }, ⟨trivial, rfl⟩, trivial⟩
    | mysql_real_connect => exact ⟨{}, ⟨trivial, trivial⟩, rfl⟩
    | _ => exact ⟨{}, ⟨trivial, trivial⟩, trivial⟩
  | mysql_init p => exact ⟨{}, ⟨trivial, trivial⟩, rfl⟩
  | _ => exact ⟨{}, ⟨trivial, trivial⟩, trivial⟩

lemma exists_drops (b : Build) (hi : s.SQLHandle[i]? = some h) (hx : s.heap h = some x)
    (hready : x.ready = true) (hc : x.m_stConnectionPtr ≠ none) :
    ∃ s', Run (inSync b) .worker (workerVisit i) s (.ok ()) s' ∧ s'.SQLHandle = s.SQLHandle ∧
      Unasked h s' := by
  obtain ⟨o, s', hrun⟩ := IsPlugin.exists_run_admitted (M := dropping b) (t := .worker)
    (fun a s => dropping_admits a s) (P := Event.OfVisit) id (workerVisit_ofVisit .worker i) s
  have hstays : (workerVisit i).All (Stmt.Only .worker Event.Stays) :=
    all_only_mono (workerVisit_ofVisit .worker i) fun _ => Event.OfVisit.stays
  obtain ⟨hok, herr⟩ := (wp_iff _ _ _).mp (workerVisit_drops (b := b) hi hx hready hc)
  cases o with
  | error e => exact (herr e s' hrun).elim
  | ok u =>
    have htable := ((wp_iff _ _ _).mp (wp_table (M := dropping b) (s := s) hstays)).1 u s' hrun
    exact ⟨s', hrun.mono Machine.Step.of_restrict, htable, hok u s' hrun⟩

/-- The connection that is asked next has executed no statement. -/
lemma Unasked.not_reports {c : Cell} {d : ConnPtr} {now : Nat} (hs : Unasked h s)
    (hh : handlerAt s c = some h) : ¬AccessReports b h d now s := by
  intro hreports
  obtain ⟨x, d', hx, hconnected, hd, hlast⟩ := hs
  have hadmits {β : Type} (a : Stmt β) (s : State) : ∃ r, (inSync b).admits .main a r s := by
    obtain ⟨r, hr⟩ := dropping_admits (b := b) (t := .main) a s
    exact ⟨r, hr.1⟩
  obtain ⟨o, s', hrun⟩ := NativeCall.Looks.exists_run (M := inSync b) (n := .mysql_insert_id c)
    trivial hadmits s
  obtain ⟨hnow, v, rfl, htrace⟩ := (hreports _ _ _ _ _ rfl hh).1 hrun
  have hasked := (((wp_iff _ _ _).mp (asks_wp (M := inSync b) rfl hh hx hconnected hd)).1 v s' hrun).1
  rw [htrace] at hasked
  obtain rfl : d = d' := by simpa using hasked
  cases hnow.symm.trans hlast

end

/-! ### The outcome of a synchronous query -/

/-- A synchronous query that returns `1` has been executed at a position of the trace, and it is what
the natives that follow report: as long as the worker goes past the handler, whatever the scripts do
elsewhere, they report the query, and until they store its result the result is there. Through visits
alone it stays there exactly if the handler has nothing to do, or is waiting for its callback. -/
theorem synchronous_reported (b : Build) (p_Amx : List Amx) {q : CString} {extra c : Cell}
    {s₀ s₁ : State} (hs₀ : Serial (inSync b) (Acts Set.univ) (State.init p_Amx) s₀)
    (hrun : Run (inSync b) .main (native (.mysql_query q (-1) extra c)) s₀ (.ok 1) s₁) :
    ∃ h x d now, ExecutedAtOnce q c s₀ s₁ h x d now ∧
      (∀ s₂, Serial (inSyncPassing b (NativeCall.Leaves h) h) (Acts Action.steps) s₁ s₂ →
        AccessReports b h d now s₂) ∧
      (∀ s₂, Serial (inSyncPassing b (NativeCall.Elsewhere h) h) (Acts Action.steps) s₁ s₂ →
        StoreReports b h d (s₁.lib.conn d).lastStatement s₂) ∧
      ((∀ s₂, Serial (inSync b) (Acts Action.visits) s₁ s₂ →
          AccessReports b h d now s₂ ∧ StoreReports b h d (s₁.lib.conn d).lastStatement s₂) ↔
        x.queueData = [] ∨ x.m_bQueryProcessing = true) := by
  obtain ⟨h, x, d, now, hdone⟩ := ((wp_iff _ _ _).mp executedAtOnce_of_query).1 1 s₁ hrun rfl
  have hs₁ : Holding h d (s₁.lib.conn d).lastStatement s₁ := by
    have hfounded : Founded s₀ := serial_founded hs₀ ⟨.init_state p_Amx, fun _ _ => rfl⟩
    have hfounded₁ := ((wp_iff _ _ _).mp (wp_founded (native_wired _) hfounded)).1 1 s₁ hrun
    exact ⟨hfounded₁, ⟨_, hdone.after, hdone.connection, hdone.connected⟩, rfl⟩
  refine ⟨h, x, d, now, hdone, fun s₂ hserial => ?_, fun s₂ hserial => ?_, fun hall => ?_,
    fun hrest s₂ hserial => ?_⟩
  · obtain ⟨u, hs₂⟩ := serial_leaves hserial hs₁
    exact hs₂.accessReports hdone.last
  · exact (serial_elsewhere hserial hs₁).storeReports
  · by_contra hbusy
    obtain ⟨hqueue, hprocessing⟩ := not_or.mp hbusy
    have hh₁ : s₁.SQLHandle[(c - 1).toNat]? = some h := by
      rw [hdone.table]
      exact hdone.handle
    obtain ⟨s₂, hvisit, htable, hunasked⟩ := exists_drops b hh₁ hdone.after
      (by simp [CMySQLHandler.ready, hqueue, hprocessing, hdone.connected]) (by simp [hdone.connection])
    have hh₂ : handlerAt s₂ c = some h := by rwa [handlerAt, htable]
    exact hunasked.not_reports hh₂ (hall s₂ (.tail (.refl s₁) (.act ⟨_, rfl⟩) hvisit)).1
  · have hs₂ := serial_visits hdone.after hrest hserial hs₁
    exact ⟨hs₂.accessReports hdone.last, hs₂.storeReports⟩

/-- A visit calls no native. -/
lemma visits_calling {b : Build} {P : NativeCall → State → Prop} {s s' : State}
    (hserial : Serial (inSync b) (Acts Action.visits) s s') :
    Serial (inSyncCalling b P) (Acts Action.steps) s s' := by
  induction hserial with
  | refl => exact .refl _
  | tail _ hp hrun ih =>
    obtain ⟨i, rfl⟩ := hp
    refine ih.tail (.act (.inr ⟨i, rfl⟩)) (hrun.mono_all (P := fun a => a.called = none) ?_ ?_)
    · intro β a s o s' ha hst
      obtain ⟨r, hr, hrun⟩ := hst
      refine ⟨r, ⟨trivial, hr.2, fun n hn => ?_⟩, hrun⟩
      rw [ha] at hn
      cases hn
    · refine (workerVisit_ofVisit .worker i).mono fun a ha => ?_
      cases a with
      | mark m => cases m <;> first | rfl | exact ha.elim
      | _ => rfl

/-- The result of the query `r`. -/
def selected : ResultSet := ⟨[['a']], [[some ['1']]]⟩

/-- A server that answers, and refuses what comes while a result is unread. -/
def answersInSync : ∀ {β : Type}, Stmt β → State → Reply
  | _, .leave _ c .mysql_ping, s => { ok := (s.lib.conn c).pending.isNone }
  | _, .leave _ c (.mysql_real_query q), s =>
    { ok := (s.lib.conn c).pending.isNone, rows := if q = ['r'] then some selected else none }
  | _, .leave _ c .mysql_store_result, s => { rows := (s.lib.conn c).pending }
  | _, _, _ => {}

lemma answersInSync_admitted {b : Build} {t : ThreadId} {β : Type} (a : Stmt β) (s : State) :
    (inSync b).admits t a (answersInSync a s) s := by
  refine ⟨trivial, ?_⟩
  cases a with
  | leave p c f => cases f <;> simp [Stmt.InSync, answersInSync, Option.isSome_iff_ne_none]
  | _ => trivial

/-- The script connects, perhaps queues queries, which the worker may visit, and executes another one
at once. -/
def synchronous (queued : List Action) (q : CString) : Option (State × Cell × State) := do
  let s₀ ← play (inSync .win32) answersInSync
    (.native (.mysql_connect ['h'] ['u'] ['d'] ['p'] 3306) :: queued) (State.init [])
  let (v, s₁) ← (native (.mysql_query q (-1) 0 1)).eval (inSync .win32) .main answersInSync s₀
  pure (s₀, v, s₁)

lemma runs_of_synchronous {queued : List Action} {q : CString} {s₀ s₁ : State} {v : Cell}
    (h : synchronous queued q = some (s₀, v, s₁)) :
    Serial (inSync .win32) (Acts Set.univ) (State.init []) s₀ ∧
      Run (inSync .win32) .main (native (.mysql_query q (-1) 0 1)) s₀ (.ok v) s₁ := by
  simp only [synchronous, Option.bind_eq_bind, Option.bind_eq_some_iff] at h
  obtain ⟨s, hs, ⟨w, s'⟩, hrun, heq⟩ := h
  cases heq
  exact ⟨serial_of_play (fun _ => answersInSync_admitted) (fun a _ => Set.mem_univ a) hs,
    run_of_eval answersInSync_admitted _ hrun⟩

/-- The handler has no other query to execute, or another one waits for its callback while the next one
is queued; there the synchronous query leaves a result. -/
theorem synchronous_reported_idle :
    (∃ s₀ s₁ h x d now, ExecutedAtOnce ['q'] 1 s₀ s₁ h x d now ∧ x.queueData = [] ∧
      ∀ s₂, Serial (inSync .win32) (Acts Action.visits) s₁ s₂ →
        AccessReports .win32 h d now s₂ ∧ StoreReports .win32 h d (s₁.lib.conn d).lastStatement s₂) ∧
    ∃ s₀ s₁ h x d now, ExecutedAtOnce ['r'] 1 s₀ s₁ h x d now ∧ x.queueData.length = 1 ∧
      (s₁.lib.conn d).lastStatement.unread = some selected ∧
      ∀ s₂, Serial (inSync .win32) (Acts Action.visits) s₁ s₂ →
        AccessReports .win32 h d now s₂ ∧ StoreReports .win32 h d (s₁.lib.conn d).lastStatement s₂ := by
  have hreported {queued : List Action} {q : CString} {s₀ s₁ : State} {y : CMySQLHandler}
      (hs : synchronous queued q = some (s₀, 1, s₁)) (hh : handlerAt s₀ 1 = some 0)
      (hy : s₀.heap 0 = some y) (hrest : y.queueData = [] ∨ y.m_bQueryProcessing = true) :
      ∃ d now, ExecutedAtOnce q 1 s₀ s₁ 0 y d now ∧
        ∀ s₂, Serial (inSync .win32) (Acts Action.visits) s₁ s₂ →
          AccessReports .win32 0 d now s₂ ∧ StoreReports .win32 0 d (s₁.lib.conn d).lastStatement s₂ := by
    obtain ⟨hs₀, hquery⟩ := runs_of_synchronous hs
    obtain ⟨h, x, d, now, hdone, -, -, hiff⟩ := synchronous_reported .win32 [] hs₀ hquery
    cases hh.symm.trans hdone.handle
    cases hy.symm.trans hdone.before
    exact ⟨d, now, hdone, hiff.mpr hrest⟩
  have hidle : (synchronous [] ['q']).map (fun r => (r.2.1, handlerAt r.1 1,
      (r.1.heap 0).map (·.queueData))) = some (1, some 0, some []) := by decide
  have hwaiting : (synchronous [.native (.mysql_query ['p'] 1 0 1), .visit 0,
      .native (.mysql_query ['o'] 2 0 1)] ['r']).map (fun r => ((r.2.1, handlerAt r.1 1),
        (r.1.heap 0).map (fun x => (x.queueData.length, x.m_bQueryProcessing)), r.1.connection 0,
        (r.2.2.lib.conn 0).pending == some selected)) =
      some ((1, some 0), some (1, true), some 0, true) := by decide +kernel
  constructor
  · obtain ⟨⟨s₀, v, s₁⟩, hs, hx⟩ := Option.map_eq_some_iff.mp hidle
    simp only [Prod.mk.injEq, Option.map_eq_some_iff] at hx
    obtain ⟨rfl, hh, y, hy, hqueue⟩ := hx
    obtain ⟨d, now, hdone, hall⟩ := hreported hs hh hy (.inl hqueue)
    exact ⟨s₀, s₁, 0, y, d, now, hdone, hqueue, hall⟩
  · obtain ⟨⟨s₀, v, s₁⟩, hs, hx⟩ := Option.map_eq_some_iff.mp hwaiting
    simp only [Prod.mk.injEq, Option.map_eq_some_iff, beq_iff_eq] at hx
    obtain ⟨⟨rfl, hh⟩, ⟨y, hy, hqueue, hprocessing⟩, hconn, hunread⟩ := hx
    obtain ⟨z, hz, hd⟩ := Option.bind_eq_some_iff.mp hconn
    obtain ⟨d, now, hdone, hall⟩ := hreported hs hh hy (.inr hprocessing)
    cases hy.symm.trans hz
    cases hd.symm.trans hdone.connection
    exact ⟨s₀, s₁, 0, y, 0, now, hdone, hqueue, hunread, hall⟩

/-- The worker executes the query that was queued before. -/
theorem not_synchronous_reported :
    ¬∀ (b : Build) (p_Amx : List Amx) (q : CString) (extra c : Cell) (s₀ s₁ : State),
      Serial (inSync b) (Acts Set.univ) (State.init p_Amx) s₀ →
      Run (inSync b) .main (native (.mysql_query q (-1) extra c)) s₀ (.ok 1) s₁ →
      ∃ h x d now, ExecutedAtOnce q c s₀ s₁ h x d now ∧
        ∀ s₂, Serial (inSyncCalling b (NativeCall.Elsewhere h)) (Acts Action.steps) s₁ s₂ →
          AccessReports b h d now s₂ ∧ StoreReports b h d (s₁.lib.conn d).lastStatement s₂ := by
  intro hclaim
  have hrun : (synchronous [.native (.mysql_query ['p'] 1 0 1)] ['q']).bind (fun r =>
      (play (inSync .win32) answersInSync [.visit 0] r.2.2).bind fun s₂ =>
        ((native (.mysql_insert_id 1)).eval (inSync .win32) .main answersInSync s₂).map fun _ =>
          ((r.2.1, handlerAt r.1 1, r.2.2.connection 0), handlerAt s₂ 1, (r.2.2.lib.conn 0).last,
            (s₂.lib.conn 0).last)) =
      some ((1, some 0, some 0), some 0, some 21, some 31) := by decide
  obtain ⟨⟨s₀, v, s₁⟩, hs, hrun⟩ := Option.bind_eq_some_iff.mp hrun
  obtain ⟨s₂, hvisit, hrun⟩ := Option.bind_eq_some_iff.mp hrun
  obtain ⟨⟨w, s₃⟩, hinsert, hx⟩ := Option.map_eq_some_iff.mp hrun
  simp only [Prod.mk.injEq] at hx
  obtain ⟨⟨rfl, hh, hconn⟩, hh₂, hlast₁, hlast₂⟩ := hx
  obtain ⟨hs₀, hquery⟩ := runs_of_synchronous hs
  obtain ⟨h, x, d, now, hdone, hall⟩ := hclaim .win32 [] ['q'] 0 1 s₀ s₁ hs₀ hquery
  have hserial : Serial (inSync .win32) (Acts Action.visits) s₁ s₂ :=
    serial_of_play (fun _ => answersInSync_admitted) (by simp [Action.visits]) hvisit
  have hreports := (hall s₂ (visits_calling hserial)).1
  -- the handler and its connection are the ones of the run
  cases hh.symm.trans hdone.handle
  obtain ⟨y, hy, hd⟩ := Option.bind_eq_some_iff.mp hconn
  cases hdone.after.symm.trans hy
  cases hdone.connection.symm.trans hd
  cases hlast₁.symm.trans hdone.last
  have hinserted := run_of_eval answersInSync_admitted _ hinsert
  cases hlast₂.symm.trans ((hreports _ _ _ _ _ rfl hh₂).1 hinserted).1

end MySQLPlugin

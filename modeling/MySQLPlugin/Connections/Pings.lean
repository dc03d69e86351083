import MySQLPlugin.Connections.Owned

/-!
# Pings of the scripts

`mysql_ping` does not ask the server while queries wait: the worker is to do it. The worker leaves
out the handlers that are not connected, so the answer is right as long as a handler with queries that
wait stays connected.
-/

namespace MySQLPlugin

open Threads Prog CMySQLHandler Natives

/-- The worker takes care of the queries that wait. -/
def CMySQLHandler.Served (x : CMySQLHandler) : Prop := x.queueData = [] ∨ x.m_bIsConnected = true

/-- Every `1` that `mysql_ping` has returned was right: the handler was connected. -/
def PingsRight (es : List Event) : Prop :=
  ∀ es' c, es' ++ [.mark (.return (.mysql_ping c) 1)] <+: es → ∃ h x,
    (tableAt es')[(c - 1).toNat]? = some h ∧ objectAt h es' = some x ∧ x.m_bIsConnected = true

/-- An attempt to connect fails only for a handler without queries that wait. -/
def Stmt.KeepsServed {β : Type} : Stmt β → Reply → State → Prop
  | .leave h _ (.mysql_real_connect _ _ _ _ _), r, s =>
    r.ok = false → ∀ x ∈ s.heap h, x.queueData = []
  | _, _, _ => True

/-- The plugin with a server that lets the handlers connect whose queries wait. -/
def keepingServed (b : Build) : Machine Stmt Fault State ThreadId Reply :=
  (plugin b).restrict fun _ a r s => a.KeepsServed r s

instance (b : Build) : IsPlugin (keepingServed b) b := ⟨fun _ _ _ => rfl⟩

/-! ### Single steps -/

/-- The event is not a `1` returned by `mysql_ping`. -/
def Event.NoPing : Event → Prop
  | .mark (.return (.mysql_ping _) r) => r ≠ 1
  | _ => True

/-- What `mysql_ping` has returned was right, and the trace tells what has become of the handlers. -/
structure PingsKnown (s : State) : Prop where
  replayed : Replayed s
  right : PingsRight s.trace

/-- The handlers other than those of `P` are served. -/
def ServedBut (P : HandlerPtr → Prop) (s : State) : Prop :=
  ∀ p x, ¬ P p → s.heap p = some x → x.Served

/-- The assignment keeps a handler served. -/
def Assign.KeepsServed : Assign → Prop
  | .m_bIsConnected b => b = true
  | .queueData_push _ => False
  | _ => True

lemma Assign.KeepsServed.apply {a : Assign} (ha : a.KeepsServed) {x : CMySQLHandler}
    (hx : x.Served) : (a.apply x).Served := by
  cases a with
  | m_bIsConnected b => exact .inr ha
  | queueData_push q => exact ha.elim
  | queueData_pop => exact hx.imp_left fun h => by simp [Assign.apply, h]
  | queueData_popAll => exact .inl (by simp [Assign.apply])
  | _ => exact hx

/-- The event keeps the handlers other than those of `P` served. -/
def Event.KeepsServed (P : HandlerPtr → Prop) : Event → Prop
  | .assign _ p a => ¬ P p → a.KeepsServed
  | _ => True

/-- No queries of the handler wait. -/
def NoneWaits (h : HandlerPtr) (s : State) : Prop := ∀ x ∈ s.heap h, x.queueData = []

/-- Attempts to connect fail only for handlers without queries that wait. -/
def FailsUnneeded (M : Machine Stmt Fault State ThreadId Reply) : Prop :=
  ∀ {t h c host user pass db port r s}, M.admits t
    (.leave h c (.mysql_real_connect host user pass db port)) r s → r.ok = false → NoneWaits h s

lemma failsUnneeded_keepingServed (b : Build) : FailsUnneeded (keepingServed b) :=
  fun hr => hr.2

/-- The event changes no other handler than `h`, and adds no query. -/
def Event.AddsNone (h : HandlerPtr) : Event → Prop
  | .assign _ p a => p = h ∧ ∀ q, a ≠ .queueData_push q
  | _ => True

lemma Event.AddsNone.keepsServed {h : HandlerPtr} {e : Event} (he : e.AddsNone h) :
    e.KeepsServed (· = h) := by
  cases e with
  | assign u p a => exact fun hne => absurd he.1 hne
  | _ => trivial

section

variable {P : HandlerPtr → Prop} {h : HandlerPtr} {t : ThreadId} {e : Event} {s s' : State}

lemma PingsKnown.pass (hs : PingsKnown s) (heff : Effect t e s s') (he : e.NoPing) :
    PingsKnown s' where
  replayed := hs.replayed.step heff
  right es c hpre := by
    rcases heff.occurrence hpre with hpre | ⟨-, rfl⟩
    · exact hs.right es c hpre
    · exact absurd rfl he

/-- A ping returns. -/
lemma PingsKnown.ping {c v : Cell} (hs : PingsKnown s)
    (heff : Effect t (.mark (.return (.mysql_ping c) v)) s s')
    (hv : v = 1 → ∃ h x, handlerAt s c = some h ∧ s.heap h = some x ∧ x.m_bIsConnected = true) :
    PingsKnown s' where
  replayed := hs.replayed.step heff
  right es c' hpre := by
    rcases heff.occurrence hpre with hpre | ⟨rfl, heq⟩
    · exact hs.right es c' hpre
    · obtain ⟨rfl, rfl⟩ : c' = c ∧ 1 = v := by simpa using heq
      obtain ⟨h, x, hh, hx, hconn⟩ := hv rfl
      exact ⟨h, x, hs.replayed.table ▸ hh, hs.replayed.heap h ▸ hx, hconn⟩

lemma ServedBut.step (hs : ServedBut P s) (heff : Effect t e s s') (he : e.KeepsServed P) :
    ServedBut P s' := by
  intro p x hp hx
  rw [heff.heap p] at hx
  cases e with
  | new =>
    simp only [Event.onObject] at hx
    split_ifs at hx
    · cases hx
      exact .inl rfl
    · exact hs p x hp hx
  | delete =>
    simp only [Event.onObject] at hx
    split_ifs at hx
    exact hs p x hp hx
  | assign u q a =>
    simp only [Event.onObject] at hx
    split_ifs at hx with hq
    · subst hq
      obtain ⟨y, hy, rfl⟩ := Option.map_eq_some_iff.mp hx
      exact (he hp).apply (hs p y hp hy)
    · exact hs p x hp hx
  | _ => exact hs p x hp hx

lemma NoneWaits.step (hs : NoneWaits h s) (heff : Effect t e s s') (he : e.AddsNone h) :
    NoneWaits h s' := by
  intro x hx
  rw [heff.heap h] at hx
  cases e with
  | new =>
    simp only [Event.onObject] at hx
    split_ifs at hx
    · cases hx
      rfl
    · exact hs x hx
  | delete =>
    simp only [Event.onObject] at hx
    split_ifs at hx
    · cases hx
    · exact hs x hx
  | assign u p a =>
    obtain ⟨rfl, ha⟩ := he
    rw [Event.onObject, if_pos rfl] at hx
    obtain ⟨y, hy, rfl⟩ := Option.map_eq_some_iff.mp hx
    have hq := hs y hy
    cases a with
    | queueData_push q => exact absurd rfl (ha q)
    | queueData_pop => simp [Assign.apply, hq]
    | queueData_popAll => simp [Assign.apply]
    | _ => exact hq
  | _ => exact hs x hx

/-- All handlers are served if this one is. -/
lemma ServedBut.all (hs : ServedBut (· = h) s) (hx : ∀ x ∈ s.heap h, x.Served) :
    ServedBut (fun _ => False) s := by
  intro p x _ hp
  by_cases hph : p = h
  · exact hx x (hph ▸ hp)
  · exact hs p x hph hp

end

/-! ### The functions of a handler -/

section

variable {M : Machine Stmt Fault State ThreadId Reply} {b : Build} [IsPlugin M b] {t : ThreadId}
  {h : HandlerPtr} {s : State} {α : Type}

attribute [local simp] Stmt.Only Event.KeepsServed Event.AddsNone Assign.KeepsServed this call access
  assign onResult load lockMutex unlockMutex bind_bind ite_bind all_lift_bind all_ite

lemma disconnect_addsNone : (disconnect h).All (Stmt.Only t (Event.AddsNone h)) := by
  simp [disconnect, closeConnection, clearQueue]

include b

lemma wp_servedBut {P : HandlerPtr → Prop} {p : Code α}
    (hp : p.All (Stmt.Only t (Event.KeepsServed P))) (hs : ServedBut P s) :
    p.wp M t (fun _ _ => True) (fun _ => ServedBut P) s :=
  wp_of_only IsPlugin.step hp (fun _ _ _ he hI heff => hI.step heff he) (fun _ _ _ => trivial) hs

/-- A handler is served again when it connects, or when it has nothing to be served. -/
lemma connect_served (hM : FailsUnneeded M) (hs : ServedBut (· = h) s) :
    (connect h).wp M t (fun _ _ => True) (fun _ => ServedBut fun _ => False) s := by
  refine wp_this (fun _ => trivial) fun x hx => ?_
  rw [wp_ite]
  split_ifs with hconn
  · refine hs.all fun y hy => ?_
    obtain rfl : x = y := Option.some.inj (hx.symm.trans hy)
    exact .inr hconn
  refine wp_init fun o s₁ heff₁ => wp_assign (fun _ => trivial) fun s₂ heff₂ => ?_
  have hs₂ := (hs.step heff₁ trivial).step heff₂ fun hne => absurd rfl hne
  refine wp_this (fun _ => trivial) fun _ _ => ?_
  rw [call, bind_bind]
  refine wp_enter (fun _ => trivial) (fun _ _ _ => trivial) fun c s₃ heff₃ => ?_
  have hs₃ := hs₂.step heff₃ trivial
  refine wp_leave_reply fun r s₄ hr heff₄ => ?_
  have hs₄ := hs₃.step heff₄ trivial
  cases hok : r.ok with
  | false =>
    have hnone : NoneWaits h s₄ := by
      intro x hx
      exact hM hr hok x ((heff₄.heap h).symm.trans hx)
    simp only [Libmysql.answer, hok, Bool.not_false, if_true]
    refine wp_mono (wp_of_only (P := Event.AddsNone h)
      (I := fun s' => ServedBut (· = h) s' ∧ NoneWaits h s') IsPlugin.step (by simp)
      (fun _ _ _ he hI heff => ⟨hI.1.step heff he.keepsServed, hI.2.step heff he⟩)
      (fun _ _ _ => trivial) ⟨hs₄, hnone⟩) fun _ s' hs' => ?_
    exact hs'.1.all fun x hx => .inl (hs'.2 x hx)
  | true =>
    simp only [Libmysql.answer, hok, Bool.not_true, Bool.false_eq_true, if_false]
    refine wp_assign (fun _ => trivial) fun s₅ heff₅ => ?_
    have hs₅ := hs₄.step heff₅ fun hne => absurd rfl hne
    refine wp_servedBut (by simp) (hs₅.all fun x hx => ?_)
    obtain ⟨y, -, hy⟩ := heff₅.assigned
    obtain rfl := Option.some.inj (hy.symm.trans hx)
    exact .inr rfl

/-- `mysql_reconnect` and the worker connect a handler after some work on it. -/
lemma wp_thenConnect {p : Code Unit} (hM : FailsUnneeded M)
    (hp : p.All (Stmt.Only t (Event.AddsNone h))) (hs : ServedBut (fun _ => False) s) :
    (p >>= fun _ => connect h).wp M t (fun _ _ => True) (fun _ => ServedBut fun _ => False) s := by
  rw [wp_bind]
  refine wp_mono (wp_servedBut (all_only_mono hp fun _ => Event.AddsNone.keepsServed)
    fun p x _ hx => hs p x id hx) fun _ s' hs' => connect_served hM hs'

/-- A query is accepted for a handler that is connected. -/
lemma enqueue_served (q : MainInfo) (hs : ServedBut (fun _ => False) s) {x : CMySQLHandler}
    (hx : s.heap h = some x) (hconn : x.m_bIsConnected = true) :
    (enqueue h q).wp M t (fun _ _ => True) (fun _ => ServedBut fun _ => False) s := by
  let I : State → Prop := fun s' =>
    ServedBut (· = h) s' ∧ ∃ x, s'.heap h = some x ∧ x.m_bIsConnected = true
  have hI {s' : State} (hs' : I s') : ServedBut (fun _ => False) s' := by
    obtain ⟨hs', y, hy, hyconn⟩ := hs'
    refine hs'.all fun z hz => ?_
    obtain rfl : y = z := Option.some.inj (hy.symm.trans hz)
    exact .inr hyconn
  refine wp_mono (wp_of_only (I := I) (P := fun e => e = .lock t ∨ e = .relock t ∨ e = .unlock t ∨
    e = .assign t h (.queueData_push q)) IsPlugin.step (by simp [enqueue]) ?_ (fun _ _ _ => trivial)
    ⟨fun p y _ hy => hs p y id hy, x, hx, hconn⟩) fun _ s' hs' => hI hs'
  rintro e s₁ s₂ (rfl | rfl | rfl | rfl) ⟨hs₁, y, hy, hyconn⟩ heff
  · exact ⟨hs₁.step heff trivial, y, (heff.heap h).trans hy, hyconn⟩
  · exact ⟨hs₁.step heff trivial, y, (heff.heap h).trans hy, hyconn⟩
  · exact ⟨hs₁.step heff trivial, y, (heff.heap h).trans hy, hyconn⟩
  · obtain ⟨z, hz, hz'⟩ := heff.assigned
    obtain rfl : y = z := Option.some.inj (hy.symm.trans hz)
    exact ⟨hs₁.step heff fun hne => absurd rfl hne, _, hz', hyconn⟩

lemma body_served {n : NativeCall} (hM : FailsUnneeded M) (hs : ServedBut (fun _ => False) s) :
    (Natives.body n).wp M .main (fun _ _ => True) (fun _ => ServedBut fun _ => False) s := by
  by_cases hquiet : n.Quiet
  · refine wp_servedBut (all_only_mono (body_quiet .main hquiet) fun e he => ?_) hs
    cases e with
    | assign u p a => exact fun _ => by cases a <;> first | exact he.elim | trivial
    | _ => trivial
  cases n with
  | mysql_connect host user db pass port =>
    refine wp_nMysqlConnect (fun _ => trivial) (fun i h x hi hx hsame => ?_)
      (wp_append (fun _ => trivial) fun s₁ hnew => ?_)
    · exact wp_thenConnect hM (p := assign h (.m_bIsConnected false)) (by simp) hs
    · refine wp_mono (connect_served hM fun p x _ hx => ?_) fun _ s₂ hs₂ s₃ hpush =>
        hs₂.step hpush trivial
      exact hs.step hnew trivial p x id hx
  | mysql_reconnect c =>
    refine wp_withHandle (fun _ => hs) fun h _ => ?_
    have hp : (disconnect h >>= fun _ => assign h (.m_bIsConnected false)).All
        (Stmt.Only .main (Event.AddsNone h)) := disconnect_addsNone.bind fun _ => by simp
    rw [← bind_bind, ← bind_bind, wp_bind]
    exact wp_mono (wp_thenConnect hM hp hs) fun _ _ h => h
  | mysql_query query resultid extraid c =>
    refine wp_withHandle (fun _ => hs) fun h _ => wp_mark fun s₁ heff₁ => ?_
    have hs₁ := hs.step heff₁ trivial
    rw [wp_bind]
    refine wp_mono (Q := fun _ => ServedBut fun _ => False) ?_ fun _ s₂ hs₂ =>
      wp_mark fun s₃ heff₃ => hs₂.step heff₃ trivial
    refine wp_this (fun _ => trivial) fun x hx => ?_
    rw [wp_ite, wp_ite]
    split_ifs with hconn
    · exact hs₁
    · rw [wp_bind]
      exact wp_mono (enqueue_served _ hs₁ hx (by simpa using hconn)) fun _ _ h => h
    · exact wp_servedBut (by simp [nonThreadedQuery]) hs₁
  | mysql_query_callback index query callback extraid c =>
    refine wp_withHandle (fun _ => hs) fun h _ => wp_this (fun _ => trivial) fun x hx => ?_
    rw [wp_ite]
    split_ifs with hconn
    · exact hs
    · rw [wp_bind]
      exact wp_mono (enqueue_served _ hs hx (by simpa using hconn)) fun _ _ h => h
  | mysql_close c =>
    refine wp_nMysqlClose (fun _ => hs) fun h _ => ?_
    have hclosing : (closing h).All (Stmt.Only .main (Event.AddsNone h)) := by
      simp [closing, clearQueue, freeResult, disconnect, closeConnection]
    refine wp_mono (wp_servedBut (P := (· = h)) (all_only_mono hclosing fun _ => Event.AddsNone.keepsServed)
      fun p x _ hx => hs p x id hx) fun _ s₁ hs₁ s₂ s₃ s₄ _ hdelete herase hunlock => ?_
    have hs₂ := (hs₁.step hdelete trivial).all fun x hx => by
      rw [hdelete.heap h] at hx
      simp [Event.onObject] at hx
    exact (hs₂.step herase trivial).step hunlock trivial
  | mysql_ping c =>
    exact wp_servedBut (by simp [Natives.body, nMysqlPing, withHandle, ping, Debug]) hs
  | _ => exact absurd trivial hquiet

lemma workerVisit_served (i : Nat) (hM : FailsUnneeded M) (hs : ServedBut (fun _ => False) s) :
    (workerVisit i).wp M .worker (fun _ _ => True) (fun _ => ServedBut fun _ => False) s := by
  refine wp_at (fun _ => trivial) fun h _ => wp_guard (fun _ => trivial) (fun _ _ _ => hs)
    fun x s₁ _ _ heff₁ => ?_
  have hs₁ := hs.step heff₁ trivial
  rw [if_pos rfl, wp_bind]
  refine wp_mono (wp_servedBut (by simp) hs₁) fun ok s₂ hs₂ => ?_
  rw [wp_bind, wp_ite]
  have hend {s' : State} (hs' : ServedBut (fun _ => False) s') :
      (Prog.lift (.mark (.visitEnd h)) : Code Unit).wp M .worker (fun _ _ => True)
        (fun _ => ServedBut fun _ => False) s' := wp_servedBut (by simp) hs'
  split_ifs
  · have hall : (executeFront h).All (Stmt.Only .worker (Event.KeepsServed fun _ => False)) := by
      simp only [executeFront, this, all_lift_bind]
      refine ⟨trivial, fun x => ?_⟩
      cases x.queueData with
      | nil => trivial
      | cons q qs => simp [front, queryFailed]
    exact wp_mono (wp_servedBut hall hs₂) fun _ _ => hend
  · rw [reconnectInBackground_eq, ← bind_bind, wp_bind]
    exact wp_mono (wp_thenConnect hM (by simp [dropPending]) hs₂) fun _ _ => hend

end

/-! ### What `mysql_ping` returns -/

/-- `mysql_ping` for the handler that it finds. -/
def pingHandler (h : HandlerPtr) : Code Cell := do
  lockMutex
  if !(← this h).queueData.isEmpty then
    unlockMutex
    pure 1
  else
    unlockMutex
    pure (if (← ping h) = 0 then 1 else -1)

/-- The event leaves every handler connected or not connected. -/
def Event.KeepsConnection : Event → Prop
  | .new _ _ _ _ _ _ | .delete _ | .pushBack _ | .erase _ _ | .assign _ _ (.m_bIsConnected _) => False
  | _ => True

/-- The handler that the script means is connected. -/
def ConnectedAt (c : Cell) (s : State) : Prop :=
  ∃ h x, handlerAt s c = some h ∧ s.heap h = some x ∧ x.m_bIsConnected = true

lemma ConnectedAt.step {c : Cell} {t : ThreadId} {e : Event} {s s' : State} (hs : ConnectedAt c s)
    (heff : Effect t e s s') (he : e.KeepsConnection) : ConnectedAt c s' := by
  obtain ⟨h, x, hh, hx, hconn⟩ := hs
  have htable : s'.SQLHandle = s.SQLHandle := by
    rw [heff.table]
    cases e <;> first | exact he.elim | rfl
  rw [ConnectedAt, handlerAt, htable]
  have hx' := heff.heap h
  rw [hx] at hx'
  cases e with
  | new => exact he.elim
  | delete => exact he.elim
  | assign u p a =>
    by_cases hp : h = p
    · rw [Event.onObject, if_pos hp] at hx'
      refine ⟨h, _, hh, hx', ?_⟩
      cases a <;> first | exact he.elim | exact hconn
    · rw [Event.onObject, if_neg hp] at hx'
      exact ⟨h, x, hh, hx', hconn⟩
  | _ => exact ⟨h, x, hh, hx', hconn⟩

section

variable {M : Machine Stmt Fault State ThreadId Reply} {b : Build} [IsPlugin M b] {t : ThreadId}
  {h : HandlerPtr} {s : State} {x : CMySQLHandler} {c : Cell}

include b

/-- Taking or releasing the mutex. -/
lemma wp_mutex {α : Type} {p : Code Unit} {k : Unit → Code α} {Q : α → State → Prop}
    {o : Option CMySQLHandler} (hp : p = lockMutex ∨ p = unlockMutex) (ho : s.heap h = o)
    (hk : ∀ s', s'.heap h = o → (k ()).wp M t (fun _ _ => True) Q s') :
    (p >>= k).wp M t (fun _ _ => True) Q s := by
  have hall : p.All (Stmt.Only t fun e => e = .lock t ∨ e = .relock t ∨ e = .unlock t) := by
    rcases hp with rfl | rfl <;> simp [lockMutex, unlockMutex, Stmt.Only]
  rw [wp_bind]
  refine wp_mono (wp_of_only (I := fun s' => s'.heap h = o) IsPlugin.step hall ?_
    (fun _ _ _ => trivial) ho) fun _ s' ho' => hk s' ho'
  rintro e s₁ s₂ (rfl | rfl | rfl) ho₁ heff
  all_goals exact (heff.heap h).trans ho₁

/-- If queries wait, `mysql_ping` returns `1`. -/
lemma pingHandler_waiting (hm : s.mutex = none) (hx : s.heap h = some x) (hq : x.queueData ≠ []) :
    (pingHandler h).wp M t (fun _ _ => False) (fun v _ => v = 1) s := by
  refine wp_lockMutex hm fun s₁ heff₁ => wp_object ((heff₁.heap h).trans hx) ?_
  rw [if_pos (by simpa using hq)]
  exact wp_unlockMutex fun _ _ => rfl

/-- If none waits, `mysql_ping` needs a connection to return `1`. -/
lemma pingHandler_disconnected (hx : s.heap h = some x) (hconn : x.m_bIsConnected = false)
    (hq : x.queueData = []) :
    (pingHandler h).wp M t (fun _ _ => True) (fun v _ => v = -1) s := by
  refine wp_mutex (.inl rfl) hx fun s₁ hx₁ => wp_object hx₁ ?_
  rw [if_neg (by simp [hq])]
  refine wp_mutex (.inr rfl) hx₁ fun s₂ hx₂ => ?_
  rw [wp_bind]
  refine wp_mono (Q := fun v _ => v = 1) (wp_object hx₂ ?_) fun v _ hv => by simp [hv]
  simp [hconn]

/-- As long as all handlers are served, `mysql_ping` is right. -/
lemma nMysqlPing_right (hs : ServedBut (fun _ => False) s) :
    (nMysqlPing c).wp M .main (fun _ _ => True) (fun v s' => v = 1 → ConnectedAt c s') s := by
  refine wp_withHandle (fun _ h01 => absurd h01 (by decide)) fun h hh => ?_
  change (pingHandler h).wp M .main (fun _ _ => True) _ s
  cases hx : s.heap h with
  | none =>
    refine wp_mutex (.inl rfl) hx fun s₁ hx₁ => wp_this (fun _ => trivial) fun x hx' => ?_
    cases hx₁.symm.trans hx'
  | some x =>
    cases hconn : x.m_bIsConnected with
    | false =>
      have hempty : x.queueData = [] := (hs h x id hx).resolve_right (by simp [hconn])
      exact wp_mono (pingHandler_disconnected hx hconn hempty) fun v _ hv hv1 =>
        absurd (hv.symm.trans hv1) (by decide)
    | true =>
      have hall : (pingHandler h).All (Stmt.Only .main Event.KeepsConnection) := by
        simp [pingHandler, ping, Debug, this, lockMutex, unlockMutex, call, access, assign, bind_bind,
          ite_bind, all_lift_bind, all_ite, Stmt.Only, Event.KeepsConnection]
      exact wp_mono (wp_of_only (I := ConnectedAt c) IsPlugin.step hall
        (fun _ _ _ he hs heff => hs.step heff he) (fun _ _ _ => trivial) ⟨h, x, hh, hx, hconn⟩)
        fun _ _ hs' _ => hs'

end

/-! ### Runs -/

section

variable {M : Machine Stmt Fault State ThreadId Reply} {b : Build} [IsPlugin M b] {s : State}

omit [IsPlugin M b] in
lemma body_noPing (n : NativeCall) : (Natives.body n).All (Stmt.Only .main Event.NoPing) := by
  by_cases hopen : n.Open
  · refine all_only_mono (body_ofBody .main hopen) fun e he => ?_
    cases e with
    | mark m => cases m <;> first | exact he.elim | trivial
    | _ => trivial
  cases n with
  | mysql_close c =>
    simp [Natives.body, nMysqlClose, clearQueue, destruct, freeResult, load, onResult, disconnect,
      closeConnection, this, assign, call, lockMutex, unlockMutex, bind_bind, ite_bind, all_lift_bind,
      all_ite, Stmt.Only, Event.NoPing]
  | _ => exact absurd trivial hopen

include b

lemma native_known {n : NativeCall} (hM : FailsUnneeded M)
    (hs : PingsKnown s ∧ ServedBut (fun _ => False) s) :
    (native n).wp M .main (fun _ => PingsKnown)
      (fun _ s' => PingsKnown s' ∧ ServedBut (fun _ => False) s') s := by
  refine wp_native fun r s₁ _ heff₁ => ?_
  have hknown₁ := hs.1.pass heff₁ trivial
  have hserved₁ := hs.2.step heff₁ trivial
  have hknown : (Natives.body n).wp M .main (fun _ => PingsKnown) (fun _ => PingsKnown) s₁ :=
    wp_of_only IsPlugin.step (body_noPing n) (fun _ _ _ he hs heff => hs.pass heff he)
      (fun _ _ hs => hs) hknown₁
  have hbody := wp_and hknown (body_served (n := n) hM hserved₁)
  cases n with
  | mysql_ping c =>
    refine wp_mono (wp_and hbody (nMysqlPing_right hserved₁)) fun v s₂ hs₂ s₃ heff₃ => ?_
    exact ⟨hs₂.1.1.ping heff₃ hs₂.2, hs₂.1.2.step heff₃ trivial⟩
  | _ =>
    exact wp_mono hbody fun v s₂ hs₂ s₃ heff₃ => ⟨hs₂.1.pass heff₃ trivial, hs₂.2.step heff₃ trivial⟩

/-- In a run in which the handlers with queries that wait connect again, `mysql_ping` is right. -/
lemma ends_known {p_Amx : List Amx} (hs : Ends (keepingServed b) Set.univ (State.init p_Amx) s) :
    PingsKnown s := by
  refine ends_invariant (I := fun s => PingsKnown s ∧ ServedBut (fun _ => False) s)
    (confined_univ _) (fun n _ => Set.mem_univ n) (fun s hs => hs.1) (fun e s s' he hs heff => ?_)
    (fun n s _ hs => native_known (failsUnneeded_keepingServed b) hs) (fun i s hs => ?_) hs
    ⟨⟨replayed_init _, ?_⟩, ?_⟩
  · refine ⟨hs.1.pass heff ?_, hs.2.step heff ?_⟩
    · cases e <;> first | exact he.elim | trivial
    · cases e with
      | assign u p a => cases u <;> cases a <;> first | exact he.elim | exact fun _ => trivial
      | _ => trivial
  · refine wp_and (wp_of_only IsPlugin.step (workerVisit_ofVisit .worker i) (fun e s s' he hs heff =>
      hs.pass heff ?_) (fun _ _ hs => hs) hs.1) (workerVisit_served i (failsUnneeded_keepingServed b) hs.2)
    cases e with
    | mark m => cases m <;> first | exact he.elim | trivial
    | _ => trivial
  · intro es c hpre
    simp [State.init] at hpre
  · intro p x _ hx
    cases hx

end

/-- A native that finds its handler is its function on the handler, between two marks. -/
lemma wp_nativeAt {M : Machine Stmt Fault State ThreadId Reply} {b : Build} [IsPlugin M b]
    {E : Fault → State → Prop} {Q : Cell → Prop} {n : NativeCall} {c : Cell} {h : HandlerPtr}
    {f : HandlerPtr → Code Cell} {s : State} (hn : Natives.body n = withHandle c f)
    (hh : handlerAt s c = some h)
    (hf : ∀ s', s'.heap = s.heap → s'.mutex = s.mutex → (f h).wp M .main E (fun v _ => Q v) s') :
    (native n).wp M .main E (fun v _ => Q v) s := by
  refine wp_native fun r s₁ _ heff => ?_
  have hh₁ : handlerAt s₁ c = some h := by
    rw [handlerAt, show s₁.SQLHandle = s.SQLHandle from heff.table]
    exact hh
  rw [hn]
  refine wp_withHandle (fun hnone => ?_) fun p hp => ?_
  · cases hnone.symm.trans hh₁
  · obtain rfl : h = p := Option.some.inj (hh₁.symm.trans hp)
    exact wp_mono (hf s₁ (funext heff.heap) (heff.mutex (by simp))) fun _ _ hv _ _ => hv

lemma served_iff (b : Build) {s : State} {c : Cell} {h : HandlerPtr} {x : CMySQLHandler}
    (hh : handlerAt s c = some h) (hx : s.heap h = some x) (hm : s.mutex = none) :
    (∀ s', Run (plugin b) .main (native (.mysql_ping c)) s (.ok 1) s' → x.m_bIsConnected = true) ↔
      x.Served := by
  constructor
  · intro hright
    by_contra hwaits
    obtain ⟨hq, hconn⟩ := not_or.mp hwaits
    have hwp : (native (.mysql_ping c)).wp (plugin b) .main (fun _ _ => False) (fun v _ => v = 1) s :=
      wp_nativeAt (f := pingHandler) rfl hh fun s' hheap hmutex =>
        pingHandler_waiting (hmutex.trans hm) (hheap ▸ hx) hq
    obtain ⟨hok, herr⟩ := (wp_iff _ _ _).mp hwp
    obtain ⟨o, s', hrun⟩ := IsPlugin.exists_run_alone (M := plugin b) (t := .main)
      (fun _ _ => ⟨{}, trivial⟩) (native (.mysql_ping c)) (s := s) (fun u n hu => by simp [hm] at hu)
    cases o with
    | error e => exact herr e s' hrun
    | ok v =>
      obtain rfl := hok v s' hrun
      exact hconn (hright s' hrun)
  · intro hserved s' hrun
    by_contra hconn
    have hwp : (native (.mysql_ping c)).wp (plugin b) .main (fun _ _ => True) (fun v _ => v = -1) s :=
      wp_nativeAt (f := pingHandler) rfl hh fun s' hheap _ =>
        pingHandler_disconnected (hheap ▸ hx) (by simpa using hconn) (hserved.resolve_right hconn)
    exact absurd (((wp_iff _ _ _).mp hwp).1 1 s' hrun) (by decide)

/-- In a run in which no handler with queries that wait loses its connection, every `1` that
`mysql_ping` returns is right. In any state it is right exactly for a handler that is served. -/
theorem pings_right (b : Build) (p_Amx : List Amx) :
    (∀ s, Ends (keepingServed b) Set.univ (State.init p_Amx) s → PingsRight s.trace) ∧
    ∀ s c h x, handlerAt s c = some h → s.heap h = some x → s.mutex = none →
      ((∀ s', Run (plugin b) .main (native (.mysql_ping c)) s (.ok 1) s' → x.m_bIsConnected = true) ↔
        x.Served) :=
  ⟨fun _ hs => (ends_known hs).right, fun _ _ _ _ hh hx hm => served_iff b hh hx hm⟩

/-- A query waits when its connection is pinged. -/
def pingWaiting : List Action :=
  [.native (.mysql_connect [] [] [] [] 0), .native (.mysql_query ['q'] 7 3 1), .visit 0,
    .native (.mysql_ping 1)]

/-- The server goes away once a query waits. -/
def goesAway : ∀ {β : Type}, Stmt β → State → Reply
  | _, .leave h _ (.mysql_real_connect _ _ _ _ _), s =>
    { ok := (s.heap h).all (·.queueData.isEmpty) }
  | _, .leave _ _ .mysql_ping, _ => { ok := false }
  | _, _, _ => {}

/-- The worker does not get a connection; `mysql_ping` returns `1`, although the handler stays
without one. -/
theorem pings_wrong :
    ¬ ∀ (b : Build) (p_Amx : List Amx) (s : State),
      Ends (plugin b) Set.univ (State.init p_Amx) s → PingsRight s.trace := by
  intro hall
  have hrun : (play (plugin .win32) goesAway pingWaiting (State.init [])).map (fun s =>
      (s.trace.getLast?, (tableAt s.trace.dropLast)[0]?,
        (objectAt 0 s.trace.dropLast).map (·.m_bIsConnected)))
      = some (some (.mark (.return (.mysql_ping 1) 1)), some 0, some false) := by decide
  obtain ⟨s, hs, heval⟩ := Option.map_eq_some_iff.mp hrun
  simp only [Prod.mk.injEq] at heval
  obtain ⟨hlast, htable, hobject⟩ := heval
  have hserial : Serial (plugin .win32) (Acts Set.univ) (State.init []) s :=
    serial_of_play (M := plugin .win32) (fun _ _ _ => trivial) (fun _ _ => Set.mem_univ _) hs
  obtain ⟨es, hes⟩ := List.getLast?_eq_some_iff.mp hlast
  rw [hes, List.dropLast_concat] at htable hobject
  obtain ⟨h, x, hh, hx, hconn⟩ := hall .win32 [] s (.returns hserial) es 1 (by rw [hes])
  obtain rfl : 0 = h := Option.some.inj (htable.symm.trans hh)
  rw [hx] at hobject
  simp [hconn] at hobject

/-- The query stays with the connection, and `mysql_ping` is right. -/
theorem pings_right_waiting :
    ∃ s, Ends (keepingServed .win32) Set.univ (State.init []) s ∧
      s.trace.getLast? = some (.mark (.return (.mysql_ping 1) 1)) ∧ PingsRight s.trace := by
  have hrun : (play (keepingServed .win32) (fun _ _ => {}) [.native (.mysql_connect [] [] [] [] 0),
      .native (.mysql_query ['q'] 7 3 1), .native (.mysql_ping 1)] (State.init [])).map
      (fun s => s.trace.getLast?) = some (some (.mark (.return (.mysql_ping 1) 1))) := by decide
  obtain ⟨s, hs, hlast⟩ := Option.map_eq_some_iff.mp hrun
  have hserial : Serial (keepingServed .win32) (Acts Set.univ) (State.init []) s := by
    refine serial_of_play (M := keepingServed .win32) (fun t a s => ⟨trivial, ?_⟩)
      (fun _ _ => Set.mem_univ _) hs
    cases a with
    | leave h c f => cases f <;> simp [Stmt.KeepsServed]
    | _ => trivial
  exact ⟨s, .returns hserial, hlast, (pings_right .win32 []).1 s (.returns hserial)⟩

end MySQLPlugin

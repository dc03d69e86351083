import MySQLPlugin.Handles.Tick
import MySQLPlugin.Logic.Views
import MySQLPlugin.Threads.Cycles

/-!
# The calls of the mutex

`_lockMutex` and `_unlockMutex` are called by hand. A native, a `ProcessTick` and a sweep release the
mutex as often as they acquire it, and none of them asks for a mutex that it holds, but for
`mysql_close`: it locks the mutex and runs the destructor, whose `Disconnect` locks it again.
-/

namespace MySQLPlugin

open Threads Prog CMySQLHandler Natives

/-! ### Acquired and released -/

/-- How often thread `t` has acquired the mutex in the events `es`. -/
def acquired (t : ThreadId) (es : List Event) : Nat := es.count (.lock t) + es.count (.relock t)

/-- How often thread `t` has released the mutex. -/
def released (t : ThreadId) (es : List Event) : Nat := es.count (.unlock t)

/-- In a run that leaves the events `es` thread `t` never asks for the mutex while it holds it, and a
run that returns has released the mutex as often as it has acquired it. -/
structure LocksPaired {α : Type} (t : ThreadId) (o : Except Fault α) (es : List Event) : Prop where
  once : .relock t ∉ es
  released : ∀ v, o = .ok v → released t es = acquired t es

/-- Thread `t` holds the mutex. -/
def State.HeldBy (s : State) (t : ThreadId) : Prop := ∃ n, s.mutex = some (t, n)

/-- The event neither locks nor unlocks the mutex. -/
def Event.Unlocked : Event → Prop
  | .lock _ | .relock _ | .unlock _ => False
  | _ => True

lemma Event.Quiet.unlocked {e : Event} (he : e.Quiet) : e.Unlocked := by
  cases e <;> first | exact he.elim | trivial

/-- Since `s₀` thread `t` has been paired, and it holds the mutex once or not at all. -/
structure LockState (held : Bool) (t : ThreadId) (s₀ s : State) : Prop where
  trace : s₀.trace <+: s.trace
  mutex : if held then s.mutex = some (t, 1) else ¬s.HeldBy t
  once : .relock t ∉ s₀.since s
  count : acquired t (s₀.since s) = released t (s₀.since s) + held.toNat

section

variable {t : ThreadId} {s₀ s s' : State} {e : Event} {held : Bool}

lemma Effect.since (heff : Effect t e s s') (hpre : s₀.trace <+: s.trace) :
    s₀.since s' = s₀.since s ++ [e] := by
  rw [State.since, heff.trace, List.drop_append_of_le_length hpre.length_le]
  rfl

lemma LockState.refl (hs : ¬s.HeldBy t) : LockState false t s s where
  trace := List.prefix_refl _
  mutex := hs
  once := by simp [State.since]
  count := by simp [State.since, acquired, released]

lemma LockState.step (hs : LockState held t s₀ s) (heff : Effect t e s s') (he : e.Unlocked) :
    LockState held t s₀ s' := by
  have hmutex : s'.mutex = s.mutex := by
    rw [heff.mutex (by rintro rfl; exact he)]
    cases e <;> first | exact he.elim | rfl
  refine ⟨hs.trace.trans heff.prefix, ?_, ?_, ?_⟩
  · rw [State.HeldBy, hmutex]
    exact hs.mutex
  · rw [heff.since hs.trace, List.mem_append, List.mem_singleton]
    rintro (hmem | rfl)
    · exact hs.once hmem
    · exact he
  · rw [heff.since hs.trace]
    cases e <;> first | exact he.elim | simpa [acquired, released] using hs.count

lemma LockState.lock (hs : LockState false t s₀ s) (heff : Effect t (.lock t) s s') :
    LockState true t s₀ s' where
  trace := hs.trace.trans heff.prefix
  mutex := heff.mutex (by simp)
  once := by simpa [heff.since hs.trace] using hs.once
  count := by
    have hcount := hs.count
    simp [heff.since hs.trace, acquired, released, List.count_append] at hcount ⊢
    omega

lemma LockState.unlock (hs : LockState true t s₀ s) (heff : Effect t (.unlock t) s s') :
    LockState false t s₀ s' where
  trace := hs.trace.trans heff.prefix
  mutex := by
    have hmutex : s.mutex = some (t, 1) := hs.mutex
    rintro ⟨n, hn⟩
    rw [heff.mutex (by simp), hmutex] at hn
    simp [Event.onMutex] at hn
  once := by simpa [heff.since hs.trace] using hs.once
  count := by
    have hcount := hs.count
    simp [heff.since hs.trace, acquired, released, List.count_append] at hcount ⊢
    omega

/-- A run that ends where it has nothing locked is paired. -/
lemma LockState.paired {α : Type} {o : Except Fault α} (hok : ∀ v, o = .ok v → LockState false t s₀ s)
    (herr : ∀ e, o = .error e → .relock t ∉ s₀.since s) : LocksPaired t o (s₀.since s) := by
  cases o with
  | ok v =>
    have hs := hok v rfl
    exact ⟨hs.once, fun _ _ => hs.count.symm⟩
  | error e =>
    refine ⟨herr e rfl, ?_⟩
    rintro v ⟨⟩

end

/-! ### Programs -/

section

variable {M : Machine Stmt Fault State ThreadId Reply} {b : Build} [IsPlugin M b] {t : ThreadId}
  {s₀ s s' : State} {α β : Type} {held : Bool} {h : HandlerPtr}

include b

/-- A program that takes no lock. -/
lemma wp_unlocked {p : Code α} (hp : p.All (Stmt.Only t Event.Unlocked))
    (hs : LockState held t s₀ s) :
    p.wp M t (fun _ s => Event.relock t ∉ s₀.since s) (fun _ => LockState held t s₀) s :=
  wp_of_only IsPlugin.step hp (fun _ _ _ he hs heff => hs.step heff he) (fun _ _ hs => hs.once) hs

/-- A thread that does not hold the mutex locks it, or waits for ever. -/
lemma wp_lockFree {E : Fault → State → Prop} {Q : α → State → Prop} {k : Unit → Code α}
    (hm : ¬s.HeldBy t) (hk : ∀ s', Effect t (.lock t) s s' → (k ()).wp M t E Q s') :
    (lockMutex >>= k).wp M t E Q s := by
  cases hmutex : s.mutex with
  | none => exact wp_lockMutex hmutex hk
  | some m =>
    obtain ⟨u, n⟩ := m
    have hu : u ≠ t := by
      rintro rfl
      exact hm ⟨n, hmutex⟩
    refine wp_step (fun _ s' hst => ?_) fun e s' hst => ?_
    all_goals
      obtain ⟨r, _, hrun⟩ := IsPlugin.step hst
      simp only [plugin, Stmt.run, Build.lock, hmutex, if_neg hu] at hrun
      cases hrun

lemma wp_locked {Q : α → State → Prop} {k : Unit → Code α} (hs : LockState false t s₀ s)
    (hk : ∀ s', LockState true t s₀ s' → Effect t (.lock t) s s' →
      (k ()).wp M t (fun _ s => Event.relock t ∉ s₀.since s) Q s') :
    (lockMutex >>= k).wp M t (fun _ s => Event.relock t ∉ s₀.since s) Q s :=
  wp_lockFree hs.mutex fun s' heff => hk s' (hs.lock heff) heff

lemma wp_unlock {Q : α → State → Prop} {k : Unit → Code α} (hs : LockState true t s₀ s)
    (hk : ∀ s', LockState false t s₀ s' →
      (k ()).wp M t (fun _ s => Event.relock t ∉ s₀.since s) Q s') :
    (unlockMutex >>= k).wp M t (fun _ s => Event.relock t ∉ s₀.since s) Q s :=
  wp_unlockMutex fun s' heff => hk s' (hs.unlock heff)

/-- A program without locks between a lock and an unlock. -/
lemma wp_between {p : Code α} {f : α → Code β} (hp : p.All (Stmt.Only t Event.Unlocked))
    (hf : ∀ x s, LockState false t s₀ s →
      (f x).wp M t (fun _ s => Event.relock t ∉ s₀.since s) (fun _ => LockState false t s₀) s)
    (hs : LockState false t s₀ s) : (do
      lockMutex
      let x ← p
      unlockMutex
      f x).wp M t (fun _ s => Event.relock t ∉ s₀.since s) (fun _ => LockState false t s₀) s := by
  refine wp_locked hs fun s₁ hs₁ _ => ?_
  rw [wp_bind]
  exact wp_mono (wp_unlocked hp hs₁) fun x s₂ hs₂ => wp_unlock hs₂ fun s₃ hs₃ => hf x s₃ hs₃

end

/-! ### Natives other than `mysql_close` -/

section

attribute [local simp] Stmt.Only Event.Unlocked this load call access onResult assign bind_bind ite_bind
  all_lift_bind all_ite

section

variable (t : ThreadId) (h : HandlerPtr)

lemma clearQueue_unlocked : (clearQueue h).All (Stmt.Only t Event.Unlocked) := by
  simp [clearQueue]

lemma connect_unlocked : (connect h).All (Stmt.Only t Event.Unlocked) := by
  simp [connect]

lemma freeResult_unlocked : (freeResult h).All (Stmt.Only t Event.Unlocked) := by
  simp [freeResult]

end

variable {M : Machine Stmt Fault State ThreadId Reply} {b : Build} [IsPlugin M b] {t : ThreadId}
  {s₀ s : State} {h : HandlerPtr}

include b

lemma disconnect_paired (hs : LockState false t s₀ s) :
    (disconnect h).wp M t (fun _ s => Event.relock t ∉ s₀.since s)
      (fun _ => LockState false t s₀) s := by
  refine wp_this (fun _ => hs.once) fun x _ => ?_
  rw [wp_ite]
  split_ifs
  · exact hs
  · rw [wp_bind]
    refine wp_mono (Q := fun _ => LockState false t s₀) ?_ fun _ s₁ hs₁ => wp_unlocked (by simp) hs₁
    refine wp_this (fun _ => hs.once) fun x _ => ?_
    rw [wp_ite]
    split_ifs
    · exact hs
    · exact wp_between (clearQueue_unlocked t h) (fun _ s₁ hs₁ => wp_unlocked (by simp) hs₁) hs

/-- A threaded query is queued under the lock. -/
lemma enqueue_paired {q : MainInfo} {r : Cell} (hs : LockState false t s₀ s) :
    (do
      enqueue h q
      pure r : Code Cell).wp M t (fun _ s => Event.relock t ∉ s₀.since s)
        (fun _ => LockState false t s₀) s := by
  simp only [enqueue, bind_bind]
  exact wp_between (p := assign h (.queueData_push q)) (f := fun _ => .ret r) (by simp)
    (fun _ _ hs₁ => hs₁) hs

lemma oldQuery_paired {q : CString} {resultID extraID : Cell} (hs : LockState false t s₀ s) :
    (oldQuery h q resultID extraID).wp M t (fun _ s => Event.relock t ∉ s₀.since s)
      (fun _ => LockState false t s₀) s := by
  refine wp_this (fun _ => hs.once) fun x _ => ?_
  rw [wp_ite, wp_ite]
  split_ifs
  · exact hs
  · exact enqueue_paired hs
  · exact wp_unlocked (by simp [nonThreadedQuery]) hs

lemma nMysqlPing_paired {c : Cell} (hs : LockState false t s₀ s) :
    (nMysqlPing c).wp M t (fun _ s => Event.relock t ∉ s₀.since s)
      (fun _ => LockState false t s₀) s := by
  refine wp_withHandle (fun _ => hs) fun h _ => wp_locked hs fun s₁ hs₁ _ => ?_
  refine wp_this (fun _ => hs₁.once) fun x _ => ?_
  rw [wp_ite]
  split_ifs
  · exact wp_unlock hs₁ fun s₂ hs₂ => hs₂
  · exact wp_unlock hs₁ fun s₂ hs₂ => wp_unlocked (by simp [ping, Debug]) hs₂

lemma body_paired {n : NativeCall} (hn : n.Open) (hs : LockState false t s₀ s) :
    (body n).wp M t (fun _ s => Event.relock t ∉ s₀.since s) (fun _ => LockState false t s₀) s := by
  cases n with
  | mysql_close => exact hn.elim
  | mysql_connect host user db pass port =>
    exact wp_unlocked (nMysqlConnect_only t (fun _ => trivial) (connect_unlocked t) (fun _ => trivial)
      fun _ => trivial) hs
  | mysql_reconnect c =>
    refine wp_withHandle (fun _ => hs) fun h _ => ?_
    rw [wp_bind]
    refine wp_mono (disconnect_paired hs) fun _ s₁ hs₁ => wp_unlocked ?_ hs₁
    exact ⟨trivial, fun _ => (connect_unlocked t h).bind fun _ => trivial⟩
  | mysql_query q resultid extraid c =>
    refine wp_withHandle (fun _ => hs) fun h _ => wp_mark fun s₁ heff => ?_
    rw [wp_bind]
    exact wp_mono (oldQuery_paired (hs.step heff trivial)) fun _ s₂ hs₂ => wp_unlocked (by simp) hs₂
  | mysql_query_callback index q callback extraid c =>
    refine wp_withHandle (fun _ => hs) fun h _ => wp_this (fun _ => hs.once) fun x _ => ?_
    rw [wp_ite]
    split_ifs
    · exact hs
    · exact enqueue_paired hs
  | mysql_ping c => exact nMysqlPing_paired hs
  | _ =>
    exact wp_unlocked (all_only_mono (body_quiet t (by trivial)) fun _ => Event.Quiet.unlocked) hs

end

/-! ### `mysql_close` -/

/-- `mysql_close` comes to the second lock once it has got the mutex: the handler is connected, has a
connection object, and no stored result that has been freed. -/
def NativeCall.LocksTwice (s : State) : NativeCall → Prop
  | .mysql_close c => ∃ h x, handlerAt s c = some h ∧ s.heap h = some x ∧
      x.m_bIsConnected = true ∧ x.m_stConnectionPtr ≠ none ∧
      ∀ p, x.result = some p → (s.lib.live p).isSome = true
  | _ => False

/-- `Disconnect` leaves the connection of the handler alone. -/
def CMySQLHandler.Shut (x : CMySQLHandler) : Prop :=
  x.m_bIsConnected = false ∨ x.m_stConnectionPtr = none

/-- The destructor does not come to the lock of `Disconnect`, where the results `dead` have been
freed. -/
def CMySQLHandler.Stops (dead : Set ResPtr) (x : CMySQLHandler) : Prop :=
  x.Shut ∨ ∃ p ∈ dead, x.result = some p

/-- The results that are not alive. -/
def State.dead (s : State) : Set ResPtr := {p | (s.lib.live p).isSome = false}

lemma Effect.dead {t : ThreadId} {e : Event} {s s' : State} (heff : Effect t e s s')
    (he : e.KeepsResults) : s'.dead = s.dead := by
  simp only [State.dead, (heff.results he).2]

section

variable {M : Machine Stmt Fault State ThreadId Reply} {b : Build} [IsPlugin M b] {t : ThreadId}
  {s₀ s : State} {h : HandlerPtr}

include b

/-- `FreeResult` of a handler that stops there, or in `Disconnect`. -/
lemma freeResult_stops (hx : ∀ x ∈ s.heap h, x.Stops s.dead) :
    (freeResult h).wp M t (fun _ _ => True) (fun _ s' => ∀ x ∈ s'.heap h, x.Shut) s := by
  refine wp_this (fun _ => trivial) fun x hx₀ => ?_
  have hs := Sees.refl hx₀
  rw [wp_ite]
  split_ifs with hconn
  · intro y hy
    obtain rfl : x = y := Option.some.inj (hx₀.symm.trans hy)
    exact .inl (by simpa using hconn)
  rcases hx x hx₀ with (hconn' | hptr) | ⟨p, hp, hresult⟩
  · simp [hconn'] at hconn
  · refine hs.wp_loadAny fun v s₁ _ hs₁ => ?_
    have hshut {s' : State} {y : CMySQLHandler} {l : Libmysql} {w : List Event}
        (hs' : Sees h y l w s') (hy : y.m_stConnectionPtr = none) : ∀ x ∈ s'.heap h, x.Shut := by
      intro z hz
      obtain rfl : y = z := Option.some.inj (hs'.heap.symm.trans hz)
      exact .inr hy
    rw [wp_ite]
    split_ifs
    · exact hshut hs₁ hptr
    · refine hs₁.wp_onResult (fun _ _ _ => trivial) fun q y s₂ _ _ hs₂ => ?_
      refine hs₂.wp_assign rfl fun s₃ hs₃ => hs₃.wp_assign rfl fun s₄ hs₄ => hshut hs₄ hptr
  · refine hs.wp_loadSet (m := .m_stResult) (result_eq_some.mp hresult) ?_
    rw [if_neg (by simp)]
    refine hs.wp_onResult (fun _ _ _ => trivial) fun q y s₂ hq hlive hs₂ => ?_
    obtain rfl : p = q := Option.some.inj hq
    have hdead : (s.lib.live p).isSome = false := hp
    rw [hlive] at hdead
    cases hdead

lemma disconnect_shut (hs : LockState true t s₀ s) (hx : ∀ x ∈ s.heap h, x.Shut) :
    (disconnect h).wp M t (fun _ s => Event.relock t ∉ s₀.since s)
      (fun _ => LockState true t s₀) s := by
  refine wp_this (fun _ => hs.once) fun x hx₀ => ?_
  rw [wp_ite]
  split_ifs with hconn
  · exact hs
  · have hptr : x.m_stConnectionPtr = none :=
      (hx x hx₀).resolve_left (by simpa using hconn)
    rw [wp_bind]
    refine wp_mono (Q := fun _ => LockState true t s₀) ?_ fun _ s₁ hs₁ =>
      wp_unlocked (p := assign h _) (by simp [Stmt.Only, Event.Unlocked, assign]) hs₁
    refine wp_object hx₀ ?_
    rw [if_pos hptr]
    exact hs

/-- The first part of `mysql_close` for a handler whose destructor does not come to the second lock. -/
lemma closing_paired (hs : LockState false t s₀ s) (hx : ∀ x ∈ s.heap h, x.Stops s.dead) :
    (closing h).wp M t (fun _ s => Event.relock t ∉ s₀.since s) (fun _ => LockState true t s₀) s := by
  refine wp_locked hs fun s₁ hs₁ heff => ?_
  have hkeeps : ∀ (e : Event) (s₂ s₃ : State), e = .assign t h .queueData_popAll →
      LockState true t s₀ s₂ ∧ s₂.dead = s.dead ∧ (∀ x ∈ s₂.heap h, x.Stops s.dead) →
      Effect t e s₂ s₃ →
      LockState true t s₀ s₃ ∧ s₃.dead = s.dead ∧ ∀ x ∈ s₃.heap h, x.Stops s.dead := by
    rintro e s₂ s₃ rfl ⟨hs₂, hdead, hx₂⟩ heff
    exact ⟨hs₂.step heff trivial, (heff.dead trivial).trans hdead,
      heff.clears (R := fun x => x.Stops s.dead) trivial (fun _ hx => hx) hx₂⟩
  have hx₁ : ∀ x ∈ s₁.heap h, x.Stops s.dead := by
    rw [heff.heap h]
    exact hx
  rw [wp_bind]
  refine wp_mono (wp_of_only (P := (· = .assign t h .queueData_popAll)) IsPlugin.step
    (by simp [clearQueue, this, assign, all_lift_bind, all_ite, Stmt.Only]) hkeeps
    (fun _ _ hs => hs.1.once) ⟨hs₁, heff.dead trivial, hx₁⟩) fun _ s₂ ⟨hs₂, hdead₂, hx₂⟩ => ?_
  rw [wp_bind]
  have hstops : (freeResult h).wp M t (fun _ _ => True) (fun _ s' => ∀ x ∈ s'.heap h, x.Shut) s₂ :=
    freeResult_stops (hdead₂ ▸ hx₂)
  exact wp_mono (wp_and (wp_unlocked (freeResult_unlocked t h) hs₂) hstops) fun _ s₃ hs₃ =>
    disconnect_shut hs₃.1 hs₃.2

end

/-! ### The second lock -/

/-- The plugin where an unassigned pointer holds `NULL`. -/
def zeroed (b : Build) : Machine Stmt Fault State ThreadId Reply :=
  (plugin b).restrict fun _ _ r _ => r.pointer = none

instance (b : Build) : IsPlugin (zeroed b) b := ⟨fun _ _ _ => rfl⟩

/-- Thread `t` has asked for the mutex while it held it. -/
def Relocked (t : ThreadId) (s₀ s : State) : Prop :=
  s₀.trace <+: s.trace ∧ .relock t ∈ s₀.since s

section

variable {M : Machine Stmt Fault State ThreadId Reply} {b : Build} [IsPlugin M b] {t : ThreadId}
  {s₀ s : State} {h : HandlerPtr} {α : Type}

lemma Relocked.step {e : Event} {s' : State} (hs : Relocked t s₀ s) (heff : Effect t e s s') :
    Relocked t s₀ s' := by
  refine ⟨hs.1.trans heff.prefix, ?_⟩
  rw [heff.since hs.1]
  exact List.mem_append_left _ hs.2

lemma LockState.relock {s' : State} (hs : LockState true t s₀ s) (heff : Effect t (.relock t) s s') :
    Relocked t s₀ s' := by
  refine ⟨hs.trace.trans heff.prefix, ?_⟩
  rw [heff.since hs.trace]
  exact List.mem_append_right _ (List.mem_singleton.mpr rfl)

include b

lemma wp_relocked {p : Code α} (hs : Relocked t s₀ s) :
    p.wp M t (fun _ => Relocked t s₀) (fun _ => Relocked t s₀) s :=
  wp_of_only IsPlugin.step (all_only_true p) (fun _ _ _ _ hs heff => hs.step heff) (fun _ _ hs => hs) hs

/-- The mutex is locked by the thread that holds it. -/
lemma wp_lockAgain {k : Unit → Code α} (hs : LockState true t s₀ s) :
    (lockMutex >>= k).wp M t (fun _ => Relocked t s₀) (fun _ => Relocked t s₀) s := by
  have hmutex : s.mutex = some (t, 1) := hs.mutex
  have hrelock {o : Except Fault Unit} {s' : State} (hst : (plugin b).Step t .lockMutex s o s') :
      Relocked t s₀ s' := by
    obtain ⟨r, _, hrun⟩ := hst
    have honly : Stmt.lockMutex.Only t fun e => e = .lock t ∨ e = .relock t := ⟨.inl rfl, .inr rfl⟩
    rcases Stmt.run_effect (r := r) honly hrun with rfl | ⟨e, rfl | rfl, heff⟩
    · simp only [plugin, Stmt.run, Build.lock, hmutex, if_true] at hrun
      cases b
      all_goals
        simp only [Option.some.injEq, Prod.mk.injEq] at hrun
        have htrace := congrArg State.trace hrun.2
        simp at htrace
    · have hfree : s.mutex = none := heff.occurs
      cases hfree.symm.trans hmutex
    · exact hs.relock heff
  exact wp_step (fun _ _ hst => wp_relocked (hrelock (IsPlugin.step hst)))
    fun _ _ hst => hrelock (IsPlugin.step hst)

omit [IsPlugin M b] in
/-- `FreeResult` in the destructor of a connected handler whose result has not been freed. -/
lemma freeResult_returns {x : CMySQLHandler} (hx : s.heap h = some x) (hconn : x.m_bIsConnected = true)
    (hptr : x.m_stConnectionPtr ≠ none) (hlive : ∀ p, x.result = some p → (s.lib.live p).isSome = true) :
    (do
      clearQueue h
      freeResult h).wp (zeroed b) t (fun _ _ => False) (fun _ s' => ∃ x', s'.heap h = some x' ∧
        x'.m_bIsConnected = true ∧ x'.m_stConnectionPtr ≠ none) s := by
  have hclear : (clearQueue h).wp (zeroed b) t (fun _ _ => False) (fun _ s' => ∃ q,
      Sees h { x with queueData := q } s.lib s.writes s') s := by
    have hs := Sees.refl hx
    refine hs.wp_this ?_
    rw [wp_ite]
    split_ifs
    · rw [← bind_ret_right (assign h _)]
      exact hs.wp_assign rfl fun s₁ hs₁ => ⟨_, hs₁⟩
    · exact ⟨_, hs⟩
  rw [wp_bind]
  refine wp_mono hclear fun _ s₁ ⟨q, hs₁⟩ => hs₁.wp_this ?_
  rw [wp_ite, if_neg (by simp [hconn])]
  have hrest {v : Option ResPtr} {s₂ : State} (hs₂ : Sees h { x with queueData := q } s.lib s.writes s₂)
      (hv : ∀ p, v = some p → x.result = some p) :
      (if v = none then pure true else do
        onResult v .mysql_free_result
        assign h (.m_stResult none)
        assign h (.m_stRow none)
        pure true : Code Bool).wp (zeroed b) t (fun _ _ => False) (fun _ s' => ∃ x',
          s'.heap h = some x' ∧ x'.m_bIsConnected = true ∧ x'.m_stConnectionPtr ≠ none) s₂ := by
    cases v with
    | none => exact ⟨_, hs₂.heap, hconn, hptr⟩
    | some p =>
      rw [if_neg (by simp)]
      refine hs₂.wp_onResult (fun hdead => ?_) fun _ _ s₃ _ _ hs₃ => ?_
      · have halive := hlive p (hv p rfl)
        rw [show s.lib.live p = none from hdead] at halive
        cases halive
      · exact hs₃.wp_assign rfl fun s₄ hs₄ => hs₄.wp_assign rfl fun s₅ hs₅ =>
          ⟨_, hs₅.heap, hconn, hptr⟩
  refine hs₁.wp_load (fun v hv => ?_) fun _ r s₂ hr hs₂ => ?_
  · exact hrest hs₁ fun p hp => result_eq_some.mpr (hp ▸ hv)
  · have hnull : r.pointer = none := hr.2
    refine hrest hs₂ fun p hp => ?_
    simp [Member.garbage, hnull] at hp

omit [IsPlugin M b] in
/-- The first part of `mysql_close` comes to the second lock. -/
lemma closing_relocks {x : CMySQLHandler} (hs : LockState false t s₀ s) (hm : s.mutex = none)
    (hx : s.heap h = some x) (hconn : x.m_bIsConnected = true) (hptr : x.m_stConnectionPtr ≠ none)
    (hlive : ∀ p, x.result = some p → (s.lib.live p).isSome = true) :
    (closing h).wp (zeroed b) t (fun _ => Relocked t s₀) (fun _ => Relocked t s₀) s := by
  have hbody : (clearQueue h >>= fun _ => freeResult h).All (Stmt.Only t Event.Unlocked) :=
    (clearQueue_unlocked t h).bind fun _ => freeResult_unlocked t h
  refine wp_lockMutex hm fun s₁ heff => ?_
  have hx₁ : s₁.heap h = some x := (heff.heap h).trans hx
  have hlive₁ : ∀ p, x.result = some p → (s₁.lib.live p).isSome = true := by
    intro p hp
    rw [(heff.results trivial).2 p]
    exact hlive p hp
  rw [← bind_bind, wp_bind]
  have hfree := wp_and (freeResult_returns (b := b) hx₁ hconn hptr hlive₁)
    (wp_unlocked (M := zeroed b) hbody (hs.lock heff))
  refine wp_mono (Q := fun _ s' => (∃ x', s'.heap h = some x' ∧ x'.m_bIsConnected = true ∧
    x'.m_stConnectionPtr ≠ none) ∧ LockState true t s₀ s') ?_ fun _ s₂ hs₂ => ?_
  · exact (wp_iff _ _ _).mpr ⟨((wp_iff _ _ _).mp hfree).1,
      fun e s' hrun => (((wp_iff _ _ _).mp hfree).2 e s' hrun).elim⟩
  · obtain ⟨⟨x', hx', hconn', hptr'⟩, hs₂⟩ := hs₂
    refine wp_object hx' ?_
    rw [if_neg (by simp [hconn'])]
    rw [wp_bind]
    refine wp_mono (Q := fun _ => Relocked t s₀) ?_ fun _ s₃ hs₃ => wp_relocked hs₃
    refine wp_object hx' ?_
    rw [if_neg hptr']
    exact wp_lockAgain hs₂

end

/-! ### Every native, every `ProcessTick`, every sweep -/

section

variable {M : Machine Stmt Fault State ThreadId Reply} {b : Build} [IsPlugin M b] {s₀ s : State}

include b

/-- A native that does not lock twice is paired. -/
lemma native_paired {n : NativeCall}
    (hM : ∀ r, M.admits .main (.mark (.call n)) r s → ¬n.LocksTwice s)
    (hs : LockState false .main s₀ s) :
    (native n).wp M .main (fun _ s => Event.relock .main ∉ s₀.since s)
      (fun _ => LockState false .main s₀) s := by
  refine wp_native fun r s₁ hr heff => ?_
  have hn := hM r hr
  have hs₁ := hs.step heff trivial
  by_cases hopen : n.Open
  · exact wp_mono (body_paired hopen hs₁) fun _ _ hs₂ _ heff₂ => hs₂.step heff₂ trivial
  cases n with
  | mysql_close c =>
    refine wp_nMysqlClose (fun _ _ heff₂ => hs₁.step heff₂ trivial) fun h hh => ?_
    have hstops : ∀ x ∈ s₁.heap h, x.Stops s₁.dead := by
      intro x hx
      by_contra hstops
      simp only [CMySQLHandler.Stops, CMySQLHandler.Shut, not_or, not_exists, not_and] at hstops
      refine hn ⟨h, x, ?_, (heff.heap h).symm.trans hx, by simpa using hstops.1.1, hstops.1.2, ?_⟩
      · rw [handlerAt, ← show s₁.SQLHandle = s.SQLHandle from heff.table]
        exact hh
      · intro p hp
        by_contra hdead
        refine hstops.2 p ?_ hp
        rw [heff.dead trivial]
        exact Bool.eq_false_iff.mpr hdead
    refine wp_mono (closing_paired hs₁ hstops) fun _ s₂ hs₂ s₃ s₄ s₅ _ hdelete herase hunlock => ?_
    intro s₆ hreturn
    exact (((hs₂.step hdelete trivial).step herase trivial).unlock hunlock).step hreturn trivial
  | _ => exact absurd trivial hopen

/-- `mysql_close` of a connected handler locks the free mutex twice. -/
lemma native_relocks {n : NativeCall} (hm : s.mutex = none) (hn : n.LocksTwice s) :
    ∃ (o : Except Fault Cell) (s' : State), Run (plugin b) .main (native n) s o s' ∧
      .relock .main ∈ s.since s' := by
  have hwp : (native n).wp (zeroed b) .main (fun _ => Relocked .main s) (fun _ => Relocked .main s) s := by
    cases n with
    | mysql_close c =>
      obtain ⟨h, x, hh, hx, hconn, hptr, hlive⟩ := hn
      have hs : LockState false .main s s := .refl (by simp [State.HeldBy, hm])
      refine wp_native fun r s₁ _ heff => ?_
      have hhandler : handlerAt s₁ c = some h := by
        rw [handlerAt, show s₁.SQLHandle = s.SQLHandle from heff.table]
        exact hh
      refine wp_nMysqlClose (fun hnone => ?_) fun p hp => ?_
      · cases hnone.symm.trans hhandler
      · obtain rfl : h = p := Option.some.inj (hhandler.symm.trans hp)
        refine wp_mono (closing_relocks (hs.step heff trivial) ((heff.mutex (by simp)).trans hm)
          ((heff.heap h).trans hx) hconn hptr fun p hp => ?_) fun _ s₂ hs₂ s₃ s₄ s₅ _ hd he hu s₆ hr => ?_
        · rw [(heff.results trivial).2 p]
          exact hlive p hp
        · exact (((hs₂.step hd).step he).step hu).step hr
    | _ => exact hn.elim
  obtain ⟨o, s', hrun⟩ := IsPlugin.exists_run_alone (M := zeroed b) (t := .main)
    (fun _ _ => ⟨{}, trivial, rfl⟩) (native n) (s := s) (by simp [State.FreeFor, hm])
  refine ⟨o, s', hrun.mono Machine.Step.of_restrict, ?_⟩
  cases o with
  | ok v => exact (((wp_iff _ _ _).mp hwp).1 v s' hrun).2
  | error e => exact (((wp_iff _ _ _).mp hwp).2 e s' hrun).2

end

/-- What a script calls never locks twice. -/
abbrev lockingOnce (b : Build) : Machine Stmt Fault State ThreadId Reply :=
  calling b fun n s => ¬n.LocksTwice s

section

variable {b : Build} {s s' : State}

/-- A `ProcessTick`, whatever natives its callbacks call. -/
lemma tick_paired (hs : ¬s.HeldBy .main) {o : Except Fault Unit}
    (htick : Trip (lockingOnce b) (Starts {.processTick}) .main .idle .idle s o s') :
    LocksPaired .main o (s.since s') := by
  have hends := htick.ends (J := fun _ => LockState false .main s) (Q := LockState false .main s)
    (E := fun _ s' => Event.relock .main ∉ s.since s') (fun x p s₁ hp hs₁ => ?_) (.refl hs)
  · exact LockState.paired (fun _ ho => hends.1 ho) hends.2
  suffices hwp : p.wp (lockingOnce b) .main (fun _ s' => Event.relock .main ∉ s.since s')
      (fun _ => LockState false .main s) s₁ from
    wp_mono hwp fun _ _ hs₂ => ⟨fun _ => hs₂, fun _ => hs₂⟩
  cases hp with
  | call hm =>
    obtain rfl := Set.mem_singleton_iff.mp hm
    exact wp_unlocked (by simp [MainCall.code, processTick, all_lift_bind, all_ite, Stmt.Only,
      Event.Unlocked]) hs₁
  | tick i =>
    refine wp_size ?_
    rw [wp_ite]
    split_ifs
    · rw [wp_bind]
      refine wp_mono (wp_tickVisit (confined_univ _) (fun _ _ hs => hs.once) (fun e s₂ s₃ he hs₂ heff => ?_)
        (fun n s₂ _ hs₂ => native_paired (fun r hr => hr.2 n rfl) hs₂) hs₁) fun _ _ hs₂ => hs₂
      exact hs₂.step heff (by cases e <;> first | exact he.elim | trivial)
    · exact wp_unlocked (by simp [all_lift_bind, Stmt.Only, Event.Unlocked]) hs₁

/-- A sweep of the worker. -/
lemma sweep_paired (hs : ¬s.HeldBy .worker) {o : Except Fault Unit}
    (hsweep : Trip (plugin b) (Starts {.processTick}) .worker .asleep .asleep s o s') :
    LocksPaired .worker o (s.since s') := by
  have hsleep {s₁ : State} (hs₁ : LockState true .worker s s₁) :
      (unlockMutex >>= fun _ => pure Point.asleep).wp (plugin b) .worker
        (fun _ s' => Event.relock .worker ∉ s.since s')
        (fun y s' => (y = .asleep → LockState false .worker s s') ∧
          (y ≠ .asleep → LockState true .worker s s')) s₁ :=
    wp_unlock hs₁ fun s₂ hs₂ => ⟨fun _ => hs₂, fun hy => absurd rfl hy⟩
  have hends := hsweep.ends
    (J := fun y s' => LockState (y != .asleep) .worker s s') (Q := LockState false .worker s)
    (E := fun _ s' => Event.relock .worker ∉ s.since s') (fun x p s₁ hp hs₁ => ?_)
    (show LockState (Point.asleep != .asleep) .worker s s from .refl hs)
  · exact LockState.paired (fun _ ho => hends.1 ho) hends.2
  suffices hwp : p.wp (plugin b) .worker (fun _ s' => Event.relock .worker ∉ s.since s')
      (fun y s' => (y = .asleep → LockState false .worker s s') ∧
        (y ≠ .asleep → LockState true .worker s s')) s₁ by
    refine wp_mono hwp fun y s₂ hs₂ => ⟨hs₂.1, fun hy => ?_⟩
    rw [show (y != .asleep) = true by simpa using hy]
    exact hs₂.2 hy
  cases hp with
  | wake =>
    refine wp_locked hs₁ fun s₂ hs₂ _ => wp_size ?_
    rw [wp_ite]
    split_ifs
    · exact ⟨nofun, fun _ => hs₂⟩
    · exact hsleep hs₂
  | sweep i =>
    refine wp_size ?_
    rw [wp_ite]
    split_ifs
    · rw [wp_bind]
      have hvisit : (workerVisit i).All (Stmt.Only .worker Event.Unlocked) :=
        all_only_mono (workerVisit_ofVisit .worker i) fun e he => by
          cases e <;> first | exact he.elim | trivial
      exact wp_mono (wp_unlocked hvisit hs₁) fun _ _ hs₂ => ⟨nofun, fun _ => hs₂⟩
    · exact hsleep hs₁

end

/-- A native that does not lock twice is paired, and where the mutex is free no other one is; a
`ProcessTick` is paired if none of the natives that its callbacks call locks twice, and a sweep is
paired. -/
theorem paired_iff (b : Build) (s : State) :
    (¬s.HeldBy .main → ∀ n : NativeCall,
      (¬n.LocksTwice s → ∀ o s', Run (plugin b) .main (native n) s o s' →
        LocksPaired .main o (s.since s')) ∧
      (s.mutex = none → ((∀ o s', Run (plugin b) .main (native n) s o s' →
        LocksPaired .main o (s.since s')) ↔ ¬n.LocksTwice s))) ∧
    (¬s.HeldBy .main → ∀ o s', Trip (lockingOnce b) (Starts {.processTick}) .main .idle .idle s o s' →
      LocksPaired .main o (s.since s')) ∧
    (¬s.HeldBy .worker → ∀ o s',
      Trip (plugin b) (Starts {.processTick}) .worker .asleep .asleep s o s' →
        LocksPaired .worker o (s.since s')) := by
  have hpaired (hs : ¬s.HeldBy .main) (n : NativeCall) (hn : ¬n.LocksTwice s) (o : Except Fault Cell)
      (s' : State) (hrun : Run (plugin b) .main (native n) s o s') :
      LocksPaired .main o (s.since s') := by
    have hwp := (wp_iff _ _ _).mp (native_paired (M := plugin b) (n := n) (fun _ _ => hn) (.refl hs))
    refine LockState.paired (fun v ho => ?_) fun e ho => ?_
    · exact hwp.1 v s' (ho ▸ hrun)
    · exact hwp.2 e s' (ho ▸ hrun)
  refine ⟨fun hs n => ⟨hpaired hs n, fun hm => ⟨fun hall htwice => ?_, hpaired hs n⟩⟩,
    fun hs o s' => tick_paired hs, fun hs o s' => sweep_paired hs⟩
  obtain ⟨o, s', hrun, hmem⟩ := native_relocks (b := b) hm htwice
  exact (hall o s' hrun).once hmem

/-- `mysql_close` asks for the mutex that it holds. -/
theorem close_relocks :
    ¬∀ (b : Build) (s : State) (n : NativeCall) (o : Except Fault Cell) (s' : State),
      ¬s.HeldBy .main → Run (plugin b) .main (native n) s o s' → LocksPaired .main o (s.since s') := by
  intro hall
  have hrun : ((play (plugin .pthread) (fun _ _ => {}) [.native (.mysql_connect [] [] [] [] 0)]
      (State.init [])).bind fun s =>
        ((native (.mysql_close 1)).runWith (plugin .pthread) .main (fun _ _ => {}) s).map fun r =>
          (s.mutex, decide (.relock .main ∈ s.since r.2))) = some (none, true) := by decide +kernel
  obtain ⟨s, -, hrun⟩ := Option.bind_eq_some_iff.mp hrun
  obtain ⟨⟨o, s'⟩, hclose, heval⟩ := Option.map_eq_some_iff.mp hrun
  simp only [Prod.mk.injEq, decide_eq_true_eq] at heval
  have hfree : ¬s.HeldBy .main := by simp [State.HeldBy, heval.1]
  exact (hall .pthread s _ o s' hfree (run_of_runWith (fun _ _ => trivial) _ hclose)).once heval.2

/-- A threaded `mysql_query` locks the mutex once and unlocks it once. -/
theorem query_paired : ∃ s v s',
    Run (plugin .pthread) .main (native (.mysql_query ['q'] 7 3 1)) s (.ok v) s' ∧
    acquired .main (s.since s') = 1 ∧ released .main (s.since s') = 1 := by
  have hrun : ((play (plugin .pthread) (fun _ _ => {}) [.native (.mysql_connect [] [] [] [] 0)]
      (State.init [])).bind fun s =>
        ((native (.mysql_query ['q'] 7 3 1)).eval (plugin .pthread) .main (fun _ _ => {}) s).map fun r =>
          (s.mutex, acquired .main (s.since r.2))) = some (none, 1) := by decide +kernel
  obtain ⟨s, -, hrun⟩ := Option.bind_eq_some_iff.mp hrun
  obtain ⟨⟨v, s'⟩, hquery, heval⟩ := Option.map_eq_some_iff.mp hrun
  simp only [Prod.mk.injEq] at heval
  have hfree : ¬s.HeldBy .main := by simp [State.HeldBy, heval.1]
  have hquery := run_of_eval (fun _ _ => trivial) _ hquery
  refine ⟨s, v, s', hquery, heval.2, ?_⟩
  have hpaired := ((paired_iff .pthread s).1 hfree (.mysql_query ['q'] 7 3 1)).1 id _ _ hquery
  rw [hpaired.released v rfl, heval.2]

end MySQLPlugin

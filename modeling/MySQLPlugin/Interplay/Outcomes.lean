import MySQLPlugin.Handles.Names
import MySQLPlugin.Interplay.Schedule
import MySQLPlugin.Interplay.Waiting

/-!
# The outcome that a callback reads

The callbacks of a threaded query that has succeeded run while the last statement on the connection
of its handler is that query, unless the main thread has executed another one there or has given the
handler another connection. They reach the handler by its handle, unless one of them has closed that
connection or one before it.
-/

namespace MySQLPlugin

open Threads Prog CMySQLHandler

/-! ### The worker -/

/-- The events of the worker while it attempts a query of `h`, apart from the query itself. -/
def Event.OfAttempt (h : HandlerPtr) : Event → Prop
  | .assign _ p a => p = h ∧ a.Neutral
  | .enter _ p _ _ => p = h
  | .leave _ _ (.mysql_real_query _) _ _ => False
  | .leave _ _ _ _ _ | .access _ _ _ _ | .init _ _ _ | .onResult _ _ _ | .unset _ _ _ => True
  | _ => False

section

variable {M : Machine Stmt Fault State ThreadId Reply} {b : Build} {s s' : State} {e : Event}
  {h : HandlerPtr} {k : Bool} {d : MainInfo} {α : Type}
  (hM : ∀ {t : ThreadId} {β : Type} {a : Stmt β} {s o s'}, M.Step t a s o s' →
    (plugin b).Step t a s o s' ∧ Issued s)

lemma Trying.event (hs : Trying h k s) (heff : Effect .worker e s s') (he : e.OfAttempt h) :
    Guarantees waitRely .worker s s' ∧ Trying h k s' := by
  have horderly : e.Orderly s := by
    cases e with
    | assign u p a =>
      obtain ⟨rfl, ha⟩ := he
      obtain rfl : u = .worker := heff.by_
      cases a <;> first | exact ha.elim | trivial | exact ⟨k, hs.2⟩
    | enter u p f c =>
      obtain rfl : p = h := he
      obtain rfl : u = .worker := heff.by_
      cases f <;> first | trivial | exact ⟨k, hs.2⟩
    | leave u p f c ok =>
      obtain rfl : u = .worker := heff.by_
      cases f <;> first | exact he.elim | trivial
    | _ => first | exact he.elim | trivial
  have hkeeps : e.KeepsMainPart := by
    cases e with
    | assign u p a =>
      obtain rfl : u = .worker := heff.by_
      trivial
    | _ => first | exact he.elim | trivial
  obtain ⟨hg, hs'⟩ := worker_waits hs.1 heff horderly hkeeps
  refine ⟨hg, hs', ?_⟩
  rw [heff.trace, attempt_concat, hs.2]
  cases e with
  | assign u p a =>
    obtain rfl : u = .worker := heff.by_
    cases a <;> first | exact he.2.elim | rfl
  | _ => first | exact he.elim | rfl

lemma Trying.ends {a : Assign} (hs : Trying h k s) (heff : Effect .worker (.assign .worker h a) s s')
    (ha : a = .m_bQueryProcessing false ∨ a = .m_bQueryProcessing true ∨
      ∃ d, a = .callbackData_push d ∧ k = true ∧ Own h d s) :
    Guarantees waitRely .worker s s' ∧ Awaiting s' := by
  rcases ha with rfl | rfl | ⟨d, rfl, rfl, hd⟩
  · exact worker_waits hs.1 heff ⟨k, hs.2⟩ trivial
  · exact worker_waits hs.1 heff ⟨k, hs.2⟩ trivial
  · exact worker_waits hs.1 heff ⟨hs.2, hd⟩ trivial

include hM

lemma relies_attempt {p : Code α} (hp : p.All (Stmt.Only .worker (Event.OfAttempt h)))
    (hs : Trying h k s) : p.Relies M waitRely .worker (fun _ => Trying h k) s :=
  relies_of_only (fun hst => (hM hst).1) hp (stable_trying h k)
    (fun _ _ _ he hs heff => hs.event heff he) hs

/-- The query of the attempt: if it succeeds, it is the last one of the handler. -/
lemma relies_realQuery (hs : Trying h true s) :
    (call h (.mysql_real_query d.m_szQuery)).Relies M waitRely .worker
      (fun ok s => Trying h true s ∧ (ok = true → Own h d s)) s := by
  have hM' {t : ThreadId} {β : Type} {a : Stmt β} {s : State} {o : Except Fault β} {s' : State}
      (hst : M.Step t a s o s') : (plugin b).Step t a s o s' := (hM hst).1
  refine relies_stmt_within (C := Issued) (P := fun e => ∃ c, e =
    .enter .worker h (.mysql_real_query d.m_szQuery) c) hM' (fun hst => (hM hst).2)
    (fun c => ⟨c, rfl⟩) (stable_trying h true) hs ?_ ?_
  · rintro e s₁ s₂ ⟨c, rfl⟩ hs₁ - heff
    exact (hs₁.event heff rfl).1
  intro c s₁ s₂ hs₁ hissued hst
  have heff := step_enter (hM' hst)
  have hs₂ := (hs₁.event heff rfl).2
  have hexecuting : ∃ es₁ es₂, Executing h d.m_szQuery c es₁ es₂ s₂ := by
    obtain ⟨x, hx, hptr⟩ := heff.occurs
    obtain ⟨u, hu⟩ := hissued.holder h c (Option.bind_eq_some_iff.mpr ⟨x, hx, hptr⟩)
    have hlt : h < s₁.nextHandler := by
      by_contra hle
      cases (hs₁.1.fresh h (Nat.le_of_not_lt hle)).symm.trans hx
    have hjoined : Joined h c s₁ := fun y hy => by
      cases hx.symm.trans hy
      exact hptr
    refine ⟨s₁.trace, [], heff.trace, by simp, ⟨u, heff.prefix.subset hu⟩, ?_, fun _ => ?_⟩
    · exact Nat.lt_of_lt_of_le hlt heff.nextHandler_le
    · exact hjoined.keep heff hlt (by simp)
  have hstable := (stable_trying h true).and (stable_executing h d.m_szQuery c)
  have hboth {ok : Bool} {s₁ s₂ : State} (hs₁ : Trying h true s₁ ∧
      ∃ es₁ es₂, Executing h d.m_szQuery c es₁ es₂ s₁)
      (heff : Effect .worker (.leave .worker h (.mysql_real_query d.m_szQuery) c ok) s₁ s₂) :
      Guarantees waitRely .worker s₁ s₂ ∧ Trying h true s₂ := by
    obtain ⟨⟨hw, hk⟩, es₁, es₂, hexecuting⟩ := hs₁
    obtain ⟨hg, hw'⟩ := worker_waits hw heff ⟨⟨true, hk⟩, hexecuting.minted⟩ trivial
    refine ⟨hg, hw', ?_⟩
    rw [heff.trace, attempt_concat, hk]
    rfl
  rw [← bind_ret_right (Prog.lift _)]
  refine relies_stmt (P := fun e => ∃ ok, e =
    .leave .worker h (.mysql_real_query d.m_szQuery) c ok) hM' (fun ok => ⟨ok, rfl⟩) hstable
    ⟨hs₂, hexecuting⟩ ?_ ?_
  · rintro e s₁ s₂ ⟨ok, rfl⟩ hs₁ heff
    exact (hboth hs₁ heff).1
  intro ok s₁ s₂ hs₁ hst
  have heff := step_leave_query (hM' hst)
  refine relies_ret ((stable_trying h true).and ?_) ⟨(hboth hs₁ heff).2, ?_⟩
  · cases ok with
    | true => exact fun s s' hk h _ => stable_own _ _ s s' hk (h rfl)
    | false => exact fun s s' _ _ h => absurd h (by simp)
  · rintro rfl
    obtain ⟨⟨hw, -⟩, es₁, es₂, hexecuting⟩ := hs₁
    exact hexecuting.own rfl heff

/-- The query has failed: its attempt ends without an outcome. -/
lemma queryFailed_waits (hs : Trying h true s) :
    (queryFailed h d).Relies M waitRely .worker (fun _ => Awaiting) s := by
  have hM' {t : ThreadId} {β : Type} {a : Stmt β} {s : State} {o : Except Fault β} {s' : State}
      (hst : M.Step t a s o s') : (plugin b).Step t a s o s' := (hM hst).1
  have haccess (f : LibAccess) {s : State} (hs : Trying h true s) :
      (access h f).Relies M waitRely .worker (fun _ => Trying h true) s :=
    relies_attempt hM (by simp [access, Stmt.Only, Event.OfAttempt]) hs
  refine .bind ((haccess .mysql_errno hs).mono fun id s hs => ?_)
  refine relies_assign hM' (stable_trying h true) hs fun s₁ s₂ hs₁ heff => ?_
  obtain ⟨hg, hs₂⟩ := hs₁.event heff ⟨rfl, trivial⟩
  refine ⟨hg, .bind ((haccess .mysql_error hs₂).mono fun error s hs => ?_)⟩
  refine relies_assign hM' (stable_trying h true) hs fun s₁ s₂ hs₁ heff => ?_
  obtain ⟨hg, hs₂⟩ := hs₁.event heff ⟨rfl, trivial⟩
  refine ⟨hg, ?_⟩
  rw [← bind_ret_right (assign h _)]
  refine relies_assign hM' (stable_trying h true) hs₂ fun s₁ s₂ hs₁ heff => ?_
  obtain ⟨hg, hs₂⟩ := hs₁.ends heff (.inl rfl)
  exact ⟨hg, relies_ret (stable_awaiting .worker) hs₂⟩

lemma executeFront_waits (hs : Trying h false s) :
    (executeFront h).Relies M waitRely .worker (fun _ => Awaiting) s := by
  have hM' {t : ThreadId} {β : Type} {a : Stmt β} {s : State} {o : Except Fault β} {s' : State}
      (hst : M.Step t a s o s') : (plugin b).Step t a s o s' := (hM hst).1
  have hw := stable_awaiting .worker
  have hplain {a : Assign} (ha : a = .queueData_pop ∨ a = .m_dwError 0) {s : State} (hs : Awaiting s) :
      (assign h a).Relies M waitRely .worker (fun _ => Awaiting) s := by
    rw [← bind_ret_right (assign h a)]
    refine relies_assign hM' hw hs fun s₁ s₂ hs₁ heff => ?_
    have ⟨hg, hs₂⟩ : Guarantees waitRely .worker s₁ s₂ ∧ Awaiting s₂ := by
      rcases ha with rfl | rfl <;> exact worker_waits hs₁ heff trivial trivial
    exact ⟨hg, relies_ret hw hs₂⟩
  refine relies_this hM' (stable_trying h false) hs fun x s hs _ => ?_
  cases x.queueData with
  | nil => trivial
  | cons d ds =>
    refine relies_assign hM' (stable_trying h false) hs fun s₁ s₂ hs₁ heff => ?_
    obtain ⟨hg, hs₂⟩ := hs₁.ends heff (.inr (.inl rfl))
    have htrying : Trying h true s₂ := by
      refine ⟨hs₂, ?_⟩
      rw [heff.trace, attempt_concat]
      rfl
    refine ⟨hg, .bind ((relies_realQuery hM htrying).mono fun ok s hs => .bind ?_)⟩
    refine Relies.mono (Q := fun _ => Awaiting) ?_ fun _ s hs => hplain (.inl rfl) hs
    cases ok with
    | true =>
      refine relies_assign hM' ((stable_trying h true).and (stable_own h d)) ⟨hs.1, hs.2 rfl⟩
        fun s₁ s₂ hs₁ heff => ?_
      obtain ⟨hg, hs₂⟩ := hs₁.1.ends heff (.inr (.inr ⟨d, rfl, rfl, hs₁.2⟩))
      exact ⟨hg, hplain (.inr rfl) hs₂⟩
    | false => exact queryFailed_waits hM hs.1

lemma workerVisit_waits (i : Nat) (hs : Awaiting s) :
    (workerVisit i).Relies M waitRely .worker (fun _ => Awaiting) s := by
  have hM' {t : ThreadId} {β : Type} {a : Stmt β} {s : State} {o : Except Fault β} {s' : State}
      (hst : M.Step t a s o s') : (plugin b).Step t a s o s' := (hM hst).1
  have hw := stable_awaiting .worker
  refine relies_at hM' hw hs fun h s hs _ => ?_
  refine relies_guard hM' hw hs (fun x s₁ s₂ hs₁ _ _ heff => ?_) fun s hs => relies_ret hw hs
  obtain ⟨hg, hs₂⟩ := worker_waits hs₁ heff trivial trivial
  have htrying : Trying h false s₂ := by
    refine ⟨hs₂, ?_⟩
    rw [heff.trace, attempt_concat]
    rfl
  refine ⟨hg, ?_⟩
  rw [if_pos rfl]
  refine .bind ((relies_attempt hM (p := call h .mysql_ping) ?_ htrying).mono fun ok s hs => .bind ?_)
  · simp [call, all_lift_bind, Stmt.Only, Event.OfAttempt]
  refine Relies.mono (Q := fun _ => Awaiting) ?_ fun _ s hs => ?_
  · cases ok with
    | true => exact executeFront_waits hM hs
    | false =>
      refine (relies_attempt hM (p := reconnectInBackground h) ?_ hs).mono fun _ s hs => hs.1
      simp [reconnectInBackground, connect, this, call, access, assign, onResult, bind_bind, ite_bind,
        all_lift_bind, all_ite, Stmt.Only, Event.OfAttempt, Assign.Neutral]
  · rw [← bind_ret_right (Prog.lift _)]
    refine relies_mark hM' hw hs fun s₁ s₂ hs₁ heff => ?_
    obtain ⟨hg, hs₂⟩ := worker_waits hs₁ heff trivial trivial
    exact ⟨hg, relies_ret hw hs₂⟩

end

/-! ### The main thread -/

lemma Event.Scripted.passive {e : Event} (he : e.Scripted) : e.Passive := by
  cases e with
  | assign u h a => cases a <;> first | exact he.elim | trivial
  | _ => first | exact he.elim | trivial

section

variable {M : Machine Stmt Fault State ThreadId Reply} {b : Build} {s s' : State} {e : Event}
  {h : HandlerPtr} {d : MainInfo} {i : Nat} {α : Type}
  (hM : ∀ {t : ThreadId} {β : Type} {a : Stmt β} {s o s'}, M.Step t a s o s' →
    (plugin b).Step t a s o s')

lemma Ordered.step (hs : Ordered s) (heff : Effect .main e s s') (he : e.Orderly s) (hv : e.NoVisit)
    (hpush : ∀ h, e ≠ .pushBack h) : Guarantees waitRely .main s s' ∧ Ordered s' := by
  obtain ⟨hg, hs'⟩ := main_waits hs.1 heff he hv
  exact ⟨hg, hs', hs.2.step heff hpush⟩

lemma Awaiting.scripted (hs : Awaiting s) (heff : Effect .main e s s') (he : e.Scripted) :
    Guarantees waitRely .main s s' ∧ Awaiting s' := by
  refine main_waits hs heff ?_ ?_
  · cases e with
    | assign u h a =>
      obtain rfl : u = .main := heff.by_
      cases a <;> first | exact he.elim | trivial
    | enter u h f c =>
      obtain rfl : u = .main := heff.by_
      trivial
    | leave u h f c ok =>
      obtain rfl : u = .main := heff.by_
      trivial
    | exec a p => exact he.elim
    | _ => trivial
  · cases e with
    | mark m => cases m <;> first | exact he.elim | trivial
    | _ => first | exact he.elim | trivial

include hM

/-- A native keeps the table in order. -/
lemma native_ordered (n : NativeCall) (hs : Ordered s) :
    (native n).Relies M waitRely .main (fun _ => Ordered) s := by
  refine (native_seats hM (stable_awaiting .main) stable_mainPart
    (fun e s s' he hs heff => hs.scripted heff he) (T := ∅) n ⟨hs.1, hs.2, by simp⟩).mono ?_
  exact fun _ s hs => ⟨hs.1, hs.2.placed⟩

/-- A native called by a callback for the outcome `d` of the handler `h` in the entry `i`. -/
lemma native_faces (n : NativeCall) (hs : (Awaiting s ∧ Facing h d s) ∧ Seats {(i, h)} s) :
    (native n).Relies M waitRely .main (fun _ s => (Awaiting s ∧ Facing h d s) ∧ Seats {(i, h)} s) s := by
  refine native_seats hM ((stable_awaiting .main).and (stable_facing h d)) stable_mainPart
    (fun e s s' he hs heff => ?_) n hs
  obtain ⟨hg, hs'⟩ := hs.1.scripted heff he
  exact ⟨hg, hs', hs.2.main hs.1.minted heff he.passive⟩

variable {N : Set NativeCall} (hN : Confined M N)

include hN

lemma tickError_waits (hs : Ordered s) : (tickError i).Relies M waitRely .main (fun _ => Ordered) s :=
  relies_tickError hM hN stable_ordered
    (fun a e s s' hs heff => hs.step heff (fun hp => False.elim hp) trivial (by simp))
    (fun n s _ hs => native_ordered hM n hs)
    (fun h s s' hs heff => hs.step heff trivial trivial (by simp)) hs

lemma tickCallback_waits (hs : Ordered s) :
    (tickCallback i).Relies M waitRely .main (fun _ => Ordered) s := by
  have hentry (h : HandlerPtr) : Stable (waitRely .main) fun s => Ordered s ∧ s.SQLHandle[i]? = some h :=
    stable_ordered.and (stable_mainPart _ (.entry i h))
  refine relies_at hM stable_ordered hs fun h s hs hh => relies_this hM (hentry h) ⟨hs, hh⟩ fun x s hs _ => ?_
  split_ifs
  · refine relies_at hM (hentry h) hs fun h s hs hh => ?_
    refine relies_this hM (hentry h) ⟨hs.1, hh⟩ fun x s hs hx => ?_
    cases hd : x.callbackData with
    | nil => trivial
    | cons d ds =>
      have hfaces := ((stable_awaiting .main).and (stable_facing h d)).and
        (stable_mainPart _ (ofMainPart_seats {(i, h)}))
      have hfacing : (Awaiting s ∧ Facing h d s) ∧ Seats {(i, h)} s := by
        refine ⟨⟨hs.1.1, (hs.1.1.waits h x hx).facing hx hd⟩, hs.1.2, ?_⟩
        rintro j p ⟨rfl, rfl⟩ -
        exact ⟨hs.2, by simp [hx]⟩
      have hi : i < maxHandlers :=
        Nat.lt_of_lt_of_le (List.getElem?_eq_some_iff.mp hs.2).1 hs.1.2.length
      simp only [front, pure_eq, bind_ret]
      refine .bind ((relies_execAll hM hN hfaces ?_ (fun n s _ hs => native_faces hM n hs) hfacing).mono
        fun _ s hs => ?_)
      · intro a s s' hs heff
        have hseated : Seated i h s := hs.2.seated i h rfl
        obtain ⟨hg, hs'⟩ := main_waits hs.1.1 heff
          (fun _ => ⟨i, h, d, hi, rfl, hs.1.2, hseated⟩) trivial
        exact ⟨hg, ⟨hs', hs.1.2.main hs.1.1.minted heff trivial⟩,
          ofMainPart_seats _ s s' (heff.mainPart trivial) hs.2⟩
      refine relies_at hM stable_ordered ⟨hs.1.1, hs.2.placed⟩ fun h s hs hh => ?_
      refine relies_assign hM (hentry h) ⟨hs, hh⟩ fun s₁ s₂ hs₁ heff => ?_
      obtain ⟨hg, hs₂⟩ := hs₁.1.step heff trivial trivial (by simp)
      have hpopped : Popped i h s₂ := by
        refine ⟨hs₂, ?_, ?_⟩
        · rw [heff.trace, emptied_concat]
          rfl
        · rw [heff.table]
          exact hs₁.2
      refine ⟨hg, relies_at hM (stable_popped i h) hpopped fun h' s hs hh' => ?_⟩
      obtain rfl : h = h' := Option.some.inj (hs.2.2.symm.trans hh')
      rw [← bind_ret_right (assign h _)]
      refine relies_assign hM (stable_popped i h) hs fun s₁ s₂ hs₁ heff => ?_
      obtain ⟨hg, hs₂⟩ := hs₁.1.step heff ⟨rfl, hs₁.2.1⟩ trivial (by simp)
      exact ⟨hg, relies_ret stable_ordered hs₂⟩
  · exact relies_ret stable_ordered hs.1

end

/-! ### The outcome that a callback reads -/

section

variable {M : Machine Stmt Fault State ThreadId Reply} {b : Build} {N : Set NativeCall}
  (hM : ∀ {t : ThreadId} {β : Type} {a : Stmt β} {s o s'}, M.Step t a s o s' →
    (plugin b).Step t a s o s' ∧ Issued s) (hN : Confined M N)

lemma Awaiting.init_state (p_Amx : List Amx) : Awaiting (State.init p_Amx) where
  minted := (Issued.init_state p_Amx).minted
  fresh _ _ := rfl
  waits _ _ hx := by cases hx
  known _ _ := ⟨by simp [emptied, State.init], by simp [attempt, State.init]⟩
  told es a p htrace := by simp [State.init] at htrace

include hM hN

theorem wait_duties : Duties M N waitRely Ordered Ordered Awaiting Awaiting := by
  have hM' {t : ThreadId} {β : Type} {a : Stmt β} {s : State} {o : Except Fault β} {s' : State}
      (hst : M.Step t a s o s') : (plugin b).Step t a s o s' := (hM hst).1
  exact
    { stable_idle := stable_ordered
      stable_ticking := stable_ordered
      stable_asleep := stable_awaiting .worker
      stable_sweeping := stable_awaiting .worker
      native := fun n s _ hs => native_ordered hM' n hs
      amx := fun e s s' he hs heff => by
        obtain ⟨a, rfl | rfl⟩ := he <;> exact hs.step heff trivial trivial (by simp)
      tick := fun s s' hs heff => hs.step heff trivial trivial (by simp)
      visit := fun i s hs =>
        .bind ((tickError_waits hM' hN hs).mono fun _ s hs => tickCallback_waits hM' hN hs)
      tickEnd := fun s s' hs heff => hs.step heff trivial trivial (by simp)
      wake := fun e s s' he hs heff => by
        rcases he with rfl | rfl <;> exact worker_waits hs heff trivial trivial
      sweep := fun i s hs => workerVisit_waits hM i hs
      sleep := fun s s' hs heff => worker_waits hs heff trivial trivial }

theorem reachable_awaiting {p_Amx : List Amx} {c : Config Stmt Fault State ThreadId Point}
    (hc : Config.Reachable M (Starts (MainCall.Only N)) (loaded p_Amx) c) : Awaiting c.shared :=
  (wait_duties hM hN).invariant (fun hst => (hM hst).1) ⟨.init_state p_Amx, placed_init p_Amx⟩
    (.init_state p_Amx) (fun t => by cases t <;> exact .inl rfl) (.init_state p_Amx) hc

end

/-- Since the execution of the query on `c` the main thread has neither executed a statement there nor
given the handler another connection. -/
structure Unimpeded (h : HandlerPtr) (c : ConnPtr) (es₂ es₃ : List Event) : Prop where
  connection : ∀ e ∈ es₂ ++ es₃, ¬e.Reconnects h
  statement : ∀ e ∈ es₃, ¬e.Queries c

/-- The last statement on the connection of the handle is the one at this position of the trace. -/
def LastOf (handle : Cell) (now : Nat) (s : State) : Prop :=
  ∃ h c, handlerAt s handle = some h ∧ s.connection h = some c ∧ (s.lib.conn c).last = some now

/-- Since `ProcessTick` has taken up the outcome, `mysql_close` has been called only with handles behind
`handle`. -/
def ClosedBehind (handle : Cell) (es : List Event) : Prop :=
  ∀ c ∈ closeCalls es, (handle - 1).toNat < (c - 1).toNat

/-- The connection handle of an entry denotes it. -/
lemma connectionHandle_toNat {i : Nat} (hi : i < maxHandlers) : (connectionHandle i - 1).toNat = i := by
  have hlt : i < 2 ^ 32 := Nat.lt_trans hi (by decide)
  rw [connectionHandle, BitVec.add_sub_cancel, BitVec.toNat_ofNat, Nat.mod_eq_of_lt hlt]

/-- A callback is called about the last threaded query that the worker has executed for a handler.
Unless a callback of the same outcome has closed that connection or one before it, the handle of the
callback denotes the handler; and unless the main thread has disturbed it, the query is the last
statement on the connection. -/
theorem callback_reads_own (b : Build) (p_Amx : List Amx)
    {c : Config Stmt Fault State ThreadId Point}
    (hc : Config.Reachable (plugin b) (Starts (MainCall.Only Set.univ)) (loaded p_Amx) c)
    {es : List Event} {a : Amx} {name query : CString} {result extra handle : Cell}
    (htrace : c.shared.trace = es ++ [.exec a (.callback name query result extra handle)]) :
    ∃ i d h conn es₁ es₂ es₃, Public.callback name query result extra handle = onQueryFinish i d ∧
      Execution h d.m_szQuery conn es₁ es₂ es₃ c.shared.trace ∧ Waits h d c.shared ∧
      (ClosedBehind handle es → handlerAt c.shared handle = some h ∧ c.shared.heap h ≠ none ∧
        (Unimpeded h conn es₂ es₃ → LastOf handle (es₁.length + 1 + es₂.length) c.shared)) := by
  have hissued := hc.restrict fun c hc => reachable_issued id (confined_univ _) hc
  have hs : Awaiting c.shared :=
    reachable_awaiting (fun ⟨r, hr, hrun⟩ => ⟨⟨r, trivial, hrun⟩, hr.2⟩) (confined_univ _) hissued
  obtain ⟨i, h, d, hi, hp, hfacing, hseated⟩ := hs.told es a _ htrace trivial
  obtain ⟨conn, es₁, es₂, es₃, hown⟩ := hfacing.own
  have hhandle : (handle - 1).toNat = i := by
    cases hp
    exact connectionHandle_toNat hi
  refine ⟨i, d, h, conn, es₁, es₂, es₃, hp, hown.executed, hfacing.waits, fun hbehind => ?_⟩
  obtain ⟨hentry, hlive⟩ := hseated fun c' hc' => by
    rw [htrace, closeCalls_concat] at hc'
    exact hhandle ▸ hbehind c' hc'
  have hat : handlerAt c.shared handle = some h := by
    rw [handlerAt, hhandle]
    exact hentry
  refine ⟨hat, hlive, fun hquiet => ?_⟩
  obtain ⟨x, hx⟩ := Option.ne_none_iff_exists'.mp hlive
  have hconn := hown.connection hquiet.connection x hx
  exact ⟨h, conn, hat, Option.bind_eq_some_iff.mpr ⟨x, hx, hconn⟩, hown.statement hquiet.statement⟩

/-- The script whose public `OnQueryFinish` the plugin calls. -/
def finisher : Amx := { id := 0, publics := [OnQueryFinish] }

/-- Another script with that public. -/
def otherFinisher : Amx := { id := 1, publics := [OnQueryFinish] }

/-- Two connections are opened and the worker executes a query on the first. The callback of the first
script queries the second connection and closes it; then the other script is called. -/
def closedBehind : List Turn :=
  [.call (.native (.mysql_connect ['h'] ['u'] ['d'] ['p'] 3306)), .go .main 15 {},
    .call (.native (.mysql_connect ['i'] ['u'] ['d'] ['p'] 3306)), .go .main 17 {},
    .call (.native (.mysql_query ['q'] 1 0 1)), .go .main 11 {}, .go .worker 28 {}, .call .processTick,
    .go .main 12 {}, .go .main 1 { natives := [.mysql_query ['r'] (-1) 0 2, .mysql_close 2] },
    .go .main 34 {}]

/-- The second callback of the query `q` is called; the query is still the last statement. -/
theorem callback_reads_own_closedBehind :
    ∃ (es : List Event) (c : Config Stmt Fault State ThreadId Point),
      c.shared.trace = es ++ [.exec otherFinisher (.callback OnQueryFinish ['q'] 1 0 1)] ∧
      closeCalls es = [2] ∧ ClosedBehind 1 es ∧ LastOf 1 33 c.shared ∧
      ∃ i d h conn es₁ es₂ es₃,
        Public.callback OnQueryFinish ['q'] 1 0 1 = onQueryFinish i d ∧
        Execution h d.m_szQuery conn es₁ es₂ es₃ c.shared.trace ∧ Waits h d c.shared ∧
        (ClosedBehind 1 es → handlerAt c.shared 1 = some h ∧ c.shared.heap h ≠ none ∧
          (Unimpeded h conn es₂ es₃ → LastOf 1 (es₁.length + 1 + es₂.length) c.shared)) := by
  have hrun : (schedule (plugin .win32) closedBehind (loaded [finisher, otherFinisher])).map (fun c =>
      ((c.shared.trace.getLast?, closeCalls c.shared.trace.dropLast), handlerAt c.shared 1,
        c.shared.connection 0, (c.shared.lib.conn 0).last)) =
      some ((some (.exec otherFinisher (.callback OnQueryFinish ['q'] 1 0 1)), [2]), some 0, some 0,
        some 33) := by
    decide +kernel
  obtain ⟨c, hc, hx⟩ := Option.map_eq_some_iff.mp hrun
  simp only [Prod.mk.injEq] at hx
  obtain ⟨⟨hlast, hcalls⟩, hat, hconn, hnow⟩ := hx
  have htrace := (List.dropLast_append_getLast? _ hlast).symm
  have hreach : Config.Reachable (plugin .win32) (Starts (MainCall.Only Set.univ))
      (loaded [finisher, otherFinisher]) c := by
    refine reachable_of_schedule ?_ .start hc
    simp only [closedBehind, List.forall_mem_cons, Turn.Admitted]
    simp [MainCall.Only, plugin]
  have hbehind : ClosedBehind 1 c.shared.trace.dropLast := by
    intro handle hh
    rw [hcalls, List.mem_singleton] at hh
    simp [hh]
  exact ⟨_, c, htrace, hcalls, hbehind, ⟨0, 0, hat, hconn, hnow⟩,
    callback_reads_own .win32 [finisher, otherFinisher] hreach htrace⟩

/-- The worker executes a query, the script another one, and `ProcessTick` calls the callback of the
first. -/
def overtaken : List Turn :=
  [.call (.native (.mysql_connect ['h'] ['u'] ['d'] ['p'] 3306)), .go .main 15 {},
    .call (.native (.mysql_query ['q'] 1 0 1)), .go .main 11 {}, .go .worker 23 {},
    .call (.native (.mysql_query ['r'] (-1) 0 1)), .go .main 13 {}, .call .processTick, .go .main 13 {}]

/-- The script executes another query before `ProcessTick` calls the callback. -/
theorem not_callback_reads_last :
    ¬∀ (b : Build) (p_Amx : List Amx) (c : Config Stmt Fault State ThreadId Point),
      Config.Reachable (plugin b) (Starts (MainCall.Only Set.univ)) (loaded p_Amx) c →
      ∀ es a name query result extra handle,
        c.shared.trace = es ++ [.exec a (.callback name query result extra handle)] →
        ∃ i d h conn es₁ es₂ es₃, Public.callback name query result extra handle = onQueryFinish i d ∧
          Execution h d.m_szQuery conn es₁ es₂ es₃ c.shared.trace ∧
          LastOf handle (es₁.length + 1 + es₂.length) c.shared := by
  intro hclaim
  have hrun : (schedule (plugin .pthread) overtaken (loaded [finisher])).map (fun c =>
      ((c.shared.trace.getLast?, c.shared.trace[33]?), handlerAt c.shared 1, c.shared.connection 0,
        (c.shared.lib.conn 0).last)) =
      some ((some (.exec finisher (.callback OnQueryFinish ['q'] 1 0 1)),
        some (.leave .main 0 (.mysql_real_query ['r']) 0 true)), some 0, some 0, some 33) := by
    decide +kernel
  obtain ⟨c, hc, hx⟩ := Option.map_eq_some_iff.mp hrun
  simp only [Prod.mk.injEq] at hx
  obtain ⟨⟨hlast, hleave⟩, hat, hconn, hnow⟩ := hx
  have hreach : Config.Reachable (plugin .pthread) (Starts (MainCall.Only Set.univ))
      (loaded [finisher]) c := by
    refine reachable_of_schedule ?_ .start hc
    simp only [overtaken, List.forall_mem_cons, Turn.Admitted]
    simp [MainCall.Only, plugin]
  obtain ⟨i, d, h, conn, es₁, es₂, es₃, -, hexec, p, c', hp, hc', hlast'⟩ :=
    hclaim .pthread [finisher] c hreach _ _ _ _ _ _ _ (List.dropLast_append_getLast? _ hlast).symm
  cases hat.symm.trans hp
  cases hconn.symm.trans hc'
  have hposition : es₁.length + 1 + es₂.length = 33 := Option.some.inj (hlast'.symm.trans hnow)
  rw [← hposition, hexec.returned] at hleave
  cases hleave

end MySQLPlugin

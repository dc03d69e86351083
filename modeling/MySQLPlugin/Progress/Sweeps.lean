import MySQLPlugin.Progress.Rounds
import MySQLPlugin.Safety.Traces
import MySQLPlugin.Threads.Progress

/-!
# The worker comes to every handler

A sweep of the worker goes over the whole table, whatever the main thread appends to it meanwhile. So a
worker that goes on moving executes the query at the front of every handler that stays ready.
-/

namespace MySQLPlugin

open Threads Prog CMySQLHandler

/-! ### Executions -/

section

variable {b : Build} {D : Scope} {p_Amx : List Amx} {r : Endless b D p_Amx} {m n : ℕ} {β : Type}

/-- At moment `m` the event is recorded. -/
def Happens (r : Endless b D p_Amx) (m : ℕ) (e : Event) : Prop :=
  (r.config (m + 1)).shared.trace = (r.config m).shared.trace ++ [e]

lemma Endless.reaches (r : Endless b D p_Amx) (m : ℕ) : Reaches b D p_Amx (r.config m) :=
  r.reachable m

/-- At every moment a permitted event is recorded, or nothing changes that the threads share. -/
lemma Endless.permits (r : Endless b D p_Amx) (m : ℕ) :
    (r.config (m + 1)).shared = (r.config m).shared ∨ ∃ e, Happens r m e ∧
      Permits D (r.turn m) e (r.config m).shared (r.config (m + 1)).shared := by
  rcases (r.reaches m).permits (r.step m) with hsame | ⟨e, he⟩
  · exact .inl hsame
  · exact .inr ⟨e, he.trace, he⟩

/-- What every recorded event keeps from moment `n` on holds at every later moment. -/
lemma Endless.lasts (r : Endless b D p_Amx) {P : State → Prop} (hn : P (r.config n).shared)
    (hstep : ∀ m, n ≤ m → ∀ e, Happens r m e →
      Permits D (r.turn m) e (r.config m).shared (r.config (m + 1)).shared →
      P (r.config m).shared → P (r.config (m + 1)).shared) (hm : n ≤ m) : P (r.config m).shared := by
  induction m, hm using Nat.le_induction with
  | base => exact hn
  | succ m hm ih =>
    rcases r.permits m with hsame | ⟨e, he, hp⟩
    · rw [hsame]
      exact ih
    · exact hstep m hm e he hp ih

/-- What is executed is permitted. -/
lemma may_of_executes {a : Stmt β} (ha : r.Executes m a) :
    a.May D (r.turn m) (r.config m).shared := by
  obtain ⟨⟨x, k, hat⟩, -⟩ := ha
  exact (r.reaches m).permitted hat

lemma step_of_executes {a : Stmt β} (ha : r.Executes m a) :
    ∃ o, (plugin b).Step (r.turn m) a (r.config m).shared o (r.config (m + 1)).shared := by
  obtain ⟨-, o, hst⟩ := ha
  exact ⟨o, step_of_allowing hst⟩

/-- An assignment to a live handler that is defined has its effect. -/
lemma effect_of_executes {h : HandlerPtr} {a : Assign} {x : CMySQLHandler}
    (ha : r.Executes m (.assign h a)) (hx : (r.config m).shared.heap h = some x)
    (hdefined : a.defined x = true) :
    Effect (r.turn m) (.assign (r.turn m) h a) (r.config m).shared (r.config (m + 1)).shared := by
  obtain ⟨o, hst⟩ := step_of_executes ha
  cases o with
  | ok u =>
    have hrec : (Stmt.assign h a).Records := trivial
    obtain ⟨e, rfl, heff⟩ := hrec.effect (P := (· = .assign (r.turn m) h a)) rfl hst
    exact heff
  | error e =>
    obtain ⟨reply, -, hrun⟩ := hst
    simp only [plugin, Stmt.run, hx, hdefined, if_true] at hrun
    cases hrun

end

/-! ### The way through a sweep -/

/-- A query of `h` is due: the handler is ready, or the worker visits it. -/
structure Due (h : HandlerPtr) (s : State) : Prop where
  entry : h ∈ s.SQLHandle
  front : ∃ x, s.heap h = some x ∧ x.queueData ≠ [] ∧ x.m_bIsConnected = true ∧
    x.m_bNonThreadedQuery = false ∧ (x.m_bQueryProcessing = true → visiting s.trace = some h)

/-- The statement is none of the assignments `S` to `h`. -/
def Stmt.Omits (S : Set Assign) (h : HandlerPtr) {β : Type} : Stmt β → Prop
  | .assign p a => p = h → a ∉ S
  | _ => True

/-- The query at the front is taken, or its connection declared dead. -/
def leaving : Set Assign := {.queueData_pop, .m_bIsConnected false}

/-- The worker is before the handler `h` in its sweep. -/
def Toward (h : HandlerPtr) : Point → State → Prop
  | .sweep i, s => SweepsAt i s ∧ ∃ j, i ≤ j ∧ s.SQLHandle[j]? = some h
  | _, _ => False

section

variable {b : Build} {D : Scope} {s s' : State} {h : HandlerPtr} {i j : ℕ}

/-- The entries of the table stay where they are while the worker holds the mutex. -/
lemma stable_position (j : ℕ) (h : HandlerPtr) : Stable (movesRely .worker) fun s =>
    s.locked .worker = some 1 ∧ s.SQLHandle[j]? = some h := by
  refine stable_closedUnder fun s s' hmoves hs => ⟨hmoves.locked.trans hs.1, ?_⟩
  obtain ⟨l, hl⟩ := hmoves.table (by simp [hs.1])
  obtain ⟨hlt, -⟩ := List.getElem?_eq_some_iff.mp hs.2
  rw [← hl, List.getElem?_append_left hlt]
  exact hs.2

lemma stable_before (i j : ℕ) (h : HandlerPtr) : Stable (movesRely .worker) fun s =>
    SweepsAt i s ∧ s.SQLHandle[j]? = some h := by
  intro s s' hk hs
  have hposition := stable_position j h s s' hk ⟨hs.1.1.locked, hs.2⟩
  exact ⟨stable_sweepsAt i s s' hk hs.1, hposition.2⟩

lemma stable_toward (h : HandlerPtr) (x : Point) : Stable (movesRely .worker) (Toward h x) := by
  cases x with
  | sweep i =>
    rintro s s' hk ⟨hs, j, hij, hj⟩
    have hbefore := stable_before i j h s s' hk ⟨hs, hj⟩
    exact ⟨hbefore.1, j, hij, hbefore.2⟩
  | _ => exact Stable.const False

variable {M : Machine Stmt Fault State ThreadId Reply}
  (hM : ∀ {t : ThreadId} {β : Type} {a : Stmt β} {s o s'}, M.Step t a s o s' →
    (plugin b).Step t a s o s')
  (hI : ∀ {t : ThreadId} {β : Type} {a : Stmt β} {s o s'}, M.Step t a s o s' →
    Due h s ∧ a.Omits leaving h)

include hM

/-- A visit of another handler leaves `h` where it is. -/
lemma passed_secures (hs : SweepsAt i s) (hij : i < j) (hj : s.SQLHandle[j]? = some h) :
    (workerVisit i).Secures M movesRely (policy D) .worker (fun _ => Toward h (.sweep (i + 1))) s := by
  obtain ⟨hlt, -⟩ := List.getElem?_eq_some_iff.mp hj
  refine ((workerVisit_secures hM ⟨hs.1, hij.trans hlt⟩).frame (workerVisit_ofVisit .worker i)
    (stable_position j h) (fun a s o s' ha _ hs hst => ?_) ⟨hs.1.locked, hj⟩).mono
    fun _ s hs => ⟨hs.1, j, hij, hs.2.2⟩
  rcases step_effect (hM hst) ha with rfl | ⟨e, he, heff⟩
  · exact hs
  · have hmutex : e.KeepsMutex := by cases e <;> trivial
    exact ⟨(heff.locked hmutex).trans hs.1, heff.position (by rintro k p rfl; exact he) hs.2⟩

include hI

/-- A visit of `h`, whose query is due, takes the query or finds the connection dead. -/
lemma dueVisit_secures (hs : SweepsAt i s) (hi : s.SQLHandle[i]? = some h) :
    (workerVisit i).Secures M movesRely (policy D) .worker (fun _ _ => False) s := by
  refine secures_at hM (stable_before i i h) ⟨hs, hi⟩
    (fun s hs _ => (List.getElem?_eq_some_iff.mp hs.2).1) fun p s hs hp => ?_
  obtain rfl : h = p := Option.some.inj (hs.2.symm.trans hp)
  refine guard_secures hM (fun d q s hs => ?_) (fun s s' hst _ hnone => ?_) ⟨hs.1.1, hs.2⟩
  · rw [if_pos rfl]
    refine .bind ((secures_onVisit hM ping_onVisit hs).mono fun ok s hs => .bind ?_)
    refine Secures.mono (Q := fun _ _ => False) ?_ fun _ _ hno => hno.elim
    cases ok with
    | true =>
      refine executeFront_secures hM (fun s hs => ?_) hs
      refine (dequeue_secures hM hs).blocked fun s o s' hst => ?_
      exact (hI hst).2 rfl (.inl rfl)
    | false =>
      refine (secures_onVisit hM reconnectInBackground_onVisit hs).blocked fun s o s' hst => ?_
      exact (hI hst).2 rfl (.inr rfl)
  · -- the guard of a handler whose query is due is open
    obtain ⟨x, hx, hqueue, hconnected, hdirect, hprocessing⟩ := (hI hst).1.front
    obtain ⟨y, hy, hready, -⟩ := step_guard (hM hst)
    obtain rfl : x = y := Option.some.inj (hx.symm.trans hy)
    have hidle : x.m_bQueryProcessing = false := by
      rw [hnone] at hprocessing
      simpa using hprocessing
    simp [CMySQLHandler.ready, hqueue, hconnected, hdirect, hidle] at hready

/-- On its way through the table the worker does not get past `h`. -/
lemma sweepLoop_toward (hs : Toward h (.sweep i) s) :
    (sweepLoop i).Secures M movesRely (policy D) .worker (fun y => Toward h y) s := by
  obtain ⟨hsweeps, j, hij, hj⟩ := hs
  refine secures_size hM (stable_before i j h) ⟨hsweeps, hj⟩ fun s hs => ?_
  obtain ⟨hlt, -⟩ := List.getElem?_eq_some_iff.mp hs.2
  rw [if_pos (hij.trans_lt hlt)]
  rcases Nat.eq_or_lt_of_le hij with rfl | hij
  · exact .bind ((dueVisit_secures hM hI hs.1 hs.2).mono fun _ _ hno => hno.elim)
  · refine .bind ((passed_secures hM hs.1 hij hs.2).mono fun _ s hs => ?_)
    exact secures_ret (stable_toward h (.sweep (i + 1))) hs

lemma processQueryThread_toward (hs : Locking 0 none none s) :
    processQueryThread.Secures M movesRely (policy D) .worker (fun y => Toward h y) s := by
  have hsweep : (Stmt.lockMutex).Only .worker Event.InSweep := ⟨trivial, trivial⟩
  refine secures_stmt hM (stable_locking 0 none none) hs (fun s hs _ => hs.locked)
    (fun o s₁ s₂ _ hst => (worker_moves hsweep (hM hst)).guarantees) fun u s₁ s₂ hs₁ hst => ?_
  have hentry : h ∈ s₂.SQLHandle := by
    rw [(worker_moves hsweep (hM hst)).table]
    exact (hI hst).1.entry
  obtain ⟨j, hj⟩ := List.mem_iff_getElem?.mp hentry
  have hbegins : SweepsAt 0 s₂ := ⟨hs₁.lock (hM hst), Nat.zero_le _⟩
  refine secures_size hM (stable_before 0 j h) ⟨hbegins, hj⟩ fun s hs => ?_
  obtain ⟨hlt, -⟩ := List.getElem?_eq_some_iff.mp hs.2
  rw [if_pos (Nat.zero_lt_of_lt hlt)]
  exact secures_ret (stable_toward h (.sweep 0)) ⟨hs.1, j, Nat.zero_le j, hs.2⟩

end

/-! ### Every handler is served -/

section

variable {b : Build} {D : Scope} {p_Amx : List Amx} {r : Endless b D p_Amx}

/-- A statement that takes the query, or declares the connection dead. -/
lemma front_of_executes {m : ℕ} {β : Type} {a : Stmt β} {h : HandlerPtr} (ha : r.Executes m a)
    (hdue : Due h (r.config m).shared) (hfront : ¬ a.Omits leaving h) :
    Happens r m (.assign .worker h .queueData_pop) ∨ ¬ Due h (r.config (m + 1)).shared := by
  obtain ⟨x, hx, hqueue, -⟩ := hdue.front
  cases a with
  | assign p c =>
    simp only [Stmt.Omits, Classical.not_imp, not_not] at hfront
    obtain ⟨rfl, rfl | rfl⟩ := hfront
    · have hworker : r.turn m = .worker := (may_of_executes ha).2.2.2.1.1
      have heff := effect_of_executes ha hx (by simpa [Assign.defined] using hqueue)
      exact .inl (hworker ▸ heff.trace)
    · right
      intro hafter
      obtain ⟨y, hy, -, hconnected, -⟩ := hafter.front
      obtain ⟨x', -, happlied⟩ := (effect_of_executes ha hx rfl).assigned
      obtain rfl := Option.some.inj (happlied.symm.trans hy)
      cases hconnected
  | _ => exact absurd trivial hfront

/-- A worker that goes on moving meets every handler in its sweeps. -/
lemma due_passes (hr : r.Recurs .worker) (h : HandlerPtr) (n : ℕ) :
    ∃ m, n ≤ m ∧ ∃ β, ∃ a : Stmt β, r.Executes m a ∧
      ¬ (Due h (r.config m).shared ∧ a.Omits leaving h) := by
  obtain ⟨k, hnk, hhome⟩ := home_again hr n
  obtain ⟨l, hkl, hat, hstep⟩ := InfiniteRun.turn_from hr hhome
  obtain ⟨p, hstart, hplace, hshared⟩ := hstep.of_at hat
  obtain rfl : p = processQueryThread := by
    cases hstart
    rfl
  have hasleep : Locking 0 none none (r.config (l + 1)).shared := by
    rw [hshared]
    exact (r.reaches l).arrived hat
  have hpasses : ∃ m, l + 1 ≤ m ∧ ∃ β, ∃ a : Stmt β, r.Executes m a ∧
      ¬ (Due h (r.config m).shared ∧ a.Omits leaving h) := by
    refine InfiniteRun.passes (t := ThreadId.worker)
      (I := fun _ a s => Due h s ∧ a.Omits leaving h) (J := Toward h)
      (safeOutline step_of_allowing (confined_allowing b D.callbacks)) (safe_init p_Amx rfl)
      (stable_toward h) (fun x s (hx : x = .asleep) hJ => ?_) (fun x p s hp hs => ?_) (fun n => ?_)
      hplace ?_
    · subst hx
      exact hJ
    · cases hp with
      | wake => exact hs.elim
      | sweep i =>
        exact sweepLoop_toward (fun hst => step_of_allowing hst.of_restrict)
          (fun ⟨_, ⟨_, hI⟩, _⟩ => hI) hs
    · obtain ⟨m, hm, hat⟩ := home_again hr n
      exact ⟨m, .asleep, hm, rfl, hat⟩
    · exact processQueryThread_toward (fun hst => step_of_allowing hst.of_restrict)
        (fun ⟨_, ⟨_, hI⟩, _⟩ => hI) hasleep
  obtain ⟨m, hm, hpasses⟩ := hpasses
  exact ⟨m, by omega, hpasses⟩

/-- The query at the front of a handler that stays due is taken. -/
lemma front_taken (hr : r.Recurs .worker) {h : HandlerPtr} {n : ℕ}
    (hdue : ∀ m, n ≤ m → Due h (r.config m).shared) :
    ∃ m, n ≤ m ∧ Happens r m (.assign .worker h .queueData_pop) := by
  obtain ⟨m, hm, β, a, ha, hno⟩ := due_passes hr h n
  have hfront : ¬ a.Omits leaving h := fun hfront => hno ⟨hdue m hm, hfront⟩
  rcases front_of_executes ha (hdue m hm) hfront with hpop | hafter
  · exact ⟨m, hm, hpop⟩
  · exact absurd (hdue (m + 1) (by omega)) hafter

/-- A worker that goes on moving executes and removes the query at the front of a handler, unless the
handler stops being ready: the main thread closes the connection, discards the query or executes
another one at once, or the connection is found dead, or an outcome waits for `ProcessTick`. -/
theorem front_executed (hr : r.Recurs .worker) (h : HandlerPtr) (n : ℕ) :
    ∃ m, n ≤ m ∧ (¬ Due h (r.config m).shared ∨
      Happens r m (.assign .worker h .queueData_pop)) := by
  by_contra hnever
  have hdue : ∀ m, n ≤ m → Due h (r.config m).shared := by
    intro m hm
    by_contra hno
    exact hnever ⟨m, hm, .inl hno⟩
  obtain ⟨m, hm, hpop⟩ := front_taken hr hdue
  exact hnever ⟨m, hm, .inr hpop⟩

theorem front_executed_queued :
    ∃ (r : Endless .pthread openScope []) (n : ℕ), Due 0 (r.config n).shared ∧
      ∃ m, n ≤ m ∧ (¬ Due 0 (r.config m).shared ∨
        Happens r m (.assign .worker 0 .queueData_pop)) := by
  obtain ⟨c, hc, r, n, hn, -, hworker⟩ := goes_on_after queued (swept ++ ticked)
    (by simp [queued, Turn.Within, MainCall.Only, openScope, NativeCall.Open])
    (by simp [swept, ticked, Turn.Within, MainCall.Only]) (by decide)
  have hrun : (schedule (allowing .pthread openScope.callbacks) queued (loaded [])).map (fun c =>
      (c.shared.SQLHandle, (c.shared.heap 0).map fun x => (x.queueData.length, x.m_bIsConnected,
        x.m_bNonThreadedQuery, x.m_bQueryProcessing))) = some ([0], some (1, true, false, false)) := by
    decide
  rw [hc, Option.map_some, Option.some.injEq, Prod.mk.injEq] at hrun
  obtain ⟨htable, hheap⟩ := hrun
  obtain ⟨x, hx, hflags⟩ := Option.map_eq_some_iff.mp hheap
  simp only [Prod.mk.injEq] at hflags
  obtain ⟨hqueue, hconnected, hdirect, hidle⟩ := hflags
  have hdue : Due 0 c.shared := by
    refine ⟨by simp [htable], x, hx, ?_, hconnected, hdirect, by simp [hidle]⟩
    exact List.ne_nil_of_length_pos (by omega)
  exact ⟨r, n, hn ▸ hdue, front_executed hworker 0 n⟩

end

end MySQLPlugin

import MySQLPlugin.Safety.Faults
import MySQLPlugin.Threads.Turns

/-!
# The mutex is given back

The mutexes of the two builds differ for a thread that locks twice. Where the scripts close no
connection that never happens: the builds reach the same configurations, and a thread that cannot
move waits for the other one or has failed for another reason. A thread that moves again and again
gives the mutex back again and again.
-/

namespace MySQLPlugin

open Threads Prog CMySQLHandler

/-! ### Both builds -/

section

variable {b : Build} {D : Scope} {p_Amx : List Amx} {c : Config Stmt Fault State ThreadId Point}
  {t : ThreadId} {s : State}

/-- A mutex that the thread does not hold is the same in both builds. -/
lemma Build.lock_eq (b' : Build) (hs : s.locked t = none) : b.lock t s = b'.lock t s := by
  simp only [Build.lock]
  cases hm : s.mutex with
  | none => rfl
  | some m =>
    have hother : m.1 ≠ t := by
      rintro rfl
      simp [State.locked, hm] at hs
    simp [hother]

/-- What is permitted does the same in both builds. -/
lemma Stmt.May.run_eq (b' : Build) (hD : D.AllOpen) {β : Type} {a : Stmt β} (ha : a.May D t s)
    (r : Reply) : a.run b t r s = a.run b' t r s := by
  cases a with
  | lockMutex =>
    have hfree : s.locked t = none := ha (.inr hD)
    exact Build.lock_eq b' hfree
  | _ => rfl

lemma Reaches.of_build (b' : Build) (hD : D.AllOpen) (hc : Reaches b D p_Amx c) :
    Reaches b' D p_Amx c := by
  have hrestricted := SecureOutline.restricted
    (safe_init (O := safeOutline step_of_allowing (confined_allowing b D.callbacks)) p_Amx rfl) hc
  refine hrestricted.mono (fun hst => ?_) id
  obtain ⟨r, ⟨hr, hmay⟩, hrun⟩ := hst
  exact ⟨r, hr, (hmay.run_eq b' hD r).symm.trans hrun⟩

/-- While the scripts close no connection, the Windows build and the pthread build reach the same
configurations. -/
theorem builds_agree (hD : D.AllOpen) : Reaches .win32 D p_Amx c ↔ Reaches .pthread D p_Amx c :=
  ⟨.of_build .pthread hD, .of_build .win32 hD⟩

/-- The scripts and the publics close no connection. -/
def openScope : Scope := ⟨{n | n.Open}, {n | n.Open}⟩

lemma openScope_allOpen : openScope.AllOpen := ⟨fun _ hn => hn, fun _ hn => hn⟩

theorem builds_agree_queued :
    ∃ c, schedule (allowing .win32 openScope.callbacks) queued (loaded []) = some c ∧
      c.shared.SQLHandle = [0] ∧ Reaches .pthread openScope [] c := by
  have hrun : (schedule (allowing .win32 openScope.callbacks) queued (loaded [])).map
      (fun c => c.shared.SQLHandle) = some [0] := by decide
  obtain ⟨c, hc, htable⟩ := Option.map_eq_some_iff.mp hrun
  have hreach : Reaches .win32 openScope [] c := reaches_of_within
    (by simp [queued, Turn.Within, MainCall.Only, openScope, NativeCall.Open]) hc
  exact ⟨c, hc, htable, (builds_agree openScope_allOpen).mp hreach⟩

/-! ### Waiting -/

/-- Only the mutex of another thread blocks a statement. -/
lemma Stmt.waits_of_run_eq_none {β : Type} {a : Stmt β} {r : Reply} (h : a.run b t r s = none) :
    (∃ u n, u ≠ t ∧ s.mutex = some (u, n)) ∧
      ∀ {α : Type} (k : β → Code α), ∃ k', Prog.act a k = .act .lockMutex k' := by
  cases a with
  | lockMutex =>
    refine ⟨?_, fun k => ⟨k, rfl⟩⟩
    simp only [Stmt.run, Build.lock] at h
    cases hm : s.mutex with
    | none =>
      rw [hm] at h
      cases h
    | some m =>
      obtain ⟨u, n⟩ := m
      rw [hm] at h
      dsimp only at h
      by_cases hu : u = t
      · rw [if_pos hu] at h
        cases b <;> cases h
      · exact ⟨u, n, hu, rfl⟩
  | _ =>
    simp only [Stmt.run] at h
    first
    | cases h
    | split at h <;> first
      | cases h
      | split at h <;> cases h

/-- The thread has failed. -/
def Failed (t : ThreadId) (c : Config Stmt Fault State ThreadId Point) : Prop :=
  ∃ x e, c.place t = .inside x (.fail e)

/-- The thread is about to lock the mutex, which thread `u` holds. -/
def WaitsFor (u t : ThreadId) (c : Config Stmt Fault State ThreadId Point) : Prop :=
  u ≠ t ∧ (∃ x k, c.place t = .inside x (.act .lockMutex k)) ∧ ∃ n, c.shared.mutex = some (u, n)

/-- A thread of the plugin moves, has failed, or waits. -/
lemma Reaches.moves (hc : Reaches b D p_Amx c) (t : ThreadId) :
    c.CanMove (allowing b D.callbacks) (Starts (MainCall.Only D.direct)) t ∨ Failed t c ∨
      ∃ u, WaitsFor u t c := by
  cases hat : c.place t with
  | «at» x =>
    left
    have hplace := hc.arrived hat
    cases t <;> cases x <;> first | exact hplace.elim | skip
    · exact ⟨_, .start hat (.call (m := .processTick) (fun n hn => by cases hn))⟩
    · exact ⟨_, .start hat (.tick _)⟩
    · exact ⟨_, .start hat .wake⟩
    · exact ⟨_, .start hat (.sweep _)⟩
  | inside x p =>
    cases p with
    | ret y => exact .inl ⟨_, .finish hat⟩
    | fail e => exact .inr (.inl ⟨x, e, hat⟩)
    | act a k =>
      cases hrun : a.run b t {} c.shared with
      | none =>
        obtain ⟨⟨u, n, hu, hm⟩, hlock⟩ := Stmt.waits_of_run_eq_none hrun
        obtain ⟨k', hk⟩ := hlock k
        exact .inr (.inr ⟨u, hu, ⟨x, k', hk ▸ hat⟩, n, hm⟩)
      | some o =>
        obtain ⟨o, s'⟩ := o
        have hst : (allowing b D.callbacks).Step t a c.shared o s' :=
          ⟨{}, admits_of_silent rfl, hrun⟩
        cases o with
        | ok v => exact .inl ⟨_, .act hat hst⟩
        | error e => exact .inl ⟨_, .fault hat hst⟩

/-- The thread has failed, and not because it has locked the mutex twice. -/
def Crashed (t : ThreadId) (c : Config Stmt Fault State ThreadId Point) : Prop :=
  ∃ x e, c.place t = .inside x (.fail e) ∧ e ≠ .deadlock

/-- Where no script closes a connection no thread locks the mutex twice. -/
lemma Reaches.crashed (hD : D.AllOpen) (hc : Reaches b D p_Amx c) (hfail : Failed t c) :
    Crashed t c := by
  obtain ⟨x, e, hat⟩ := hfail
  have hof : e.Of D t := hc.failed hat
  refine ⟨x, e, hat, ?_⟩
  cases t with
  | main => exact hof.2.2 hD
  | worker => rcases hof with rfl | rfl <;> simp

/-- While the scripts close no connection, a thread that cannot move has crashed, or waits for a thread
that can move or has crashed: the threads do not block each other, and none blocks itself. -/
theorem never_stuck (hD : D.AllOpen) (hc : Reaches b D p_Amx c) (t : ThreadId) :
    c.CanMove (allowing b D.callbacks) (Starts (MainCall.Only D.direct)) t ∨ Crashed t c ∨
      ∃ u, WaitsFor u t c ∧
        (c.CanMove (allowing b D.callbacks) (Starts (MainCall.Only D.direct)) u ∨ Crashed u c) := by
  rcases hc.moves t with hmove | hfail | ⟨u, hwait⟩
  · exact .inl hmove
  · exact .inr (.inl (hc.crashed hD hfail))
  · refine .inr (.inr ⟨u, hwait, ?_⟩)
    rcases hc.moves u with hmove | hfail | ⟨v, hv, -, m, hm⟩
    · exact .inl hmove
    · exact .inr (hc.crashed hD hfail)
    · -- `u` holds the mutex, so it does not wait for it
      obtain ⟨-, -, n, hn⟩ := hwait
      cases hm.symm.trans hn
      exact absurd rfl hv

/-- The worker waits to begin a sweep while the main thread puts a query into the queue. -/
def waiting : List Turn :=
  queued ++ [.call (.native (.mysql_query ['r'] 2 0 1)), .go .main 6 {}, .go .worker 1 {}]

theorem never_stuck_waiting :
    ∃ c, schedule (allowing .pthread openScope.callbacks) waiting (loaded []) = some c ∧
      c.shared.mutex = some (.main, 1) ∧
      (c.CanMove (allowing .pthread openScope.callbacks) (Starts (MainCall.Only openScope.direct))
          .worker ∨ Crashed .worker c ∨ ∃ u, WaitsFor u .worker c ∧
        (c.CanMove (allowing .pthread openScope.callbacks) (Starts (MainCall.Only openScope.direct)) u ∨
          Crashed u c)) := by
  have hrun : (schedule (allowing .pthread openScope.callbacks) waiting (loaded [])).map
      (fun c => c.shared.mutex) = some (some (.main, 1)) := by decide
  obtain ⟨c, hc, hmutex⟩ := Option.map_eq_some_iff.mp hrun
  have hreach : Reaches .pthread openScope [] c := reaches_of_within
    (by simp [waiting, queued, Turn.Within, MainCall.Only, openScope, NativeCall.Open]) hc
  exact ⟨c, hc, hmutex, never_stuck openScope_allOpen hreach .worker⟩

/-! ### Coming home -/

/-- The table never has more entries than there is memory for. -/
lemma Reaches.stocked (hc : Reaches b D p_Amx c) : Stocked c.shared := by
  refine SecureOutline.invariant
    (safe_init (O := safeOutline step_of_allowing (confined_allowing b D.callbacks)) p_Amx rfl) hc
    (fun t => ?_) ⟨Nat.zero_le _, fun _ h hh => by cases hh⟩
  cases t with
  | main => exact ⟨.worker, by simp, fun _ _ hmoves hs => hmoves.stocked hs⟩
  | worker => exact ⟨.main, by simp, fun _ _ hmoves hs => hmoves.stocked hs⟩

/-- What the statements of an execution return: the size of the table is bounded. -/
def Stmt.Bounded : {β : Type} → Stmt β → β → Prop
  | _, .size, n => n ≤ maxHandlers
  | _, _, _ => True

/-- Where a thread starts from. -/
def homeOf : ThreadId → Point
  | .main => .idle
  | .worker => .asleep

/-- How many positions of the table are still ahead. -/
def Point.ahead : Point → ℕ
  | .tick i => maxHandlers + 1 - i
  | .sweep i => maxHandlers + 1 - i
  | _ => 0

/-- A loop over the table leads home: a pass goes on to the next position, and the size of the table
bounds the positions. -/
lemma starts_ahead {calls : Set MainCall} {x : Point} {p : Code Point} (hp : Starts calls t x p)
    (hx : x ≠ homeOf t) :
    p.Returns Stmt.Bounded fun y => y = homeOf t ∨ y.ahead < x.ahead := by
  cases hp with
  | call => exact absurd rfl hx
  | wake => exact absurd rfl hx
  | tick i =>
    intro n hn
    have hbound : n ≤ maxHandlers := hn
    show (if i < n then _ else _ : Code Point).Returns _ _
    split_ifs with hi
    · exact .then (.inr (by simp only [Point.ahead]; omega))
    · exact .then (.inl rfl)
  | sweep i =>
    intro n hn
    have hbound : n ≤ maxHandlers := hn
    show (if i < n then _ else _ : Code Point).Returns _ _
    split_ifs with hi
    · exact .then (.inr (by simp only [Point.ahead]; omega))
    · exact .then (.inl rfl)

/-- A thread at home does not hold the mutex. -/
lemma Reaches.home_unlocked (hc : Reaches b D p_Amx c) (hat : c.place t = .at (homeOf t)) :
    c.shared.locked t = none := by
  have harrived := hc.arrived hat
  cases t with
  | main =>
    have hpaused : Paused c.shared := harrived
    exact hpaused.1.locked
  | worker =>
    have hasleep : Locking 0 none none c.shared := harrived
    exact hasleep.locked

lemma not_held_of_locked (hs : s.locked t = none) (k : ℕ) : s.mutex ≠ some (t, k) := by
  intro hm
  simp [State.locked, hm] at hs

variable {r : InfiniteRun (allowing b D.callbacks) (Starts (MainCall.Only D.direct)) (loaded p_Amx)}

/-- A thread that moves again and again comes home again and again: the natives return, and the loops of
`ProcessTick` and `ProcessQueryThread` come to their ends although connections are opened meanwhile. -/
lemma home_again (hr : r.Recurs t) (n : ℕ) : ∃ m, n ≤ m ∧ (r.config m).place t = .at (homeOf t) := by
  have hbounded : ∀ n {β : Type} {a : Stmt β} {v s'},
      (allowing b D.callbacks).Step t a (r.config n).shared (.ok v) s' → a.Bounded v := by
    intro n β a v s' hst
    have hreach : Reaches b D p_Amx (r.config n) := r.reachable n
    cases a with
    | size =>
      obtain ⟨-, rfl⟩ := step_size (step_of_allowing hst)
      exact hreach.stocked.1
    | _ => trivial
  have hrank : ∀ x p, Starts (MainCall.Only D.direct) t x p → ¬ x = homeOf t →
      p.Returns Stmt.Bounded fun y => y = homeOf t ∨ y.ahead < x.ahead :=
    fun x p hp hx => starts_ahead hp hx
  obtain ⟨m, x, hnm, rfl, hat⟩ := InfiniteRun.comes_home hr hbounded hrank n
  exact ⟨m, hnm, hat⟩

/-- The mutex passes from one thread to the other only when it is free. -/
lemma stays_held {u : ThreadId} {c' : Config Stmt Fault State ThreadId Point} {n : ℕ}
    (hstep : Config.StepOf (allowing b D.callbacks) (Starts (MainCall.Only D.direct)) u c c')
    (hc : c.shared.mutex = some (t, n)) (hc' : c'.shared.mutex ≠ none) :
    ∃ m, c'.shared.mutex = some (t, m) := by
  have hkeeps : ∀ v, v ≠ u → c'.shared.locked v = c.shared.locked v := by
    intro v hv
    cases hstep with
    | start => rfl
    | act _ hst =>
      obtain ⟨r, -, hrun⟩ := step_of_allowing hst
      exact Stmt.run_locked hv hrun
    | fault _ hst =>
      obtain ⟨r, -, hrun⟩ := step_of_allowing hst
      exact Stmt.run_locked hv hrun
    | finish => rfl
  obtain ⟨⟨v, m⟩, hm⟩ := Option.ne_none_iff_exists'.mp hc'
  by_cases hvt : v = t
  · exact ⟨m, hvt ▸ hm⟩
  · by_cases hvu : v = u
    · -- `u` has taken the mutex of `t`
      have htu : t ≠ u := fun h => hvt (hvu.trans h.symm)
      have hlocked := hkeeps t htu
      simp [State.locked, hc, hm, hvt] at hlocked
    · have hlocked := hkeeps v hvu
      simp [State.locked, hc, hm, Ne.symm hvt] at hlocked

end

end MySQLPlugin

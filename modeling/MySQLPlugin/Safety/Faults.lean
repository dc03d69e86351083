import MySQLPlugin.Interplay.Schedule
import MySQLPlugin.Safety.Ticks

/-!
# Safety in every interleaving

Whatever natives the scripts call and however the two threads interleave, no thread uses a deleted
handler that it has found in the table; the worker fails on a null pointer or a result set only;
`queueData` and the entries of the table change under the mutex; and the handlers that live are the
entries of the table. The runs end before `Unload`, which deletes the handlers and erases their
entries without the mutex.
-/

namespace MySQLPlugin

open Threads Prog CMySQLHandler

/-! ### The proof outline -/

section

variable {M : Machine Stmt Fault State ThreadId Reply} {b : Build} {D : Scope}

/-- The two threads keep to the policy. -/
def safeOutline (hM : ∀ {t : ThreadId} {β : Type} {a : Stmt β} {s o s'}, M.Step t a s o s' →
      (plugin b).Step t a s o s') (hN : Confined M D.callbacks) :
    SecureOutline M (Starts (MainCall.Only D.direct)) (policy D) where
  rely := movesRely
  holdsAt := safeAt
  stable t x := by
    cases t <;> cases x <;>
      first
      | exact stable_paused
      | exact stable_locking 0 none none
      | exact stable_sweepsAt _
      | exact Stable.const False
  secures t x p s hp hs := by
    cases hp with
    | @call m hm =>
      cases m with
      | native n => exact nativeCall_secures hM (fun hD => hD.2 n (hm n rfl)) hs
      | amxLoad a =>
        exact amx_secures hM trivial rfl trivial trivial (fun _ => rfl) (fun _ => trivial) hs
      | amxUnload a =>
        exact amx_secures hM trivial rfl trivial trivial (fun _ => rfl) (fun _ => trivial) hs
      | processTick => exact processTick_secures hM hs
    | tick i => exact tickLoop_secures hM hN i hs
    | wake => exact processQueryThread_secures hM hs
    | sweep i => exact sweepLoop_secures hM hs

/-- Nothing is loaded but the scripts. -/
lemma safe_init (p_Amx : List Amx) {O : SecureOutline M (Starts (MainCall.Only D.direct)) (policy D)}
    (hO : O.holdsAt = safeAt) (u : ThreadId) :
    O.HoldsOf u ((loaded p_Amx).place u) (loaded p_Amx).shared := by
  have hregistered : Listed [] (∅ : Set HandlerPtr) 0 :=
    ⟨List.nodup_nil, Nat.zero_le _, fun p => by simp, by simp⟩
  have hlive : (State.init p_Amx).live = ∅ := by
    ext p
    simp [State.live, State.init]
  have hstocked : Stocked (State.init p_Amx) := ⟨Nat.zero_le _, by simp [State.init]⟩
  cases u with
  | main =>
    show O.holdsAt .main .idle (State.init p_Amx)
    rw [hO]
    exact ⟨⟨rfl, hlive ▸ hregistered, hstocked⟩, rfl⟩
  | worker =>
    show O.holdsAt .worker .asleep (State.init p_Amx)
    rw [hO]
    exact ⟨rfl, hstocked, rfl, rfl⟩

end

/-! ### What is never reached -/

/-- The configurations of the plugin whose scripts call natives within the scope. -/
abbrev Reaches (b : Build) (D : Scope) (p_Amx : List Amx)
    (c : Config Stmt Fault State ThreadId Point) : Prop :=
  Config.Reachable (allowing b D.callbacks) (Starts (MainCall.Only D.direct)) (loaded p_Amx) c

/-! ### Schedules -/

/-- The scripts call every native, and the publics that `ProcessTick` calls every native but
`mysql_close`. -/
def openCallbacks : Scope := ⟨Set.univ, {n | n.Open}⟩

/-- The point at which a thread has started a program that has failed, and the fault. -/
def faultOf : Local Stmt Fault Point → Option (Point × Fault)
  | .inside x (.fail e) => some (x, e)
  | _ => none

/-- The assignment that a thread is about to execute, with the point and the handler. -/
def assignOf : Local Stmt Fault Point → Option (Point × HandlerPtr × Assign)
  | .inside x (.act (.assign h a) _) => some (x, h, a)
  | _ => none

lemma faultOf_eq_some {l : Local Stmt Fault Point} {x : Point} {e : Fault} :
    faultOf l = some (x, e) ↔ l = .inside x (.fail e) := by
  constructor
  · intro h
    cases l with
    | «at» y => cases h
    | inside y p => cases p <;> cases h; rfl
  · rintro rfl
    rfl

lemma of_assignOf {l : Local Stmt Fault Point} {x : Point} {h : HandlerPtr} {a : Assign}
    (hl : assignOf l = some (x, h, a)) : ∃ k, l = .inside x (.act (.assign h a) k) := by
  cases l with
  | «at» y => cases hl
  | inside y p =>
    cases p with
    | act a k =>
      cases a <;> cases hl
      exact ⟨k, rfl⟩
    | _ => cases hl

/-- A connection is opened, and a threaded query put into its queue. -/
def queued : List Turn :=
  [.call (.native (.mysql_connect ['h'] ['u'] ['d'] ['p'] 3306)), .go .main 15 {},
    .call (.native (.mysql_query ['q'] 1 0 1)), .go .main 11 {}]

/-- The server, a script or a public calls natives within the scope only. -/
def Turn.Within (D : Scope) : Turn → Prop
  | .call m => m ∈ MainCall.Only D.direct
  | .go _ _ r => ∀ n ∈ r.natives, n ∈ D.callbacks

lemma reaches_of_within {b : Build} {D : Scope} {c₀ c : Config Stmt Fault State ThreadId Point}
    {turns : List Turn} (hturns : ∀ turn ∈ turns, turn.Within D)
    (h : schedule (allowing b D.callbacks) turns c₀ = some c) :
    Config.Reachable (allowing b D.callbacks) (Starts (MainCall.Only D.direct)) c₀ c := by
  refine reachable_of_schedule (fun turn hturn => ?_) .start h
  have hwithin := hturns turn hturn
  cases turn with
  | call m => exact hwithin
  | go t n r =>
    intro β a s
    refine ⟨trivial, ?_⟩
    cases a with
    | exec => exact hwithin
    | _ => trivial

section

variable {b : Build} {D : Scope} {p_Amx : List Amx} {c : Config Stmt Fault State ThreadId Point}
  {t : ThreadId} {x : Point}

lemma Reaches.permitted (hc : Reaches b D p_Amx c) {β : Type} {a : Stmt β} {k : β → Code Point}
    (hat : c.place t = .inside x (.act a k)) : a.May D t c.shared :=
  SecureOutline.permitted (safe_init (O := safeOutline step_of_allowing (confined_allowing b _)) p_Amx
    rfl) hc hat

lemma Reaches.failed (hc : Reaches b D p_Amx c) {e : Fault} (hat : c.place t = .inside x (.fail e)) :
    e.Of D t :=
  SecureOutline.failed (safe_init (O := safeOutline step_of_allowing (confined_allowing b _)) p_Amx
    rfl) hc hat

lemma Reaches.arrived (hc : Reaches b D p_Amx c) (hat : c.place t = .at x) :
    safeAt t x c.shared :=
  SecureOutline.arrived (safe_init (O := safeOutline step_of_allowing (confined_allowing b _)) p_Amx
    rfl) hc hat

/-- No thread uses an entry of the table that has been deleted. The main thread may read an entry past
the end of the table, where the pointer to a deleted handler may still lie, but only if publics close
connections. -/
theorem never_dangling (hc : Reaches b D p_Amx c) {e : Fault}
    (hat : c.place t = .inside x (.fail e)) :
    e ≠ .dangling ∧ (e = .outOfRange → t = .main ∧ ¬ D.CallbacksOpen) := by
  have hfailed : e.Of D t := hc.failed hat
  cases t with
  | main =>
    refine ⟨hfailed.1, ?_⟩
    rintro rfl
    exact ⟨rfl, fun hopen => (hfailed.2.1 hopen).1 rfl⟩
  | worker => rcases hfailed with rfl | rfl <;> simp

/-- A script that listens to outcomes. -/
def notified : Amx := ⟨0, [OnQueryFinish]⟩

/-- The scripts and the publics call every native. -/
def anyScope : Scope := ⟨Set.univ, Set.univ⟩

/-- A query is executed, and its callback closes the only connection. -/
def closedInside : List Turn :=
  queued ++ [.go .worker 23 {}, .call .processTick, .go .main 12 {},
    .go .main 1 { natives := [.mysql_close 1] }, .go .main 22 {}]

theorem never_dangling_closedInside :
    ∃ c, schedule (allowing .win32 anyScope.callbacks) closedInside (loaded [notified]) = some c ∧
      c.shared.heap 0 = none ∧ c.place .main = .inside (.tick 0) (.fail .outOfRange) ∧
      Fault.outOfRange ≠ .dangling ∧
      (Fault.outOfRange = .outOfRange → ThreadId.main = .main ∧ ¬ anyScope.CallbacksOpen) := by
  have hrun : (schedule (allowing .win32 anyScope.callbacks) closedInside (loaded [notified])).map
      (fun c => (c.shared.heap 0, faultOf (c.place .main))) =
        some (none, some (.tick 0, .outOfRange)) := by decide +kernel
  obtain ⟨c, hc, h⟩ := Option.map_eq_some_iff.mp hrun
  obtain ⟨hheap, hfault⟩ := Prod.mk.inj h
  have hat := faultOf_eq_some.mp hfault
  have hreach : Reaches .win32 anyScope [notified] c := reaches_of_within
    (by simp [closedInside, queued, Turn.Within, MainCall.Only, anyScope]) hc
  exact ⟨c, hc, hheap, hat, never_dangling hreach hat⟩

/-- Before `Unload` the worker fails only on a null pointer or on a result set that is not alive. -/
theorem worker_faults (hc : Reaches b D p_Amx c) {e : Fault}
    (hat : c.place .worker = .inside x (.fail e)) : e = .nullPointer ∨ e = .badResult :=
  hc.failed hat

/-- The connection is lost, and there is no memory for another one. -/
def lostForEver : List Turn := queued ++ [.go .worker 9 {}, .go .worker 10 { ok := false }]

theorem worker_faults_lostForEver :
    ∃ c, schedule (allowing .pthread openCallbacks.callbacks) lostForEver (loaded []) = some c ∧
      c.place .worker = .inside (.sweep 0) (.fail .nullPointer) ∧
      (Fault.nullPointer = .nullPointer ∨ Fault.nullPointer = .badResult) := by
  have hrun : (schedule (allowing .pthread openCallbacks.callbacks) lostForEver (loaded [])).map
      (fun c => faultOf (c.place .worker)) = some (some (.sweep 0, .nullPointer)) := by decide
  obtain ⟨c, hc, hfault⟩ := Option.map_eq_some_iff.mp hrun
  have hat := faultOf_eq_some.mp hfault
  have hreach : Reaches .pthread openCallbacks [] c := reaches_of_within
    (by simp [lostForEver, queued, Turn.Within, MainCall.Only, openCallbacks]) hc
  exact ⟨c, hc, hat, worker_faults hreach hat⟩

/-- While no public closes a connection, the main thread stays inside the table and pops no empty
queue. -/
theorem main_faults (hD : D.CallbacksOpen) (hc : Reaches b D p_Amx c) {e : Fault}
    (hat : c.place .main = .inside x (.fail e)) : e ≠ .outOfRange ∧ e ≠ .emptyQueue :=
  (hc.failed hat).2.1 hD

/-- The callback of a query opens another connection, and there is no memory for it. -/
def neverOpened : List Turn :=
  queued ++ [.go .worker 23 {}, .call .processTick, .go .main 12 {},
    .go .main 1 { natives := [.mysql_connect ['i'] ['u'] ['d'] ['p'] 3306] }, .go .main 10 { ok := false }]

theorem main_faults_neverOpened :
    ∃ c, schedule (allowing .pthread openCallbacks.callbacks) neverOpened (loaded [notified]) = some c ∧
      c.place .main = .inside (.tick 0) (.fail .nullPointer) ∧
      Fault.nullPointer ≠ .outOfRange ∧ Fault.nullPointer ≠ .emptyQueue := by
  have hrun : (schedule (allowing .pthread openCallbacks.callbacks) neverOpened
      (loaded [notified])).map (fun c => faultOf (c.place .main)) =
        some (some (.tick 0, .nullPointer)) := by decide +kernel
  obtain ⟨c, hc, hfault⟩ := Option.map_eq_some_iff.mp hrun
  have hat := faultOf_eq_some.mp hfault
  have hreach : Reaches .pthread openCallbacks [notified] c := reaches_of_within
    (by simp [neverOpened, queued, Turn.Within, MainCall.Only, openCallbacks, NativeCall.Open]) hc
  exact ⟨c, hc, hat, main_faults (D := openCallbacks) (fun n hn => hn) hreach hat⟩

/-- A change of a queue of threaded queries, of the entries of the table before the last, or of the
handlers that live. -/
def Stmt.Shared {β : Type} : Stmt β → Prop
  | .assign _ a => a.OnQueue
  | .erase _ | .delete _ => True
  | _ => False

/-- Before `Unload` a thread changes what both threads work on only while it holds the mutex. -/
theorem shared_under_mutex (hc : Reaches b D p_Amx c) {β : Type} {a : Stmt β} {k : β → Code Point}
    (hat : c.place t = .inside x (.act a k)) (ha : a.Shared) :
    ∃ n, c.shared.mutex = some (t, n) := by
  have hlocked : c.shared.locked t ≠ none := by
    have hmay := hc.permitted hat
    cases a with
    | assign h a => exact hmay.2.1 ha
    | erase i => exact hmay.1
    | delete h => exact hmay.2.1
    | _ => exact ha.elim
  cases hm : c.shared.mutex with
  | none => simp [State.locked, hm] at hlocked
  | some m =>
    obtain ⟨u, n⟩ := m
    by_cases hu : u = t
    · exact ⟨n, by rw [hu]⟩
    · simp [State.locked, hm, hu] at hlocked

/-- A connection is about to be closed: its queue is emptied first. -/
def emptying : List Turn := queued ++ [.call (.native (.mysql_close 1)), .go .main 5 {}]

theorem shared_under_mutex_emptying :
    ∃ c k, schedule (allowing .pthread openCallbacks.callbacks) emptying (loaded []) = some c ∧
      c.place .main = .inside .idle (.act (.assign 0 .queueData_popAll) k) ∧
      ∃ n, c.shared.mutex = some (.main, n) := by
  have hrun : (schedule (allowing .pthread openCallbacks.callbacks) emptying (loaded [])).map
      (fun c => assignOf (c.place .main)) = some (some (.idle, 0, .queueData_popAll)) := by decide
  obtain ⟨c, hc, hassign⟩ := Option.map_eq_some_iff.mp hrun
  obtain ⟨k, hat⟩ := of_assignOf hassign
  have hreach : Reaches .pthread openCallbacks [] c := reaches_of_within
    (by simp [emptying, queued, Turn.Within, MainCall.Only, openCallbacks]) hc
  exact ⟨c, k, hc, hat, shared_under_mutex hreach hat trivial⟩

/-- Before `Unload`, whenever the main thread is between two calls of the server or at the head of the
loop of `ProcessTick`, the handlers that live are the entries of the table, each of them once. -/
theorem live_iff_entry (hc : Reaches b D p_Amx c) (hat : c.place .main = .at x) :
    c.shared.SQLHandle.Nodup ∧ ∀ h, c.shared.heap h ≠ none ↔ h ∈ c.shared.SQLHandle := by
  have hpaused : Paused c.shared := by
    have harrived := hc.arrived hat
    cases x <;> first | exact harrived | exact harrived.elim
  exact ⟨hpaused.1.registry.nodup, hpaused.1.registry.live⟩

/-- A connection is closed and another one opened. -/
def replaced : List Turn :=
  queued ++ [.call (.native (.mysql_close 1)), .go .main 23 {},
    .call (.native (.mysql_connect ['h'] ['u'] ['d'] ['p'] 3306)), .go .main 15 {}]

theorem live_iff_entry_replaced :
    ∃ c, schedule (allowing .win32 openCallbacks.callbacks) replaced (loaded []) = some c ∧
      c.place .main = .at .idle ∧ c.shared.SQLHandle = [1] ∧
      c.shared.SQLHandle.Nodup ∧ ∀ h, c.shared.heap h ≠ none ↔ h ∈ c.shared.SQLHandle := by
  have hrun : (schedule (allowing .win32 openCallbacks.callbacks) replaced (loaded [])).map
      (fun c => (pointOf (c.place .main), c.shared.SQLHandle)) = some (some .idle, [1]) := by decide
  obtain ⟨c, hc, h⟩ := Option.map_eq_some_iff.mp hrun
  obtain ⟨hpoint, htable⟩ := Prod.mk.inj h
  have hat := pointOf_eq_some.mp hpoint
  have hreach : Reaches .win32 openCallbacks [] c := reaches_of_within
    (by simp [replaced, queued, Turn.Within, MainCall.Only, openCallbacks]) hc
  exact ⟨c, hc, hat, htable, live_iff_entry hreach hat⟩

end

end MySQLPlugin

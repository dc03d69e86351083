import MySQLPlugin.Dispatch.Course
import MySQLPlugin.Progress.Sweeps
import MySQLPlugin.Queues.Interleaved

/-!
# `ProcessTick` comes to every outcome

A callback that closes a connection moves the entries behind it one position down, so that a tick may
pass by a handler. The position of a handler never grows, though, so this happens finitely often; from
then on a tick reaches the handler and takes the outcome at the front.
-/

namespace MySQLPlugin

open Threads Prog CMySQLHandler Dispatch

/-! ### The position of a handler -/

/-- What is removed from a list is not what is looked for: its position does not grow. -/
lemma idxOf_eraseIdx_le {γ : Type} [DecidableEq γ] {a : γ} {l : List γ} {i : ℕ}
    (hi : l[i]? ≠ some a) : (l.eraseIdx i).idxOf a ≤ l.idxOf a := by
  induction l generalizing i with
  | nil => simp
  | cons b l ih =>
    cases i with
    | zero =>
      have hb : b ≠ a := by simpa using hi
      simp [List.idxOf_cons_ne _ hb]
    | succ i =>
      have htail : (l.eraseIdx i).idxOf a ≤ l.idxOf a := ih (by simpa using hi)
      by_cases hb : b = a
      · simp [hb]
      · simpa [List.idxOf_cons_ne _ hb] using htail

section

variable {D : Scope} {t : ThreadId} {e : Event} {s s' : State} {h : HandlerPtr}

/-- The entry of a live handler is not erased. -/
lemma Permits.erase_ne {i : ℕ} {p : HandlerPtr} (hp : Permits D t (.erase i p) s s')
    (hlive : h ∈ s.live) : s.SQLHandle[i]? ≠ some h := by
  intro hi
  obtain rfl : p = h := Option.some.inj (hp.occurs.symm.trans hi)
  exact hlive (hp.permitted hp.occurs)

/-- A live handler stays in the table. -/
lemma Permits.entry (hp : Permits D t e s s') (hlive : h ∈ s.live) (hentry : h ∈ s.SQLHandle) :
    h ∈ s'.SQLHandle := by
  rw [hp.table]
  cases e with
  | erase i p =>
    obtain ⟨j, hj⟩ := List.mem_iff_getElem?.mp hentry
    refine List.mem_eraseIdx_iff_getElem?.mpr ⟨j, ?_, hj⟩
    rintro rfl
    exact hp.erase_ne hlive hj
  | pushBack p => exact List.mem_append_left _ hentry
  | _ => exact hentry

/-- The position of a live handler never grows. -/
lemma Permits.position_le (hp : Permits D t e s s') (hlive : h ∈ s.live) (hentry : h ∈ s.SQLHandle) :
    s'.SQLHandle.idxOf h ≤ s.SQLHandle.idxOf h := by
  rw [hp.table]
  cases e with
  | erase i p => exact idxOf_eraseIdx_le (hp.erase_ne hlive)
  | pushBack p => exact (List.idxOf_append_of_mem hentry).le
  | _ => exact le_rfl

end

/-! ### One position -/

/-- At position `j` stands the handler `h`, and the assignment is defined for it. -/
def Ready (a : Assign) (j : ℕ) (h : HandlerPtr) (s : State) : Prop :=
  s.SQLHandle[j]? = some h ∧ ∃ x, s.heap h = some x ∧ a.defined x = true

/-- `ProcessTick` has not passed position `j`. -/
def Until (j : ℕ) : Point → State → Prop
  | .tick i, s => Paused s ∧ i ≤ j
  | _, _ => False

section

variable {b : Build} {D : Scope} {s : State} {a : Assign} {h : HandlerPtr} {i j : ℕ}

lemma stable_until (j : ℕ) (x : Point) : Stable (movesRely .main) (Until j x) := by
  cases x with
  | tick i => exact stable_paused.and (Stable.const (i ≤ j))
  | _ => exact Stable.const False

variable {M : Machine Stmt Fault State ThreadId Reply}
  (hM : ∀ {t : ThreadId} {β : Type} {a : Stmt β} {s o s'}, M.Step t a s o s' →
    (plugin b).Step t a s o s') (hN : Confined M D.callbacks)
  (hI : ∀ {t : ThreadId} {β : Type} {c : Stmt β} {s o s'}, M.Step t c s o s' →
    Ready a j h s ∧ c.Omits {a} h)

include hM hI

/-- The table has more than `j` entries. -/
lemma within_secures {f : ℕ → Code Point} {Q : Point → State → Prop}
    (hf : ∀ n s, Paused s → j < n → (f n).Secures M movesRely (policy D) .main Q s) (hs : Paused s) :
    (Prog.lift .size >>= f).Secures M movesRely (policy D) .main Q s := by
  refine secures_read hM trivial stable_paused hs (fun _ _ => trivial) fun n s s' hs hst _ => ?_
  obtain ⟨-, rfl⟩ := step_size (hM hst)
  obtain ⟨hlt, -⟩ := List.getElem?_eq_some_iff.mp (hI hst).1.1
  exact hf _ s hs hlt

/-- A tick begins before every position. -/
lemma processTick_until (hs : Paused s) :
    processTick.Secures M movesRely (policy D) .main (fun y => Until j y) s := by
  refine secures_paused hM (a := .mark .tick) trivial rfl trivial trivial (fun _ => rfl)
    (fun _ => trivial) (fun s hs => ?_) hs
  refine within_secures hM hI (fun n s hs hlt => ?_) hs
  rw [if_pos (Nat.zero_lt_of_lt hlt)]
  exact secures_ret (stable_until j (.tick 0)) ⟨hs, Nat.zero_le j⟩

include hN

/-- The visit of position `j` takes the outcome. -/
lemma takes_secures (ha : a.Pops) (hs : TicksAt D j s) :
    (tickVisit j).Secures M movesRely (policy D) .main (fun _ _ => False) s := by
  have htaken {p : HandlerPtr} {s s' : State} (hp : s.SQLHandle[j]? = some p)
      (hst : M.Step .main (.assign p a) s (.ok ()) s') : False := by
    obtain ⟨hready, homits⟩ := hI hst
    obtain rfl : p = h := Option.some.inj (hp.symm.trans hready.1)
    exact homits rfl rfl
  have hdefined {p : HandlerPtr} {x : CMySQLHandler} {s s' : State} (hp : s.SQLHandle[j]? = some p)
      (hst : M.Step .main (.this p) s (.ok x) s') : a.defined x = true := by
    obtain ⟨hready, y, hy, hdef⟩ := (hI hst).1
    obtain rfl : p = h := Option.some.inj (hp.symm.trans hready)
    obtain rfl : y = x := Option.some.inj (hy.symm.trans (step_this (hM hst)).2)
    exact hdef
  cases a with
  | errorCallback_pop =>
    refine .bind (Secures.mono (Q := fun _ _ => False) ?_ fun _ _ hno => hno.elim)
    refine errorHalf_secures hM hN (fun p s s' hp hst _ => (htaken hp hst).elim)
      (fun p x s s' _ hp hst hempty => ?_) hs
    have hdef := hdefined hp hst
    simp [Assign.defined, hempty] at hdef
  | callbackData_pop =>
    refine .bind ((tickError_secures hM hN hs).mono fun _ s hs => ?_)
    refine callbackHalf_secures hM hN (fun p s s' hp hst _ => (htaken hp hst).elim)
      (fun p x s s' _ hp hst hempty => ?_) hs
    have hdef := hdefined hp hst
    simp [Assign.defined, hempty] at hdef
  | _ => exact ha.elim

lemma tickLoop_until (ha : a.Pops) (hs : Until j (.tick i) s) :
    (tickLoop i).Secures M movesRely (policy D) .main (fun y => Until j y) s := by
  obtain ⟨hs, hij⟩ := hs
  refine secures_read hM trivial stable_paused hs (fun _ _ => trivial) fun n s s' hs hst _ => ?_
  obtain ⟨-, rfl⟩ := step_size (hM hst)
  obtain ⟨hlt, -⟩ := List.getElem?_eq_some_iff.mp (hI hst).1.1
  have hi : i < s.SQLHandle.length := hij.trans_lt hlt
  rw [if_pos hi]
  rcases Nat.eq_or_lt_of_le hij with rfl | hij
  · exact .bind ((takes_secures hM hN hI ha ⟨hs, fun _ => hi⟩).mono fun _ _ hno => hno.elim)
  · refine .bind ((tickVisit_secures hM hN ⟨hs, fun _ => hi⟩).mono fun _ s hs => ?_)
    exact secures_ret (stable_until j (.tick (i + 1))) ⟨hs.paused, hij⟩

end

/-! ### Every outcome is taken -/

section

variable {b : Build} {D : Scope} {p_Amx : List Amx} {r : Endless b D p_Amx}

/-- A tick that finds an outcome at position `j` takes it, unless the handler has moved. -/
lemma taken_at (hr : Ticks r) {a : Assign} (ha : a.Pops) (j : ℕ) (h : HandlerPtr) (n : ℕ) :
    ∃ m, n ≤ m ∧ (¬ Ready a j h (r.config m).shared ∨ Happens r m (.assign .main h a)) := by
  obtain ⟨k, hnk, hturn, hat, hplace⟩ := hr n
  have hstep := r.step k
  rw [hturn] at hstep
  obtain ⟨-, -, -, hshared⟩ := hstep.of_at hat
  have hpaused : Paused (r.config (k + 1)).shared := by
    rw [hshared]
    exact (r.reaches k).arrived hat
  have hpasses : ∃ m, k + 1 ≤ m ∧ ∃ β, ∃ c : Stmt β, r.Executes m c ∧
      ¬ (Ready a j h (r.config m).shared ∧ c.Omits {a} h) := by
    refine InfiniteRun.passes (t := ThreadId.main) (I := fun _ c s => Ready a j h s ∧ c.Omits {a} h)
      (J := Until j) (safeOutline step_of_allowing (confined_allowing b D.callbacks))
      (safe_init p_Amx rfl) (stable_until j) (fun x s (hx : x = .idle) hJ => ?_)
      (fun x p s hp hs => ?_) (fun n => ?_) hplace ?_
    · subst hx
      exact hJ
    · cases hp with
      | call => exact hs.elim
      | tick i =>
        exact tickLoop_until (fun hst => step_of_allowing hst.of_restrict)
          (fun a p s o s' hst => confined_allowing b D.callbacks a p s o s' hst.of_restrict)
          (fun ⟨_, ⟨_, hI⟩, _⟩ => hI) ha hs
    · obtain ⟨m, hm, -, hat, -⟩ := hr n
      exact ⟨m, .idle, hm, rfl, hat⟩
    · exact processTick_until (fun hst => step_of_allowing hst.of_restrict)
        (fun ⟨_, ⟨_, hI⟩, _⟩ => hI) hpaused
  obtain ⟨m, hm, β, c, hc, hno⟩ := hpasses
  by_cases hready : Ready a j h (r.config m).shared
  · have htakes : ¬ c.Omits {a} h := fun homits => hno ⟨hready, homits⟩
    cases c with
    | assign p c =>
      simp only [Stmt.Omits, Classical.not_imp, not_not, Set.mem_singleton_iff] at htakes
      obtain ⟨rfl, rfl⟩ := htakes
      have hmain : r.turn m = .main := by
        have hallowed : c.Allowed (r.turn m) p (r.config m).shared := (may_of_executes hc).2.2.2.1
        cases c <;> first | exact hallowed | exact ha.elim
      obtain ⟨-, x, hx, hdefined⟩ := hready
      have heff := effect_of_executes hc hx hdefined
      exact ⟨m, by omega, .inr (hmain ▸ heff.trace)⟩
    | _ => exact absurd trivial htakes
  · exact ⟨m, by omega, .inl hready⟩

/-- The handler stands in the table, and the assignment is defined for it. -/
structure Offered (a : Assign) (h : HandlerPtr) (s : State) : Prop where
  entry : h ∈ s.SQLHandle
  defined : ∃ x, s.heap h = some x ∧ a.defined x = true

lemma Offered.ready {a : Assign} {h : HandlerPtr} {s : State} (hs : Offered a h s) :
    Ready a (s.SQLHandle.idxOf h) h s :=
  ⟨List.getElem?_idxOf hs.entry, hs.defined⟩

lemma Offered.live {a : Assign} {h : HandlerPtr} {s : State} (hs : Offered a h s) : h ∈ s.live := by
  obtain ⟨-, x, hx, -⟩ := hs
  simp [State.live, hx]

/-- An outcome stays where it is until it is taken or the handler is deleted. -/
lemma Offered.step {a : Assign} (ha : a.Pops) {h : HandlerPtr} {s s' : State} {t : ThreadId} {e : Event}
    (hs : Offered a h s) (hbooked : Booked p_Amx s) (hp : Permits D t e s s') (hlive : h ∈ s'.live)
    (htaken : e ≠ .assign .main h a) : Offered a h s' := by
  obtain ⟨x, hx, hdefined⟩ := hs.defined
  refine ⟨hp.entry hs.live hs.entry, ?_⟩
  have hdelete : e ≠ .delete h := by
    rintro rfl
    exact hlive (by rw [hp.heap h]; simp [Event.onObject])
  rcases hp.object hx (hbooked.lt_nextHandler hx) hdelete with ⟨c, rfl, hx'⟩ | hx'
  · refine ⟨c.apply x, hx', ?_⟩
    have hallowed : c.Allowed t h s := hp.permitted.2.1
    have hne : c ≠ a := by
      rintro rfl
      obtain rfl : t = .main := by
        cases c <;> first | exact hallowed | exact ha.elim
      exact htaken rfl
    cases a <;> first | exact ha.elim | skip
    all_goals
      cases c <;> first
        | exact absurd rfl hne
        | exact hdefined
        | simp [Assign.defined, Assign.apply]
  · exact ⟨x, hx', hdefined⟩

/-- While `ProcessTick` is called again and again, it takes the outcome at the front of each channel of
every handler that is not deleted first. -/
lemma outcome_taken (hr : Ticks r) {a : Assign} (ha : a.Pops) {h : HandlerPtr} {n : ℕ}
    (hs : Offered a h (r.config n).shared) :
    ∃ m, n ≤ m ∧ ((r.config m).shared.heap h = none ∨ Happens r m (.assign .main h a)) := by
  by_contra hnever
  have hlive : ∀ m, n ≤ m → h ∈ (r.config m).shared.live := fun m hm hnone =>
    hnever ⟨m, hm, .inl hnone⟩
  have hoffered : ∀ m, n ≤ m → Offered a h (r.config m).shared := by
    intro m hm
    refine r.lasts hs (fun m hm e he hp hs => ?_) hm
    refine hs.step ha (r.reaches m).booked hp (hlive (m + 1) (by omega)) ?_
    rintro rfl
    exact hnever ⟨m, hm, .inr he⟩
  have hposition : ∀ m, n ≤ m → ∀ k, m ≤ k →
      (r.config k).shared.SQLHandle.idxOf h ≤ (r.config m).shared.SQLHandle.idxOf h := by
    intro m hm k hk
    refine r.lasts (P := fun s => s.SQLHandle.idxOf h ≤ (r.config m).shared.SQLHandle.idxOf h) le_rfl
      (fun k hk e _ hp hle => ?_) hk
    exact (hp.position_le (hlive k (by omega)) (hoffered k (by omega)).entry).trans hle
  -- each tick that passes by the handler finds it at a smaller position
  have hdescent : ∀ j m, n ≤ m → (r.config m).shared.SQLHandle.idxOf h = j → False := by
    intro j
    induction j using Nat.strong_induction_on with
    | _ j ih =>
      intro m hm hj
      obtain ⟨k, hk, hmoved | htaken⟩ := taken_at hr ha j h m
      · have hle := hposition m hm k hk
        have hne : (r.config k).shared.SQLHandle.idxOf h ≠ j := fun heq =>
          hmoved (heq ▸ (hoffered k (hm.trans hk)).ready)
        exact ih _ (by omega) k (hm.trans hk) rfl
      · exact hnever ⟨k, hm.trans hk, .inr htaken⟩
  exact hdescent _ n le_rfl rfl

/-! ### Every outcome is taken from its channel -/

variable {h : HandlerPtr} {n : ℕ}

/-- The books of a handler at the next moment. -/
lemma books_next (r : Endless b D p_Amx) (h : HandlerPtr) (m : ℕ) :
    books h (r.config (m + 1)).shared.trace = books h (r.config m).shared.trace ∨
      ∃ e o, Happens r m e ∧ e.bookOp h = some o ∧
        books h (r.config (m + 1)).shared.trace = (books h (r.config m).shared.trace).step o := by
  rcases r.permits m with hsame | ⟨e, he, -⟩
  · exact .inl (by rw [hsame])
  · cases ho : e.bookOp h with
    | none => exact .inl (by rw [he, books_concat_none ho])
    | some o => exact .inr ⟨e, o, he, ho, by rw [he, books_concat_some ho]⟩

lemma entry_stays (hlive : ∀ m, n ≤ m → h ∈ (r.config m).shared.live)
    (hentry : h ∈ (r.config n).shared.SQLHandle) {m : ℕ} (hm : n ≤ m) :
    h ∈ (r.config m).shared.SQLHandle :=
  r.lasts (P := fun s => h ∈ s.SQLHandle) hentry
    (fun m hm _ _ hp hentry => hp.entry (hlive m hm) hentry) hm

/-- The books of a handler that lives for ever. -/
lemma course_of_live (hr : Ticks r) (hlive : ∀ m, n ≤ m → h ∈ (r.config m).shared.live)
    (hentry : h ∈ (r.config n).shared.SQLHandle) :
    Ledger.Course fun k => books h (r.config (n + k)).shared.trace := by
  have hhands {a : Assign} {o : Dispatch.Op MainInfo ErrorInfo} (ha : a.Pops)
      (hbook : (Event.assign .main h a).bookOp h = some o) {k : ℕ}
      (hdefined : ∀ x pre, Mirrors pre x (books h (r.config (n + k)).shared.trace) →
        a.defined x = true) :
      ∃ m, k ≤ m ∧ books h (r.config (n + (m + 1))).shared.trace
        = (books h (r.config (n + m)).shared.trace).step o := by
    have hk : n ≤ n + k := Nat.le_add_right n k
    obtain ⟨x, hx⟩ := Option.ne_none_iff_exists'.mp (hlive (n + k) hk)
    obtain ⟨pre, -, hmirrors⟩ := (r.reaches (n + k)).booked.mirrors h x hx
    have hoffered : Offered a h (r.config (n + k)).shared :=
      ⟨entry_stays hlive hentry hk, x, hx, hdefined x pre hmirrors⟩
    obtain ⟨m, hm, hgone | htaken⟩ := outcome_taken hr ha hoffered
    · exact absurd hgone (hlive m (by omega))
    · obtain ⟨j, rfl⟩ := Nat.exists_eq_add_of_le (hk.trans hm)
      exact ⟨j, by omega, by rw [← Nat.add_assoc, htaken, books_concat_some hbook]⟩
  refine ⟨fun k => ?_, fun k hdone => ?_, fun k hfailed => ?_⟩
  · rcases books_next r h (n + k) with hsame | ⟨e, o, -, -, hstep⟩
    · exact .inl hsame
    · exact .inr ⟨o, hstep⟩
  · refine hhands (a := .callbackData_pop) trivial (by simp [Event.bookOp]) fun x pre hmirrors => ?_
    simp [Assign.defined, hmirrors.callbackData, hdone]
  · refine hhands (a := .errorCallback_pop) trivial (by simp [Event.bookOp]) fun x pre hmirrors => ?_
    simp [Assign.defined, hmirrors.errorCallback, hfailed]

/-- While `ProcessTick` is called again and again, every outcome that waits for it is taken from its
channel, unless the handler is deleted first; whatever natives the scripts call, also from the
publics. -/
theorem outcomes_delivered (hr : Ticks r) (hentry : h ∈ (r.config n).shared.SQLHandle)
    {q : MainInfo × ℕ} (hq : q ∈ (books h (r.config n).shared.trace).done ∨
      q ∈ owners (books h (r.config n).shared.trace).failed) :
    ∃ m, n ≤ m ∧ ((r.config m).shared.heap h = none ∨
      q ∈ (books h (r.config m).shared.trace).handed) := by
  by_contra hnever
  have hlive : ∀ m, n ≤ m → h ∈ (r.config m).shared.live := fun m hm hnone =>
    hnever ⟨m, hm, .inl hnone⟩
  have hcourse := course_of_live hr hlive hentry
  obtain ⟨k, -, hhanded⟩ : ∃ k, 0 ≤ k ∧ q ∈ (books h (r.config (n + k)).shared.trace).handed := by
    rcases hq with hdone | hfailed
    · exact hcourse.answered_done (n := 0) hdone
    · exact hcourse.answered_failed (n := 0) hfailed
  exact hnever ⟨n + k, Nat.le_add_right n k, .inr hhanded⟩

theorem outcomes_delivered_swept :
    ∃ (r : Endless .pthread openScope []) (n : ℕ),
      (books 0 (r.config n).shared.trace).done = [(⟨['q'], 1, 0, OnQueryFinish⟩, 0)] ∧
      ∃ m, n ≤ m ∧ ((r.config m).shared.heap 0 = none ∨
        (⟨['q'], 1, 0, OnQueryFinish⟩, 0) ∈ (books 0 (r.config m).shared.trace).handed) := by
  obtain ⟨c, hc, r, n, hn, hticks, -⟩ := goes_on_after (queued ++ swept) ticked
    (by simp [queued, swept, Turn.Within, MainCall.Only, openScope, NativeCall.Open])
    (by simp [ticked, Turn.Within, MainCall.Only]) (by decide)
  have hrun : (schedule (allowing .pthread openScope.callbacks) (queued ++ swept) (loaded [])).map
      (fun c => (c.shared.SQLHandle, (books 0 c.shared.trace).done)) =
        some ([0], [(⟨['q'], 1, 0, OnQueryFinish⟩, 0)]) := by
    decide
  rw [hc, Option.map_some, Option.some.injEq, Prod.mk.injEq, ← hn] at hrun
  obtain ⟨htable, hdone⟩ := hrun
  exact ⟨r, n, hdone, outcomes_delivered hticks (by simp [htable]) (.inl (by simp [hdone]))⟩

end

end MySQLPlugin

import MySQLPlugin.Handles.Tick
import MySQLPlugin.Logic.Views

/-!
# The error number of a handler

`m_dwError` is what `mysql_errno` returns to the scripts. Executing a query sets it on both
outcomes; connecting sets it only when the attempt fails. What the outcome is, libmysql says.
-/

namespace MySQLPlugin

open Threads Prog CMySQLHandler

/-- `m_dwError` is `0` after a success and otherwise the error number on the connection. -/
def OutcomeSet (ok : Bool) (h : HandlerPtr) (s : State) : Prop :=
  ∃ x c, s.heap h = some x ∧ x.m_stConnectionPtr = some c ∧
    x.m_dwError = .set (if ok then 0 else (s.lib.conn c).errno)

/-! ### The answers of libmysql -/

/-- libmysql has answered `ok` whenever it was called. -/
def AllAnswered (ok : Bool) (es : List Event) : Prop := ∀ t h f c k, .leave t h f c k ∈ es → k = ok

/-- The reply to a call is `ok`. -/
def Stmt.RepliedWith (ok : Bool) {β : Type} : Stmt β → Reply → Prop
  | .leave _ _ _, r => r.ok = ok
  | _, _ => True

/-- The plugin with a libmysql that answers `ok` to every call. -/
abbrev repliedWith (b : Build) (ok : Bool) : Machine Stmt Fault State ThreadId Reply :=
  (plugin b).restrict fun _ a r _ => a.RepliedWith ok r

lemma step_extends {b : Build} {t : ThreadId} {β : Type} {a : Stmt β} {s s' : State}
    {o : Except Fault β} (hst : (plugin b).Step t a s o s') : s.trace <+: s'.trace := by
  obtain ⟨r, -, hrun⟩ := hst
  rcases Stmt.run_effect (all_only_true (t := t) (Prog.lift a)).1 hrun with rfl | ⟨e, -, heff⟩
  · exact List.prefix_refl _
  · exact heff.prefix

lemma run_extends {b : Build} {t : ThreadId} {α : Type} {p : Code α} {s s' : State}
    {o : Except Fault α} (hrun : Run (plugin b) t p s o s') : s.trace <+: s'.trace := by
  induction hrun with
  | ret | fail => exact List.prefix_refl _
  | act hst _ ih => exact (step_extends hst).trans ih
  | fault hst => exact step_extends hst

lemma AllAnswered.of_prefix {ok : Bool} {s s₁ s' : State} (h : AllAnswered ok (s.since s'))
    (hpre : s.trace <+: s₁.trace) (hpre' : s₁.trace <+: s'.trace) :
    AllAnswered ok (s.since s₁) ∧ AllAnswered ok (s₁.since s') := by
  obtain ⟨es, hes⟩ := hpre
  obtain ⟨es', hes'⟩ := hpre'
  have hsince : s.since s' = s.since s₁ ++ s₁.since s' := by
    simp [State.since, ← hes', ← hes]
  rw [hsince] at h
  exact ⟨fun t p f c k hk => h t p f c k (List.mem_append_left _ hk),
    fun t p f c k hk => h t p f c k (List.mem_append_right _ hk)⟩

/-- The answers are the replies. -/
lemma AllAnswered.step {b : Build} {ok : Bool} {t : ThreadId} {β : Type} {a : Stmt β} {s s' : State}
    {o : Except Fault β} (h : AllAnswered ok (s.since s')) (hst : (plugin b).Step t a s o s') :
    (repliedWith b ok).Step t a s o s' := by
  obtain ⟨r, -, hrun⟩ := hst
  refine ⟨r, ⟨trivial, ?_⟩, hrun⟩
  cases a with
  | leave p c f =>
    cases hrun
    exact h t p f c r.ok (by simp [State.since, State.record, State.setInCall])
  | _ => trivial

/-- A run in which libmysql answers `ok` is one of the narrower plugin. -/
lemma run_repliedWith {b : Build} {ok : Bool} {t : ThreadId} {α : Type} {p : Code α} {s s' : State}
    {o : Except Fault α} (hrun : Run (plugin b) t p s o s') (h : AllAnswered ok (s.since s')) :
    Run (repliedWith b ok) t p s o s' := by
  induction hrun with
  | ret x s => exact .ret x s
  | fail e s => exact .fail e s
  | act hst hrun ih =>
    obtain ⟨hstep, hrest⟩ := h.of_prefix (step_extends hst) (run_extends hrun)
    exact .act (hstep.step hst) (ih hrest)
  | fault hst => exact .fault (h.step hst)

/-! ### The programs -/

section

variable {b : Build} {ok : Bool} {t : ThreadId} {h : HandlerPtr} {x : CMySQLHandler} {l : Libmysql}
  {w : List Event} {s : State}

lemma Sees.outcomeSet (hs : Sees h x l w s) {c : ConnPtr}
    (hc : x.m_stConnectionPtr = some c) :
    OutcomeSet ok h s ↔ x.m_dwError = .set (if ok then 0 else (l.conn c).errno) := by
  obtain ⟨hheap, rfl, -⟩ := hs
  constructor
  · rintro ⟨y, d, hy, hd, herr⟩
    obtain rfl : x = y := Option.some.inj (hheap.symm.trans hy)
    obtain rfl : c = d := Option.some.inj (hc.symm.trans hd)
    exact herr
  · exact fun herr => ⟨x, c, hheap, hc, herr⟩

/-- An attempt to connect reports a failure, and a success only if there was no error before. -/
lemma connect_reports (hs : Sees h x l w s) (hconn : x.m_bIsConnected = false) :
    (connect h).wp (repliedWith b ok) t (fun _ _ => True)
      (fun _ s' => OutcomeSet ok h s' ↔ (ok = true → x.m_dwError = .set 0)) s := by
  refine hs.wp_this ?_
  rw [hconn, if_neg Bool.false_ne_true]
  refine hs.wp_init (fun _ s₁ _ _ hs₁ => ?_) fun s₁ hs₁ => ?_
  · refine hs₁.wp_assign rfl fun s₂ hs₂ => hs₂.wp_this ?_
    rw [call, bind_bind]
    exact hs₂.wp_enter (fun _ _ _ => trivial) fun c _ hc _ => nomatch hc
  · refine hs₁.wp_assign rfl fun s₂ hs₂ => hs₂.wp_this ?_
    rw [call, bind_bind]
    refine hs₂.wp_enter (fun _ _ _ => trivial) fun c s₃ hc hs₃ => ?_
    refine hs₃.wp_leave fun now r s₄ hr hs₄ => ?_
    have hreply : r.ok = ok := hr.2
    cases ok with
    | false =>
      simp only [Libmysql.answer, hreply, Bool.not_false, if_true]
      refine hs₄.wp_access (fun _ _ _ => trivial) fun d _ s₅ hd hs₅ => ?_
      obtain rfl : c = d := Option.some.inj (hc.symm.trans hd)
      refine hs₅.wp_assign rfl fun s₆ hs₆ => hs₆.wp_assign rfl fun s₇ hs₇ => ?_
      refine hs₇.wp_access (fun _ _ _ => trivial) fun _ _ s₈ _ hs₈ => ?_
      refine iff_of_true ?_ (by simp)
      rw [hs₈.outcomeSet hc]
      simp [Assign.apply, Libmysql.access, Libmysql.answer]
    | true =>
      simp only [Libmysql.answer, hreply, Bool.not_true, Bool.false_eq_true, if_false]
      refine hs₄.wp_assign rfl fun s₅ hs₅ => ?_
      refine hs₅.wp_access (fun _ _ _ => trivial) fun _ _ s₆ _ hs₆ => ?_
      rw [Prog.pure_eq, Prog.wp_ret, hs₆.outcomeSet hc]
      simp [Assign.apply]

/-- A query of `mysql_query` that is executed at once is reported. -/
lemma nonThreadedQuery_reports (hs : Sees h x l w s) (query : CString) :
    (nonThreadedQuery h query).wp (repliedWith b ok) t (fun _ _ => True)
      (fun _ s' => OutcomeSet ok h s') s := by
  refine hs.wp_assign rfl fun s₁ hs₁ => ?_
  rw [call, bind_bind]
  refine hs₁.wp_enter (fun _ _ _ => trivial) fun c s₂ hc hs₂ => ?_
  refine hs₂.wp_leave fun now r s₃ hr hs₃ => ?_
  have hreply : r.ok = ok := hr.2
  cases ok with
  | false =>
    simp only [Libmysql.answer, hreply, Bool.false_eq_true, if_false, Bool.not_false, if_true]
    refine hs₃.wp_access (fun _ _ _ => trivial) fun d _ s₄ hd hs₄ => ?_
    obtain rfl : c = d := Option.some.inj (hc.symm.trans hd)
    refine hs₄.wp_assign rfl fun s₅ hs₅ => ?_
    refine hs₅.wp_access (fun _ _ _ => trivial) fun _ _ s₆ _ hs₆ => ?_
    refine hs₆.wp_assign rfl fun s₇ hs₇ => ?_
    refine hs₇.wp_access (fun _ _ _ => trivial) fun _ _ s₈ _ hs₈ => ?_
    refine hs₈.wp_access (fun _ _ _ => trivial) fun _ _ s₉ _ hs₉ => ?_
    refine hs₉.wp_assign rfl fun s' hs' => ?_
    rw [Prog.pure_eq, Prog.wp_ret, hs'.outcomeSet hc]
    simp [Assign.apply, Libmysql.access, Libmysql.answer, hreply]
  | true =>
    simp only [Libmysql.answer, hreply, if_true, Bool.not_true, Bool.false_eq_true, if_false]
    refine hs₃.wp_assign rfl fun s₄ hs₄ => hs₄.wp_assign rfl fun s₅ hs₅ => ?_
    rw [Prog.pure_eq, Prog.wp_ret, hs₅.outcomeSet hc]
    simp [Assign.apply]

/-- A query that the worker executes is reported; a success is handed to `callbackData`. -/
lemma executeFront_reports (hs : Sees h x l w s) :
    (executeFront h).wp (repliedWith b ok) t (fun _ _ => True) (fun _ s' => OutcomeSet ok h s' ∧
      ∃ y, s'.heap h = some y ∧
        y.callbackData = x.callbackData ++ if ok then x.queueData.head?.toList else []) s := by
  refine hs.wp_this ?_
  cases hq : x.queueData with
  | nil => trivial
  | cons q qs =>
    refine hs.wp_assign rfl fun s₁ hs₁ => ?_
    rw [call, bind_bind]
    refine hs₁.wp_enter (fun _ _ _ => trivial) fun c s₂ hc hs₂ => ?_
    refine hs₂.wp_leave fun now r s₃ hr hs₃ => ?_
    have hreply : r.ok = ok := hr.2
    have hpop {y : CMySQLHandler} {l' : Libmysql} {s₄ : State} (hs₄ : Sees h y l' w s₄)
        (hy : y.queueData = x.queueData)
        {Q : Unit → State → Prop} (hQ : ∀ s', Sees h (Assign.queueData_pop.apply y) l' w s' → Q () s') :
        (assign h .queueData_pop).wp (repliedWith b ok) t (fun _ _ => True) Q s₄ := by
      rw [← bind_ret_right (assign h _)]
      exact hs₄.wp_assign (by simp [Assign.defined, hy, hq]) hQ
    cases ok with
    | false =>
      simp only [Libmysql.answer, hreply, Bool.false_eq_true, if_false, queryFailed, bind_bind]
      refine hs₃.wp_access (fun _ _ _ => trivial) fun d _ s₄ hd hs₄ => ?_
      obtain rfl : c = d := Option.some.inj (hc.symm.trans hd)
      refine hs₄.wp_assign rfl fun s₅ hs₅ => ?_
      refine hs₅.wp_access (fun _ _ _ => trivial) fun _ _ s₆ _ hs₆ => ?_
      refine hs₆.wp_assign rfl fun s₇ hs₇ => hs₇.wp_assign rfl fun s₈ hs₈ => ?_
      refine hpop hs₈ rfl fun s' hs' => ⟨?_, _, hs'.heap, ?_⟩
      · rw [hs'.outcomeSet hc]
        simp [Assign.apply, Libmysql.access, Libmysql.answer, hreply]
      · simp [Assign.apply]
    | true =>
      simp only [Libmysql.answer, hreply, if_true, bind_bind]
      refine hs₃.wp_assign rfl fun s₄ hs₄ => hs₄.wp_assign rfl fun s₅ hs₅ => ?_
      refine hpop hs₅ rfl fun s' hs' => ⟨?_, _, hs'.heap, ?_⟩
      · rw [hs'.outcomeSet hc]
        simp [Assign.apply]
      · simp [Assign.apply]

end

/-! ### Runs -/

/-- An attempt to connect is reported if and only if it fails or there was no error before; the
execution of a query is reported, by `OldQuery` and by the worker. Whether it succeeds, libmysql says:
`ok` is its answer. -/
theorem error_reported (b : Build) (t : ThreadId) (h : HandlerPtr) {s : State} {x : CMySQLHandler}
    (hx : s.heap h = some x) :
    (x.m_bIsConnected = false → ∀ ok v s', Run (plugin b) t (connect h) s (.ok v) s' →
      AllAnswered ok (s.since s') → (OutcomeSet ok h s' ↔ (ok = true → x.m_dwError = .set 0))) ∧
    (∀ query ok v s', Run (plugin b) t (nonThreadedQuery h query) s (.ok v) s' →
      AllAnswered ok (s.since s') → OutcomeSet ok h s') ∧
    ∀ ok v s', Run (plugin b) t (executeFront h) s (.ok v) s' → AllAnswered ok (s.since s') →
      OutcomeSet ok h s' ∧ ∃ y, s'.heap h = some y ∧
        y.callbackData = x.callbackData ++ if ok then x.queueData.head?.toList else [] := by
  have hs := Sees.refl hx
  refine ⟨fun hconn ok v s' hrun hok => ?_, fun query ok v s' hrun hok => ?_,
    fun ok v s' hrun hok => ?_⟩
  · exact ((wp_iff _ _ _).mp (connect_reports hs hconn)).1 v s' (run_repliedWith hrun hok)
  · exact ((wp_iff _ _ _).mp (nonThreadedQuery_reports hs query)).1 v s' (run_repliedWith hrun hok)
  · exact ((wp_iff _ _ _).mp (executeFront_reports hs)).1 v s' (run_repliedWith hrun hok)

/-- The handler when it connects. -/
def firstHandler : CMySQLHandler :=
  { m_Hostname := ['a'], m_Username := [], m_Password := [], m_Database := [], m_Port := 0 }

/-- The state in which the first handler connects. -/
def firstAttempt : State :=
  { ((State.init []).record (.mark (.call (.mysql_connect ['a'] [] [] [] 0)))).setHandler 0
      firstHandler with
    nextHandler := 1 }.record (.new 0 ['a'] [] [] [] 0)

lemma comes_firstAttempt : Comes (plugin .win32) [] .main (connect 0) firstAttempt := by
  refine ⟨State.init [], .native (.mysql_connect ['a'] [] [] [] 0), fun _ => ?k, .refl _, rfl, ?_⟩
  case k =>
    exact do
      .lift (.pushBack 0)
      let n ← .lift .size
      .lift (.mark (.return (.mysql_connect ['a'] [] [] [] 0) (BitVec.ofNat 32 n)))
  simp only [Action.code, native, Natives.body, Natives.nMysqlConnect, Natives.append, construct,
    bind_bind]
  refine .lift ⟨{}, trivial, rfl⟩ (.lift ⟨{}, trivial, rfl⟩ ?_)
  rw [if_neg (by decide)]
  simp only [bind_bind]
  exact .lift ⟨{}, trivial, rfl⟩ (.refl _ _)

/-- The environment in which the calls to the server return `ok`. -/
def answers (ok : Bool) {β : Type} (a : Stmt β) (_ : State) : Reply :=
  match a with
  | .leave _ _ _ => { ok, code := 7 }
  | _ => {}

/-- A run in which the calls to the server return `ok`. -/
lemma run_answers {b : Build} {t : ThreadId} {ok : Bool} {α : Type} {p : Code α} {s s' : State} {v : α}
    (h : p.eval (plugin b) t (answers ok) s = some (v, s'))
    (hall : (s.since s').all fun | .leave _ _ _ _ k => k == ok | _ => true) :
    Run (plugin b) t p s (.ok v) s' ∧ AllAnswered ok (s.since s') := by
  refine ⟨run_of_eval (fun _ _ => trivial) _ h, fun t p f c k hk => ?_⟩
  simpa using List.all_eq_true.mp hall _ hk

/-- The first attempt to connect, when the server answers `ok`. -/
lemma exists_firstAttempt (ok : Bool) :
    ∃ s', Run (plugin .win32) .main (connect 0) firstAttempt (.ok ok) s' ∧
      AllAnswered ok (firstAttempt.since s') := by
  have heval : ((connect 0).eval (plugin .win32) .main (answers ok) firstAttempt).map (fun r =>
      (r.1, (firstAttempt.since r.2).all fun | .leave _ _ _ _ k => k == ok | _ => true))
      = some (ok, true) := by
    cases ok <;> decide
  obtain ⟨⟨v, s'⟩, heval, hr⟩ := Option.map_eq_some_iff.mp heval
  obtain ⟨rfl, hall⟩ := Prod.mk.inj hr
  exact ⟨s', run_answers heval hall⟩

/-- The first handler does not get a connection. Another one does; a query of it that `OldQuery` executes
is refused, and one that the worker executes is not. The error numbers say so. -/
theorem error_reported_refused :
    (∃ s', Run (plugin .win32) .main (connect 0) firstAttempt (.ok false) s' ∧ OutcomeSet false 0 s') ∧
    ∃ s, Runs .win32 Set.univ (State.init []) s ∧
      (∃ v s', Run (plugin .win32) .main (nonThreadedQuery 0 ['r']) s (.ok v) s' ∧
        OutcomeSet false 0 s') ∧
      ∃ s', Run (plugin .win32) .worker (executeFront 0) s (.ok ()) s' ∧ OutcomeSet true 0 s' ∧
        ∃ y, s'.heap 0 = some y ∧ y.callbackData = [⟨['q'], 7, 3, OnQueryFinish⟩] := by
  constructor
  · obtain ⟨s', hrun, hall⟩ := exists_firstAttempt false
    have hx : firstAttempt.heap 0 = some firstHandler := rfl
    exact ⟨s', hrun, ((error_reported .win32 .main 0 hx).1 rfl false false s' hrun hall).mpr (by simp)⟩
  have hrun : ((play (allowing .win32 Set.univ) (answers true) [.native (.mysql_connect [] [] [] [] 0),
        .native (.mysql_query ['q'] 7 3 1)] (State.init [])).bind fun s =>
      ((nonThreadedQuery 0 ['r']).eval (plugin .win32) .main (answers false) s).bind fun r =>
        ((executeFront 0).eval (plugin .win32) .worker (answers true) s).map fun r' =>
          ((s.since r.2).all (fun | .leave _ _ _ _ k => k == false | _ => true),
            (s.since r'.2).all (fun | .leave _ _ _ _ k => k == true | _ => true),
            (s.heap 0).map fun x => (x.callbackData, x.queueData)))
      = some (true, true, some ([], [⟨['q'], 7, 3, OnQueryFinish⟩])) := by decide +kernel
  obtain ⟨s, hs, hrun⟩ := Option.bind_eq_some_iff.mp hrun
  obtain ⟨⟨v, s₁⟩, hold, hrun⟩ := Option.bind_eq_some_iff.mp hrun
  obtain ⟨⟨⟨⟩, s₂⟩, hfront, hrun⟩ := Option.map_eq_some_iff.mp hrun
  simp only [Prod.mk.injEq, Option.map_eq_some_iff] at hrun
  obtain ⟨hall, hall', x, hx, hcallback, hqueue⟩ := hrun
  obtain ⟨hold, hold'⟩ := run_answers hold hall
  obtain ⟨hfront, hfront'⟩ := run_answers hfront hall'
  have hreported := error_reported .win32 .main 0 hx
  obtain ⟨htrue, y, hy, hdata⟩ := (error_reported .win32 .worker 0 hx).2.2 true () s₂ hfront hfront'
  refine ⟨s, runs_of_play_univ hs, ⟨v, s₁, hold, hreported.2.1 ['r'] false v s₁ hold hold'⟩, s₂, hfront,
    htrue, y, hy, ?_⟩
  rw [hdata, hcallback, hqueue]
  rfl

/-- The first handler gets its connection, and its error number has no value. -/
theorem error_not_reported :
    ¬ ∀ (b : Build) (p_Amx : List Amx) (t : ThreadId) (h : HandlerPtr) (s : State)
      (x : CMySQLHandler), s.heap h = some x → Comes (plugin b) p_Amx t (connect h) s →
      x.m_bIsConnected = false → ∀ ok v s', Run (plugin b) t (connect h) s (.ok v) s' →
        AllAnswered ok (s.since s') → OutcomeSet ok h s' := by
  intro hall
  obtain ⟨s', hrun, hok⟩ := exists_firstAttempt true
  have hx : firstAttempt.heap 0 = some firstHandler := rfl
  have hreported := hall .win32 [] .main 0 _ _ hx comes_firstAttempt rfl true true s' hrun hok
  have hreports : (connect 0).wp (repliedWith .win32 true) .main (fun _ _ => True)
      (fun _ s' => OutcomeSet true 0 s' ↔ (true = true → firstHandler.m_dwError = .set 0))
      firstAttempt := connect_reports (Sees.refl hx) rfl
  have hiff := ((wp_iff _ _ _).mp hreports).1 true s' (run_repliedWith hrun hok)
  cases hiff.mp hreported rfl

end MySQLPlugin

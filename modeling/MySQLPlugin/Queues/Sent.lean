import MySQLPlugin.Queues.Interleaved

/-!
# The queries that the worker executes

In every interleaving the worker executes the query that has waited longest, so the queries of a
handler are executed in the order of acceptance and none of them twice; and every outcome is that of
a query that has been executed.
-/

namespace MySQLPlugin

open Threads Dispatch Prog CMySQLHandler

/-- In the trace `tr`, after the events `es`, the worker calls `mysql_real_query` for the job `w`, which
is the first that waits in the books of `h`. -/
def Sends (h : HandlerPtr) (w : MainInfo × ℕ) (es tr : List Event) : Prop :=
  (books h es).waiting.head? = some w ∧
    ∃ c, es ++ [.enter .worker h (.mysql_real_query w.1.m_szQuery) c] <+: tr

/-- The event is a call of `mysql_real_query` by the worker, for the handler `h`. -/
def Event.Sending (h : HandlerPtr) : Event → Prop
  | .enter .worker p (.mysql_real_query _) _ => p = h
  | _ => False

/-- The queries of `h` that the worker has executed so far. -/
structure Carried (h : HandlerPtr) (s : State) : Prop where
  front : ∀ es q c, es ++ [.enter .worker h (.mysql_real_query q) c] <+: s.trace →
    ∃ w, Sends h w es s.trace ∧ w.1.m_szQuery = q
  past : ∀ es w, Sends h w es s.trace → w ∈ (books h s.trace).executed ∨
    inHand s.trace = some (h, false) ∧ (books h s.trace).waiting.head? = some w
  order : ∀ es es' w w', Sends h w es s.trace → Sends h w' es' s.trace → es.length < es'.length →
    w.2 < w'.2
  executed : ∀ w ∈ (books h s.trace).executed, ∃ es, Sends h w es s.trace
  running : inHand s.trace = some (h, false) →
    ∃ es w, Sends h w es s.trace ∧ (books h s.trace).waiting.head? = some w

section

variable {p_Amx : List Amx} {D : Scope} {t : ThreadId} {e : Event} {s s' : State} {h : HandlerPtr}

lemma carried_init (h : HandlerPtr) (p_Amx : List Amx) : Carried h (State.init p_Amx) where
  front _ _ _ he := by simp [State.init] at he
  past es w hw := by
    obtain ⟨c, he⟩ := hw.2
    simp [State.init] at he
  order es _ w _ hw := by
    obtain ⟨c, he⟩ := hw.2
    simp [State.init] at he
  executed w hw := by simp [State.init, books, Ledger.executed] at hw
  running hhand := by cases hhand

lemma Sends.later {w : MainInfo × ℕ} {es : List Event} (hw : Sends h w es s.trace)
    (heff : Effect t e s s') : Sends h w es s'.trace := by
  obtain ⟨hfront, c, he⟩ := hw
  exact ⟨hfront, c, he.trans heff.prefix⟩

/-- An event that sends no query of `h` leaves the queries that have been sent as they are. -/
lemma Effect.sends_iff (heff : Effect t e s s') (he : ¬ e.Sending h) {w : MainInfo × ℕ}
    {es : List Event} : Sends h w es s'.trace ↔ Sends h w es s.trace := by
  refine ⟨fun hw => ?_, fun hw => hw.later heff⟩
  obtain ⟨hfront, c, hes⟩ := hw
  rcases heff.occurrence hes with hes | ⟨-, rfl⟩
  · exact ⟨hfront, c, hes⟩
  · exact absurd rfl he

/-- The worker begins to execute a query of `h` with that event only. -/
lemma Permits.running_iff (hp : Permits D t e s s') (he : ¬ e.Sending h)
    (hbook : e.bookOp h = none) :
    inHand s'.trace = some (h, false) ↔ inHand s.trace = some (h, false) := by
  have hsame (hno : e.NoHand) :
      inHand s'.trace = some (h, false) ↔ inHand s.trace = some (h, false) := by
    rw [hp.toEffect.inHand_same hno]
  have hafter : inHand s'.trace = e.onInHand (inHand s.trace) := by
    rw [hp.trace, inHand_concat]
  cases e with
  | enter u p g c =>
    obtain rfl : u = t := hp.by_
    cases u with
    | main => exact hsame trivial
    | worker =>
      cases g with
      | mysql_real_query q =>
        have hne : p ≠ h := he
        obtain ⟨hnone, -⟩ := hp.permitted rfl q rfl
        simp [hafter, hnone, Event.onInHand, hne]
      | _ => exact hsame trivial
  | assign u p a =>
    obtain rfl : u = t := hp.by_
    cases u with
    | main => exact hsame trivial
    | worker =>
      have hallowed := hp.permitted.2.1
      cases a with
      | callbackData_push d =>
        have hne : p ≠ h := by simpa [Event.bookOp] using hbook
        simp [hafter, hallowed.2.1, Event.onInHand, hne]
      | errorCallback_push e =>
        have hne : p ≠ h := by simpa [Event.bookOp] using hbook
        simp [hafter, hallowed.1, Event.onInHand, hne]
      | queueData_pop => simp [hafter, hallowed.2, Event.onInHand]
      | _ => exact hsame trivial
  | _ => exact hsame trivial

namespace Carried

variable (hk : Carried h s) (hs : Booked p_Amx s)

include hk

/-- An event that sends no query of `h`. -/
lemma keep (hp : Permits D t e s s') (he : ¬ e.Sending h)
    (hpast : ∀ es w, Sends h w es s.trace → w ∈ (books h s'.trace).executed ∨
      inHand s'.trace = some (h, false) ∧ (books h s'.trace).waiting.head? = some w)
    (hexecuted : ∀ w ∈ (books h s'.trace).executed, ∃ es, Sends h w es s.trace)
    (hrunning : inHand s'.trace = some (h, false) →
      ∃ es w, Sends h w es s.trace ∧ (books h s'.trace).waiting.head? = some w) : Carried h s' where
  front es q c hes := by
    rcases hp.toEffect.occurrence hes with hes | ⟨-, rfl⟩
    · obtain ⟨w, hw, hq⟩ := hk.front es q c hes
      exact ⟨w, hw.later hp.toEffect, hq⟩
    · exact absurd rfl he
  past es w hw := hpast es w ((hp.toEffect.sends_iff he).mp hw)
  order es es' w w' hw hw' :=
    hk.order es es' w w' ((hp.toEffect.sends_iff he).mp hw) ((hp.toEffect.sends_iff he).mp hw')
  executed w hw := by
    obtain ⟨es, hes⟩ := hexecuted w hw
    exact ⟨es, hes.later hp.toEffect⟩
  running hhand := by
    obtain ⟨es, w, hw, hfront⟩ := hrunning hhand
    exact ⟨es, w, hw.later hp.toEffect, hfront⟩

/-- An event that changes no queue of `h`. -/
lemma apart (hp : Permits D t e s s') (he : ¬ e.Sending h) (hbook : e.bookOp h = none) :
    Carried h s' := by
  have hbooks : books h s'.trace = books h s.trace := hp.toEffect.books_eq_self hbook
  have hrunning := hp.running_iff he hbook
  refine hk.keep hp he (fun es w hw => ?_) (fun w hw => ?_) fun hhand => ?_
  · rw [hbooks, hrunning]
    exact hk.past es w hw
  · exact hk.executed w (hbooks ▸ hw)
  · rw [hbooks]
    exact hk.running (hrunning.mp hhand)

include hs

/-- An event that changes the queues of `h`. -/
lemma book (hp : Permits D t e s s') {o : Op MainInfo ErrorInfo} (ho : e.bookOp h = some o) :
    Carried h s' := by
  have he : ¬ e.Sending h := by
    cases e with
    | enter u p g c => cases ho
    | _ => exact id
  have hbooks : books h s'.trace = (books h s.trace).step o := hp.toEffect.books_eq ho
  rcases hp.executes hs ho with ⟨hexec, hold, hnew⟩ | ⟨hexec, hsame, hdiscard⟩
  · -- the job in hand has been sent, and is executed now
    obtain ⟨es₀, w₀, hsent, hfront₀⟩ := hk.running hold
    refine hk.keep hp he (fun es w hw => .inl ?_) (fun w hw => ?_) fun hhand => ?_
    · rw [hbooks, Ledger.mem_executed_step]
      rcases hk.past es w hw with hw | ⟨-, hfront⟩
      · exact .inl hw
      · exact .inr ⟨hexec, hfront⟩
    · rw [hbooks, Ledger.mem_executed_step] at hw
      rcases hw with hw | ⟨-, hfront⟩
      · exact hk.executed w hw
      · obtain rfl : w₀ = w := Option.some.inj (hfront₀.symm.trans hfront)
        exact ⟨es₀, hsent⟩
    · simp [hnew] at hhand
  · have hmem (w : MainInfo × ℕ) :
        w ∈ (books h s'.trace).executed ↔ w ∈ (books h s.trace).executed := by
      rw [hbooks, Ledger.mem_executed_step]
      exact or_iff_left fun hw => hexec hw.1
    have hfront (hhand : inHand s.trace = some (h, false)) {w : MainInfo × ℕ}
        (hw : (books h s.trace).waiting.head? = some w) :
        (books h s'.trace).waiting.head? = some w := by
      rw [hbooks]
      refine Ledger.head?_step hexec ?_ hw
      rintro rfl
      simp [hdiscard rfl] at hhand
    refine hk.keep hp he (fun es w hw => ?_) (fun w hw => hk.executed w ((hmem w).mp hw))
      fun hhand => ?_
    · rw [hmem, hsame]
      exact (hk.past es w hw).imp_right fun hw => ⟨hw.1, hfront hw.1 hw.2⟩
    · rw [hsame] at hhand
      obtain ⟨es, w, hw, hhead⟩ := hk.running hhand
      exact ⟨es, w, hw, hfront hhand hhead⟩

/-- The worker sends the query at the front. -/
lemma send {q : CString} {c : Option ConnPtr}
    (hp : Permits D t (.enter .worker h (.mysql_real_query q) c) s s') : Carried h s' := by
  obtain rfl : .worker = t := hp.by_
  obtain ⟨hnone, d, hserves, rfl⟩ := hp.permitted rfl q rfl
  have hbooks : books h s'.trace = books h s.trace := hp.toEffect.books_eq_self rfl
  have hhand : inHand s'.trace = some (h, false) := by
    rw [hp.trace, inHand_concat]
    rfl
  obtain ⟨x, hx, hd⟩ := hserves.front
  obtain ⟨pre, hlen, hm⟩ := hs.mirrors h x hx
  obtain rfl : pre = [] := List.length_eq_zero_iff.mp (by rw [hlen, ahead_eq_zero]; simp [hnone])
  obtain ⟨w, ws, hw, rfl⟩ := hm.waiting hd
  have hfront : (books h s.trace).waiting.head? = some w := by rw [hw, List.head?_cons]
  have hnow : Sends h w s.trace s'.trace := ⟨hfront, c, by rw [hp.trace]⟩
  have hold {w' : MainInfo × ℕ} {es : List Event} (hw' : Sends h w' es s'.trace) :
      Sends h w' es s.trace ∨ es = s.trace ∧ w' = w := by
    obtain ⟨hfront', c', hes⟩ := hw'
    rcases hp.toEffect.occurrence hes with hes | ⟨rfl, -⟩
    · exact .inl ⟨hfront', c', hes⟩
    · exact .inr ⟨rfl, Option.some.inj (hfront'.symm.trans hfront)⟩
  have hdone {w' : MainInfo × ℕ} {es : List Event} (hw' : Sends h w' es s.trace) :
      w' ∈ (books h s.trace).executed := by
    rcases hk.past es w' hw' with hw' | ⟨hrunning, -⟩
    · exact hw'
    · simp [hnone] at hrunning
  have hshorter {w' : MainInfo × ℕ} {es : List Event} (hw' : Sends h w' es s.trace) :
      es.length < s.trace.length := by
    obtain ⟨-, c', hes⟩ := hw'
    simpa [Nat.succ_le_iff] using hes.length_le
  constructor
  · intro es q c' hes
    rcases hp.toEffect.occurrence hes with hes | ⟨rfl, heq⟩
    · obtain ⟨w', hw', hq⟩ := hk.front es q c' hes
      exact ⟨w', hw'.later hp.toEffect, hq⟩
    · cases heq
      exact ⟨w, hnow, rfl⟩
  · intro es w' hw'
    rw [hbooks]
    rcases hold hw' with hw' | ⟨rfl, rfl⟩
    · exact .inl (hdone hw')
    · exact .inr ⟨hhand, hfront⟩
  · intro es es' w₁ w₂ hw₁ hw₂ hlt
    rcases hold hw₁ with hw₁ | ⟨rfl, rfl⟩
    · rcases hold hw₂ with hw₂ | ⟨rfl, rfl⟩
      · exact hk.order es es' w₁ w₂ hw₁ hw₂ hlt
      · have hwaits : w₂ ∈ (books h s.trace).waiting := by simp [hw]
        exact (Ledger.sound_run _).later w₁ (hdone hw₁) w₂ hwaits
    · rcases hold hw₂ with hw₂ | ⟨rfl, rfl⟩
      · exact absurd hlt (Nat.lt_asymm (hshorter hw₂))
      · exact absurd hlt (Nat.lt_irrefl _)
  · intro w' hw'
    rw [hbooks] at hw'
    obtain ⟨es, hes⟩ := hk.executed w' hw'
    exact ⟨es, hes.later hp.toEffect⟩
  · exact fun _ => ⟨s.trace, w, hnow, hbooks ▸ hfront⟩

lemma step (hp : Permits D t e s s') : Carried h s' := by
  cases hbook : e.bookOp h with
  | some o => exact hk.book hs hp hbook
  | none =>
    by_cases he : e.Sending h
    · cases e with
      | enter u p g c =>
        cases u with
        | main => exact he.elim
        | worker =>
          cases g with
          | mysql_real_query q =>
            obtain rfl : p = h := he
            exact hk.send hs hp
          | _ => exact he.elim
      | _ => exact he.elim
    · exact hk.apart hp he hbook

end Carried

end

section

variable {b : Build} {D : Scope} {p_Amx : List Amx} {c : Config Stmt Fault State ThreadId Point}

/-- Whatever the worker executes is the query of the handler that has waited longest; the queries are
executed in the order of acceptance; and every query that has succeeded or failed has been executed,
once. -/
theorem executed_once (hc : Reaches b D p_Amx c) (h : HandlerPtr) :
    (∀ es q cp, es ++ [.enter .worker h (.mysql_real_query q) cp] <+: c.shared.trace →
      ∃ w, Sends h w es c.shared.trace ∧ w.1.m_szQuery = q) ∧
    (∀ es es' w w', Sends h w es c.shared.trace → Sends h w' es' c.shared.trace →
      es.length < es'.length → w.2 < w'.2) ∧
    ∀ w ∈ (books h c.shared.trace).executed, ∃! es, Sends h w es c.shared.trace := by
  have hboth : Booked p_Amx c.shared ∧ Carried h c.shared :=
    hc.keeps (I := fun s => Booked p_Amx s ∧ Carried h s)
      (fun _ _ _ _ hs hp => ⟨hs.1.step hp, hs.2.step hs.1 hp⟩) ⟨booked_init p_Amx, carried_init h p_Amx⟩
  have hcarried := hboth.2
  refine ⟨hcarried.front, hcarried.order, fun w hw => ?_⟩
  obtain ⟨es, hes⟩ := hcarried.executed w hw
  refine ⟨es, hes, fun es' hes' => ?_⟩
  -- a later call would be for a later query
  rcases Nat.lt_trichotomy es.length es'.length with hlt | heq | hgt
  · exact absurd (hcarried.order es es' w w hes hes' hlt) (Nat.lt_irrefl _)
  · obtain ⟨-, c₁, hpre⟩ := hes
    obtain ⟨-, c₂, hpre'⟩ := hes'
    have htake := List.prefix_iff_eq_take.mp ((List.prefix_append _ _).trans hpre)
    have htake' := List.prefix_iff_eq_take.mp ((List.prefix_append _ _).trans hpre')
    rw [htake', htake, heq]
  · exact absurd (hcarried.order es' es w w hes' hes hgt) (Nat.lt_irrefl _)

theorem executed_once_filed :
    ∃ c, schedule (allowing .pthread openCallbacks.callbacks) filed (loaded []) = some c ∧
      (books 0 c.shared.trace).executed = [(⟨['q'], 1, 0, OnQueryFinish⟩, 0)] ∧
      (∀ es q cp, es ++ [.enter .worker 0 (.mysql_real_query q) cp] <+: c.shared.trace →
        ∃ w, Sends 0 w es c.shared.trace ∧ w.1.m_szQuery = q) ∧
      (∀ es es' w w', Sends 0 w es c.shared.trace → Sends 0 w' es' c.shared.trace →
        es.length < es'.length → w.2 < w'.2) ∧
      ∀ w ∈ (books 0 c.shared.trace).executed, ∃! es, Sends 0 w es c.shared.trace := by
  have hrun : (schedule (allowing .pthread openCallbacks.callbacks) filed (loaded [])).map
      (fun c => (books 0 c.shared.trace).executed)
        = some [(⟨['q'], 1, 0, OnQueryFinish⟩, 0)] := by decide
  obtain ⟨c, hc, hexecuted⟩ := Option.map_eq_some_iff.mp hrun
  have hreach : Reaches .pthread openCallbacks [] c := reaches_of_within
    (by simp [filed, queued, Turn.Within, MainCall.Only, openCallbacks]) hc
  exact ⟨c, hc, hexecuted, executed_once hreach 0⟩

end

end MySQLPlugin

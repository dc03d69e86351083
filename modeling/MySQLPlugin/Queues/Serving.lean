import MySQLPlugin.Logic.Runs

/-!
# Handlers that are served

A visit of the worker executes the query at the front of one queue, and a visit of `ProcessTick`
hands its outcome out. `Serving` says what a visit does to the handler that it serves, and that the
other handlers are left alone.
-/

namespace MySQLPlugin

open Threads Prog CMySQLHandler

/-! ### Outcomes -/

/-- A threaded query that has been executed, and the number and message of its error, if it has
failed. -/
structure Outcome where
  query : MainInfo
  error : Option (BitVec 32 × CString) := none

namespace Outcome

def succeeded (o : Outcome) : Bool := o.error.isNone

/-- What the outcome puts into `callbackData`. -/
def callbackData (o : Outcome) : List MainInfo := if o.succeeded then [o.query] else []

/-- What the outcome puts into `errorCallback`. -/
def errorCallback (o : Outcome) : List ErrorInfo :=
  o.error.toList.map fun e =>
    { m_szQuery := o.query.m_szQuery, m_szError := e.2, m_uiErrorID := e.1
      m_uiResult := o.query.m_uiResult, m_uiExtra := .unset, m_szCallback := o.query.m_szCallback }

/-- The name of the public that the outcome is handed out to. -/
def name (o : Outcome) : CString := if o.succeeded then o.query.m_szCallback else OnQueryError

/-- The calls that hand out the outcome of the handler at position `i`: the scripts that have the
public, in their order. -/
def calls (scripts : List Amx) (i : Nat) (o : Outcome) : List (Amx × Public) :=
  (scripts.filter fun a => a.publics.contains o.name).map fun a => (a,
    match o.error with
    | none =>
      .callback o.query.m_szCallback o.query.m_szQuery o.query.m_uiResult o.query.m_uiExtra
        (connectionHandle i)
    | some e =>
      .OnQueryError e.1 e.2 o.query.m_uiResult .unset o.query.m_szCallback o.query.m_szQuery
        (connectionHandle i))

end Outcome

/-! ### What the trace says -/

/-- The answer to a query that the worker has executed for `h`. -/
def Event.answer (h : HandlerPtr) : Event → Option (CString × Bool)
  | .leave .worker p (.mysql_real_query q) _ ok => if p = h then some (q, ok) else none
  | _ => none

/-- The queries that the worker has executed for `h`, with their answers. -/
def executed (h : HandlerPtr) (es : List Event) : List (CString × Bool) :=
  es.filterMap (Event.answer h)

/-- The call of a public. -/
def Event.publicCall : Event → Option (Amx × Public)
  | .exec a p => some (a, p)
  | _ => none

/-- The calls of publics, in their order. -/
def publicCalls (es : List Event) : List (Amx × Public) := es.filterMap Event.publicCall

lemma executed_concat (h : HandlerPtr) (es : List Event) (e : Event) :
    executed h (es ++ [e]) = executed h es ++ (e.answer h).toList := by
  cases he : e.answer h <;> simp [executed, he]

lemma publicCalls_concat (es : List Event) (e : Event) :
    publicCalls (es ++ [e]) = publicCalls es ++ e.publicCall.toList := by
  cases he : e.publicCall <;> simp [publicCalls, he]

/-! ### The environment -/

/-- The pings succeed, the query that the worker executes as the `n`-th one of `h` has the answer
`ok h n`, and the publics call no natives. -/
def Stmt.Served (ok : HandlerPtr → Nat → Bool) {β : Type} : Stmt β → Reply → State → Prop
  | .leave _ _ .mysql_ping, r, _ => r.ok = true
  | .leave h _ (.mysql_real_query _), r, s => r.ok = ok h (executed h s.trace).length
  | .exec _ _, r, _ => r.natives = []
  | _, _, _ => True

/-- The plugin in such an environment. -/
def serving (b : Build) (ok : HandlerPtr → Nat → Bool) : Machine Stmt Fault State ThreadId Reply :=
  (plugin b).restrict fun _ a r s => a.Served ok r s

instance (b : Build) (ok : HandlerPtr → Nat → Bool) : IsPlugin (serving b ok) b :=
  ⟨fun _ _ _ => rfl⟩

lemma exists_served (b : Build) (ok : HandlerPtr → Nat → Bool) {t : ThreadId} {β : Type} (a : Stmt β)
    (s : State) : ∃ r, (serving b ok).admits t a r s := by
  cases a with
  | leave h c f =>
    cases f with
    | mysql_real_query q => exact ⟨{ ok := ok h (executed h s.trace).length }, trivial, rfl⟩
    | mysql_ping => exact ⟨{}, trivial, rfl⟩
    | _ => exact ⟨{}, trivial, trivial⟩
  | exec a p => exact ⟨{}, trivial, rfl⟩
  | _ => exact ⟨{}, trivial, trivial⟩

lemma confined_serving (b : Build) (ok : HandlerPtr → Nat → Bool) : Confined (serving b ok) ∅ := by
  rintro a p s natives s' ⟨r, ⟨-, hr⟩, hrun⟩ n hn
  cases hrun
  have hnil : r.natives = [] := hr
  rw [hnil] at hn
  cases hn

/-! ### A handler that is being served -/

/-- The handler waits with the queries `waiting`, and `out` is still to be handed out. -/
structure CMySQLHandler.Holds (x : CMySQLHandler) (waiting : List MainInfo) (out : Option Outcome) :
    Prop where
  connected : x.m_bIsConnected = true
  pointer : x.m_stConnectionPtr ≠ none
  direct : x.m_bNonThreadedQuery = false
  queueData : x.queueData = waiting
  callbackData : x.callbackData = out.elim [] Outcome.callbackData
  errorCallback : x.errorCallback = out.elim [] Outcome.errorCallback
  processing : x.m_bQueryProcessing = out.any Outcome.succeeded

lemma CMySQLHandler.Holds.ready {x : CMySQLHandler} {waiting : List MainInfo}
    (hx : x.Holds waiting none) : x.ready = !waiting.isEmpty := by
  simp [CMySQLHandler.ready, hx.queueData, hx.connected, hx.processing, hx.direct]

/-- Since `s₀` only `h` has been served: it is the object `x` now, its queries `done` have been
executed, and the publics `calls` have been called. -/
structure Serving (h : HandlerPtr) (s₀ : State) (x : CMySQLHandler) (done : List (CString × Bool))
    (calls : List (Amx × Public)) (s : State) : Prop where
  table : s.SQLHandle = s₀.SQLHandle
  p_Amx : s.p_Amx = s₀.p_Amx
  mutex : s.mutex = s₀.mutex
  object : s.heap h = some x
  executed : executed h s.trace = done
  calls : publicCalls s.trace = calls
  others : ∀ p ≠ h, s.heap p = s₀.heap p ∧ MySQLPlugin.executed p s.trace =
    MySQLPlugin.executed p s₀.trace

/-- The event changes nothing of this. -/
def Event.Passes : Event → Prop
  | .enter _ _ _ _ | .access _ _ _ _ | .visit _ | .mark _ => True
  | .leave _ _ .mysql_ping _ _ => True
  | _ => False

namespace Serving

section

variable {h : HandlerPtr} {s₀ s s' : State} {x : CMySQLHandler} {done : List (CString × Bool)}
  {calls : List (Amx × Public)} {t : ThreadId}

lemma refl (hx : s.heap h = some x) :
    Serving h s x (MySQLPlugin.executed h s.trace) (publicCalls s.trace) s :=
  ⟨rfl, rfl, rfl, hx, rfl, rfl, fun _ _ => ⟨rfl, rfl⟩⟩

lemma passes (hs : Serving h s₀ x done calls s) {e : Event} (heff : Effect t e s s') (he : e.Passes) :
    Serving h s₀ x done calls s' := by
  have hanswer (p : HandlerPtr) : e.answer p = none := by
    cases e with
    | leave u q f c ok => cases f <;> first | exact he.elim | (cases u <;> rfl)
    | _ => first | exact he.elim | rfl
  have hcall : e.publicCall = none := by
    cases e <;> first | exact he.elim | rfl
  have hexec (p : HandlerPtr) : MySQLPlugin.executed p s'.trace = MySQLPlugin.executed p s.trace := by
    rw [heff.trace, executed_concat, hanswer p, Option.toList_none, List.append_nil]
  have hheap (p : HandlerPtr) : s'.heap p = s.heap p := by
    rw [heff.heap p]
    cases e <;> first | exact he.elim | rfl
  refine ⟨?_, ?_, ?_, (hheap h).trans hs.object, (hexec h).trans hs.executed, ?_, fun p hp => ?_⟩
  · rw [heff.table, ← hs.table]
    cases e <;> first | exact he.elim | rfl
  · rw [heff.p_Amx, ← hs.p_Amx]
    cases e <;> first | exact he.elim | rfl
  · rw [heff.mutex (by rintro rfl; exact he), ← hs.mutex]
    cases e <;> first | exact he.elim | rfl
  · rw [heff.trace, publicCalls_concat, hcall, Option.toList_none, List.append_nil, hs.calls]
  · rw [hheap p, hexec p]
    exact hs.others p hp

lemma assign (hs : Serving h s₀ x done calls s) {a : Assign} (heff : Effect t (.assign t h a) s s') :
    Serving h s₀ (a.apply x) done calls s' where
  table := heff.table.trans hs.table
  p_Amx := heff.p_Amx.trans hs.p_Amx
  mutex := (heff.mutex (by simp)).trans hs.mutex
  object := by rw [heff.heap h, hs.object, Event.onObject, if_pos rfl, Option.map_some]
  executed := by
    rw [heff.trace, executed_concat, hs.executed]
    exact List.append_nil _
  calls := by
    rw [heff.trace, publicCalls_concat, hs.calls]
    exact List.append_nil _
  others p hp := by
    rw [heff.heap p, Event.onObject, if_neg hp, heff.trace, executed_concat]
    exact (hs.others p hp).imp_right ((List.append_nil _).trans ·)

/-- A query of the handler has been answered. -/
lemma answered (hs : Serving h s₀ x done calls s) {q : CString} {c : ConnPtr} {v : Bool}
    (heff : Effect .worker (.leave .worker h (.mysql_real_query q) c v) s s') :
    Serving h s₀ x (done ++ [(q, v)]) calls s' where
  table := heff.table.trans hs.table
  p_Amx := heff.p_Amx.trans hs.p_Amx
  mutex := (heff.mutex (by simp)).trans hs.mutex
  object := (heff.heap h).trans hs.object
  executed := by
    rw [heff.trace, executed_concat, hs.executed, Event.answer, if_pos rfl, Option.toList_some]
  calls := by
    rw [heff.trace, publicCalls_concat, hs.calls]
    exact List.append_nil _
  others p hp := by
    refine ⟨(heff.heap p).trans (hs.others p hp).1, ?_⟩
    rw [heff.trace, executed_concat, Event.answer, if_neg hp.symm]
    exact (List.append_nil _).trans (hs.others p hp).2

/-- A public has been called. -/
lemma called (hs : Serving h s₀ x done calls s) {a : Amx} {p : Public}
    (heff : Effect .main (.exec a p) s s') : Serving h s₀ x done (calls ++ [(a, p)]) s' where
  table := heff.table.trans hs.table
  p_Amx := heff.p_Amx.trans hs.p_Amx
  mutex := (heff.mutex (by simp)).trans hs.mutex
  object := (heff.heap h).trans hs.object
  executed := by
    rw [heff.trace, executed_concat, hs.executed]
    exact List.append_nil _
  calls := by
    rw [heff.trace, publicCalls_concat, hs.calls]
    rfl
  others q hq := by
    refine ⟨(heff.heap q).trans (hs.others q hq).1, ?_⟩
    rw [heff.trace, executed_concat]
    exact (List.append_nil _).trans (hs.others q hq).2

end

/-! ### Statements -/

section

variable {b : Build} {ok : HandlerPtr → Nat → Bool} {t : ThreadId} {E : Fault → State → Prop}
  {α : Type} {Q : α → State → Prop} {h : HandlerPtr} {s₀ s : State} {x : CMySQLHandler}
  {done : List (CString × Bool)} {calls : List (Amx × Public)}

lemma wp_at {i : Nat} {k : HandlerPtr → Code α} (hs : Serving h s₀ x done calls s)
    (hi : s₀.SQLHandle[i]? = some h) (hk : (k h).wp (serving b ok) t E Q s) :
    (Prog.lift (.at i) >>= k).wp (serving b ok) t E Q s := by
  rw [← hs.table] at hi
  refine wp_step (fun p s' hst => ?_) fun e s' hst => ?_
  · obtain ⟨rfl, hp⟩ := step_at (IsPlugin.step hst)
    obtain rfl : h = p := Option.some.inj (hi.symm.trans hp)
    exact hk
  · obtain ⟨ho, -⟩ := step_at_iff.mp (IsPlugin.step hst)
    rw [hi] at ho
    cases ho

lemma wp_this {k : CMySQLHandler → Code α} (hs : Serving h s₀ x done calls s)
    (hk : (k x).wp (serving b ok) t E Q s) : (this h >>= k).wp (serving b ok) t E Q s :=
  wp_object hs.object hk

lemma wp_assign {a : Assign} {k : Unit → Code α} (hs : Serving h s₀ x done calls s)
    (hdef : a.defined x = true)
    (hk : ∀ s', Serving h s₀ (a.apply x) done calls s' → (k ()).wp (serving b ok) t E Q s') :
    (MySQLPlugin.assign h a >>= k).wp (serving b ok) t E Q s := by
  refine wp_step (fun _ s' hst => hk s' (hs.assign (step_assign (IsPlugin.step hst))))
    fun e s' hst => ?_
  rw [step_assign_error (IsPlugin.step hst) hs.object] at hdef
  cases hdef

lemma wp_enter {f : LibCall} {k : ConnPtr → Code α} (hs : Serving h s₀ x done calls s)
    (hx : x.m_stConnectionPtr ≠ none)
    (hk : ∀ c s', Serving h s₀ x done calls s' → (k c).wp (serving b ok) t E Q s') :
    (Prog.lift (.enter h f) >>= k).wp (serving b ok) t E Q s := by
  refine wp_step (fun c s' hst => hk c s' (hs.passes (step_enter (IsPlugin.step hst)) trivial))
    fun e s' hst => ?_
  obtain ⟨r, _, hrun⟩ := IsPlugin.step hst
  obtain ⟨c, hc⟩ := Option.ne_none_iff_exists'.mp hx
  simp only [plugin, Stmt.run, hs.object, hc] at hrun
  cases hrun

/-- The ping succeeds. -/
lemma wp_ping {c : ConnPtr} {k : Bool → Code α} (hs : Serving h s₀ x done calls s)
    (hk : ∀ s', Serving h s₀ x done calls s' → (k true).wp (serving b ok) t E Q s') :
    (Prog.lift (.leave h c .mysql_ping) >>= k).wp (serving b ok) t E Q s := by
  refine wp_step (fun v s' hst => ?_) fun e s' hst => ?_
  · obtain ⟨ok', heff⟩ := step_leave (IsPlugin.step hst)
    obtain ⟨r, ⟨-, hr⟩, hrun⟩ := hst
    rw [IsPlugin.exec_eq] at hrun
    have hv : v = r.ok := by
      cases hrun
      rfl
    obtain rfl : v = true := hv.trans hr
    exact hk s' (hs.passes heff trivial)
  · obtain ⟨r, _, hrun⟩ := IsPlugin.step hst
    cases hrun

/-- The query has the answer that the environment has for it. -/
lemma wp_query {c : ConnPtr} {q : CString} {k : Bool → Code α} (hs : Serving h s₀ x done calls s)
    (hk : ∀ s', Serving h s₀ x (done ++ [(q, ok h done.length)]) calls s' →
      (k (ok h done.length)).wp (serving b ok) .worker E Q s') :
    (Prog.lift (.leave h c (.mysql_real_query q)) >>= k).wp (serving b ok) .worker E Q s := by
  refine wp_step (fun v s' hst => ?_) fun e s' hst => ?_
  · have heff := step_leave_query (IsPlugin.step hst)
    obtain ⟨r, ⟨-, hr⟩, hrun⟩ := hst
    rw [IsPlugin.exec_eq] at hrun
    have hv : v = r.ok := by
      simp only [Stmt.run, Libmysql.answer] at hrun
      split_ifs at hrun with hok <;> cases hrun <;> simp [hok]
    have hr : r.ok = ok h (MySQLPlugin.executed h s.trace).length := hr
    rw [hs.executed] at hr
    obtain rfl : v = ok h done.length := hv.trans hr
    exact hk s' (hs.answered heff)
  · obtain ⟨r, _, hrun⟩ := IsPlugin.step hst
    simp only [plugin, Stmt.run, Libmysql.answer] at hrun
    split_ifs at hrun <;> cases hrun

lemma wp_access {f : LibAccess} {k : f.Ret → Code α} (hs : Serving h s₀ x done calls s)
    (hx : x.m_stConnectionPtr ≠ none)
    (hk : ∀ v s', Serving h s₀ x done calls s' → (k v).wp (serving b ok) t E Q s') :
    (access h f >>= k).wp (serving b ok) t E Q s := by
  obtain ⟨c, hc⟩ := Option.ne_none_iff_exists'.mp hx
  refine wp_step (fun v s' hst => ?_) fun e s' hst => ?_
  · obtain ⟨r, _, hrun⟩ := IsPlugin.step hst
    simp only [plugin, Stmt.run, hs.object, hc] at hrun
    cases hrun
    exact hk _ _ (hs.passes (.record trivial rfl ⟨x, hs.object, hc⟩) trivial)
  · obtain ⟨r, _, hrun⟩ := IsPlugin.step hst
    simp only [plugin, Stmt.run, hs.object, hc] at hrun
    cases hrun

lemma wp_guard {k : Bool → Code α} (hs : Serving h s₀ x done calls s)
    (hk : ∀ s', Serving h s₀ x done calls s' → (k x.ready).wp (serving b ok) t E Q s') :
    (Prog.lift (.guard h) >>= k).wp (serving b ok) t E Q s := by
  refine wp_step (fun v s' hst => ?_) fun e s' hst => ?_
  · obtain ⟨y, hy, rfl, hv⟩ := step_guard (IsPlugin.step hst)
    obtain rfl : x = y := Option.some.inj (hs.object.symm.trans hy)
    cases hready : x.ready with
    | true =>
      rw [hready, if_pos rfl] at hv
      exact hready ▸ hk s' (hs.passes hv trivial)
    | false =>
      rw [hready, if_neg Bool.false_ne_true] at hv
      exact hready ▸ hk s' (hv ▸ hs)
  · obtain ⟨r, _, hrun⟩ := IsPlugin.step hst
    simp only [plugin, Stmt.run, hs.object] at hrun
    split_ifs at hrun <;> cases hrun

/-- A public is called in every script that has it. -/
lemma wp_execAll {name : CString} {p : Public} (hs : Serving h s₀ x done calls s) :
    (execAll name p).wp (serving b ok) .main E (fun _ s' => Serving h s₀ x done
      (calls ++ (s₀.p_Amx.filter fun a => name ∈ a.publics).map fun a => (a, p)) s') s := by
  rw [← hs.p_Amx]
  refine MySQLPlugin.wp_execAll (confined_serving b ok) (I := fun l s => Serving h s₀ x done
    (calls ++ (l.filter fun a => name ∈ a.publics).map fun a => (a, p)) s)
    (fun l a s₁ s₂ hname hI heff => ?_) (fun l a s₁ hname hI => ?_) (fun _ _ _ hn _ => hn.elim) ?_
  · have hI' := hI.called heff
    rw [List.append_assoc] at hI'
    simpa [List.filter_append, hname] using hI'
  · simpa [List.filter_append, hname] using hI
  · simpa using hs

end

end Serving

/-! ### Visits -/

section

variable {b : Build} {ok : HandlerPtr → Nat → Bool} {h : HandlerPtr} {i : Nat} {s₀ s : State}
  {x : CMySQLHandler} {waiting : List MainInfo} {out : Option Outcome} {done : List (CString × Bool)}
  {calls : List (Amx × Public)}

/-- The worker executes the query at the front; its outcome is to be handed out. -/
lemma executeFront_serves {q : MainInfo} {qs : List MainInfo} (hs : Serving h s₀ x done calls s)
    (hx : x.Holds (q :: qs) none) :
    (executeFront h).wp (serving b ok) .worker (fun _ _ => False) (fun _ s' => ∃ o y, o.query = q ∧
      o.succeeded = ok h done.length ∧ y.Holds qs (some o) ∧
      Serving h s₀ y (done ++ [(q.m_szQuery, ok h done.length)]) calls s') s := by
  refine hs.wp_this ?_
  rw [hx.queueData]
  refine hs.wp_assign rfl fun s₁ hs₁ => ?_
  rw [call, bind_bind]
  refine hs₁.wp_enter hx.pointer fun c s₂ hs₂ => hs₂.wp_query fun s₃ hs₃ => ?_
  have hpop {y : CMySQLHandler} {s₄ : State} {Q : Unit → State → Prop}
      (hs₄ : Serving h s₀ y (done ++ [(q.m_szQuery, ok h done.length)]) calls s₄)
      (hy : y.queueData = q :: qs)
      (hQ : ∀ s', Serving h s₀ (Assign.queueData_pop.apply y)
        (done ++ [(q.m_szQuery, ok h done.length)]) calls s' → Q () s') :
      (assign h .queueData_pop).wp (serving b ok) .worker (fun _ _ => False) Q s₄ := by
    rw [← bind_ret_right (assign h _)]
    exact hs₄.wp_assign (by simp [Assign.defined, hy]) hQ
  cases hok : ok h done.length with
  | true =>
    rw [hok] at hs₃ hpop
    simp only [if_true, bind_bind]
    refine hs₃.wp_assign rfl fun s₄ hs₄ => hs₄.wp_assign rfl fun s₅ hs₅ => ?_
    refine hpop hs₅ hx.queueData fun s' hs' => ⟨⟨q, none⟩, _, rfl, rfl, ?_, hs'⟩
    exact
      { connected := hx.connected
        pointer := hx.pointer
        direct := hx.direct
        queueData := by simp [Assign.apply, hx.queueData]
        callbackData := by
          simp [Assign.apply, hx.callbackData, Outcome.callbackData, Outcome.succeeded]
        errorCallback := hx.errorCallback
        processing := rfl }
  | false =>
    rw [hok] at hs₃ hpop
    simp only [Bool.false_eq_true, if_false, queryFailed, bind_bind]
    refine hs₃.wp_access hx.pointer fun id s₄ hs₄ => hs₄.wp_assign rfl fun s₅ hs₅ => ?_
    refine hs₅.wp_access hx.pointer fun error s₆ hs₆ => hs₆.wp_assign rfl fun s₇ hs₇ => ?_
    refine hs₇.wp_assign rfl fun s₈ hs₈ => ?_
    refine hpop hs₈ hx.queueData fun s' hs' => ⟨⟨q, some (id, error)⟩, _, rfl, rfl, ?_, hs'⟩
    exact
      { connected := hx.connected
        pointer := hx.pointer
        direct := hx.direct
        queueData := by simp [Assign.apply, hx.queueData]
        callbackData := hx.callbackData
        errorCallback := by simp [Assign.apply, hx.errorCallback, Outcome.errorCallback]
        processing := rfl }

/-- A visit of the worker serves the handler: the query at the front, if there is one. -/
lemma workerVisit_serves (hi : s₀.SQLHandle[i]? = some h) (hs : Serving h s₀ x done calls s)
    (hx : x.Holds waiting none) :
    (workerVisit i).wp (serving b ok) .worker (fun _ _ => False) (fun _ s' => ∃ out y,
      out.map Outcome.query = waiting.head? ∧ (∀ o ∈ out, o.succeeded = ok h done.length) ∧
      y.Holds waiting.tail out ∧
      Serving h s₀ y (done ++ (waiting.head?.map fun q => (q.m_szQuery, ok h done.length)).toList)
        calls s') s := by
  refine hs.wp_at hi (hs.wp_guard fun s₁ hs₁ => ?_)
  rw [hx.ready]
  cases waiting with
  | nil => exact ⟨none, x, rfl, by simp, hx, by simpa using hs₁⟩
  | cons q qs =>
    simp only [List.isEmpty_cons, Bool.not_false, if_true, call, bind_bind]
    refine hs₁.wp_enter hx.pointer fun c s₂ hs₂ => hs₂.wp_ping fun s₃ hs₃ => ?_
    rw [if_pos rfl, wp_bind]
    refine wp_mono (executeFront_serves hs₃ hx) fun _ s₄ ⟨o, y, ho, hok, hy, hs₄⟩ => ?_
    rw [← bind_ret_right (Prog.lift _)]
    refine wp_mark fun s₅ heff => ⟨some o, y, by rw [Option.map_some, ho]; rfl, ?_, hy, ?_⟩
    · intro o' ho'
      obtain rfl := Option.some.inj ho'
      exact hok
    · exact hs₄.passes heff trivial

/-- The first half of a visit of `ProcessTick`: the error at the front, if there is one. -/
lemma tickError_serves {Q : Unit → State → Prop} (hi : s₀.SQLHandle[i]? = some h)
    (hs : Serving h s₀ x done calls s)
    (hnil : x.errorCallback = [] → Q () s)
    (hcons : ∀ e es s', x.errorCallback = e :: es →
      Serving h s₀ (Assign.errorCallback_pop.apply x) done
        (calls ++ (s₀.p_Amx.filter fun a => OnQueryError ∈ a.publics).map
          fun a => (a, onQueryError i e)) s' → Q () s') :
    (tickError i).wp (serving b ok) .main (fun _ _ => False) Q s := by
  refine hs.wp_at hi (hs.wp_this ?_)
  rw [wp_ite]
  split_ifs with hne
  · refine hs.wp_at hi (hs.wp_this ?_)
    cases he : x.errorCallback with
    | nil => simp [he] at hne
    | cons e es =>
      simp only [front, pure_eq, bind_ret]
      rw [wp_bind]
      refine wp_mono hs.wp_execAll fun _ s₁ hs₁ => hs₁.wp_at hi ?_
      rw [← bind_ret_right (assign h _)]
      exact hs₁.wp_assign (by simp [Assign.defined, he]) fun s₂ hs₂ => hcons e es s₂ he hs₂
  · exact hnil (by simpa using hne)

/-- The second half: the success at the front, if there is one. -/
lemma tickCallback_serves {Q : Unit → State → Prop} (hi : s₀.SQLHandle[i]? = some h)
    (hs : Serving h s₀ x done calls s)
    (hnil : x.callbackData = [] → Q () s)
    (hcons : ∀ d ds s', x.callbackData = d :: ds →
      Serving h s₀ ((Assign.m_bQueryProcessing false).apply (Assign.callbackData_pop.apply x)) done
        (calls ++ (s₀.p_Amx.filter fun a => d.m_szCallback ∈ a.publics).map
          fun a => (a, onQueryFinish i d)) s' → Q () s') :
    (tickCallback i).wp (serving b ok) .main (fun _ _ => False) Q s := by
  refine hs.wp_at hi (hs.wp_this ?_)
  rw [wp_ite]
  split_ifs with hne
  · refine hs.wp_at hi (hs.wp_this ?_)
    cases hd : x.callbackData with
    | nil => simp [hd] at hne
    | cons d ds =>
      simp only [front, pure_eq, bind_ret]
      rw [wp_bind]
      refine wp_mono hs.wp_execAll fun _ s₁ hs₁ => hs₁.wp_at hi ?_
      refine hs₁.wp_assign (by simp [Assign.defined, hd]) fun s₂ hs₂ => hs₂.wp_at hi ?_
      rw [← bind_ret_right (assign h _)]
      exact hs₂.wp_assign rfl fun s₃ hs₃ => hcons d ds s₃ hd hs₃
  · exact hnil (by simpa using hne)

/-- A visit of `ProcessTick` hands out what is to be handed out, and nothing else. -/
lemma tickVisit_serves (hi : s₀.SQLHandle[i]? = some h) (hs : Serving h s₀ x done calls s)
    (hx : x.Holds waiting out) :
    (tickVisit i).wp (serving b ok) .main (fun _ _ => False) (fun _ s' => ∃ y, y.Holds waiting none ∧
      Serving h s₀ y done (calls ++ out.elim [] (Outcome.calls s₀.p_Amx i)) s') s := by
  rw [tickVisit, wp_bind]
  have herr := hx.errorCallback
  have hcb := hx.callbackData
  cases out with
  | none =>
    refine tickError_serves hi hs (fun _ => ?_) fun e es _ he _ => by rw [herr] at he; cases he
    refine tickCallback_serves hi hs (fun _ => ⟨x, hx, ?_⟩) fun d ds _ hd _ => by rw [hcb] at hd; cases hd
    rw [Option.elim_none, List.append_nil]
    exact hs
  | some o =>
    obtain ⟨q, error⟩ := o
    cases error with
    | none =>
      refine tickError_serves hi hs (fun _ => ?_) fun e es _ he _ => by rw [herr] at he; cases he
      refine tickCallback_serves hi hs (fun hd => by rw [hcb] at hd; cases hd) fun d ds s₁ hd hs₁ => ?_
      obtain ⟨rfl, rfl⟩ : q = d ∧ [] = ds := List.cons.inj (hcb.symm.trans hd)
      refine ⟨_, ?_, by simpa [Outcome.calls, Outcome.name, Outcome.succeeded, onQueryFinish] using hs₁⟩
      exact
        { connected := hx.connected
          pointer := hx.pointer
          direct := hx.direct
          queueData := hx.queueData
          callbackData := by simp [Assign.apply, hd]
          errorCallback := hx.errorCallback
          processing := rfl }
    | some e =>
      refine tickError_serves hi hs (fun he => by rw [herr] at he; cases he) fun e' es s₁ he hs₁ => ?_
      obtain ⟨rfl, rfl⟩ := List.cons.inj (herr.symm.trans he)
      refine tickCallback_serves hi hs₁ (fun _ => ?_) fun d ds _ hd _ => by
        replace hd : x.callbackData = d :: ds := hd
        rw [hcb] at hd
        cases hd
      refine ⟨_, ?_, by simpa [Outcome.calls, Outcome.name, Outcome.succeeded, onQueryError] using hs₁⟩
      exact
        { connected := hx.connected
          pointer := hx.pointer
          direct := hx.direct
          queueData := hx.queueData
          callbackData := hx.callbackData
          errorCallback := by simp [Assign.apply, he]
          processing := hx.processing }

end

end MySQLPlugin

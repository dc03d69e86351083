import MySQLPlugin.Errors.Reported
import MySQLPlugin.Queues.Calls

/-!
# Rejected queries

The server rejects a query that the worker executes; the worker reports it, and `ProcessTick` passes
the report to `OnQueryError`. The report is copied from the query field by field, except for
`m_uiExtra`.
-/

namespace MySQLPlugin

open Threads Prog CMySQLHandler

/-- The report of `q`, rejected on the connection `x`. -/
def rejection (q : MainInfo) (x : Connection) : ErrorInfo where
  m_szQuery := q.m_szQuery
  m_szError := x.error
  m_uiErrorID := x.errno
  m_uiResult := q.m_uiResult
  m_uiExtra := .unset
  m_szCallback := q.m_szCallback

/-- The call of `OnQueryError` with everything that is known of `q`, rejected on the connection `x`
of the handler at position `i`. -/
def fullReport (i : Nat) (q : MainInfo) (x : Connection) : Public :=
  .OnQueryError x.errno x.error q.m_uiResult (.set q.m_uiExtra) q.m_szCallback q.m_szQuery
    (connectionHandle i)

lemma onQueryError_ne_fullReport (i j : Nat) (q : MainInfo) (x : Connection) :
    onQueryError i (rejection q x) ≠ fullReport j q x := by
  intro h
  cases h

/-- A visit of the worker from `s` to `s'` has executed the query `q` at the front of `h`, and the
server has rejected it on the connection `c`. -/
structure Rejects (b : Build) (h : HandlerPtr) (q : MainInfo) (c : ConnPtr) (s s' : State) : Prop where
  visit : ∃ i, s.SQLHandle[i]? = some h ∧ Run (plugin b) .worker (workerVisit i) s (.ok ()) s'
  front : ∃ x, s.heap h = some x ∧ x.queueData.head? = some q
  rejected : .leave .worker h (.mysql_real_query q.m_szQuery) c false ∈ s.since s'

/-- From `s` to `s'` the report `e` has been filed at `h`. -/
def Files (h : HandlerPtr) (e : ErrorInfo) (s s' : State) : Prop :=
  ∃ x y, s.heap h = some x ∧ s'.heap h = some y ∧ y.errorCallback = x.errorCallback ++ [e]

/-! ### Visits of the worker -/

/-- The query of `h` that the server has rejected, and the connection. -/
def Event.rejected (h : HandlerPtr) : Event → Option (CString × ConnPtr)
  | .leave .worker p (.mysql_real_query q) c false => if p = h then some (q, c) else none
  | _ => none

lemma rejected_eq_some {h : HandlerPtr} {e : Event} {q : CString} {c : ConnPtr} :
    e.rejected h = some (q, c) ↔ e = .leave .worker h (.mysql_real_query q) c false := by
  constructor
  · intro he
    cases e with
    | leave u p f d ok =>
      cases u <;> cases f <;> cases ok <;> simp [Event.rejected] at he
      obtain ⟨rfl, rfl, rfl⟩ := he
      rfl
    | _ => cases he
  · rintro rfl
    simp [Event.rejected]

/-- The report that the assignment files. -/
def Assign.filed : Assign → List ErrorInfo
  | .errorCallback_push e => [e]
  | _ => []

/-- From `s₀` to `s` the object at `h` has gone from `x` to `y`, and the others have not changed; the
reports `filed` have been filed at `h`, and its queries `rejected` have been rejected. -/
structure Reporting (h : HandlerPtr) (s₀ s : State) (x y : CMySQLHandler) (filed : List ErrorInfo)
    (rejected : List (CString × ConnPtr)) : Prop where
  others : ∀ p ≠ h, s.heap p = s₀.heap p
  before : s₀.heap h = some x
  after : s.heap h = some y
  errors : y.errorCallback = x.errorCallback ++ filed
  trace : ∃ es, s.trace = s₀.trace ++ es ∧ es.filterMap (Event.rejected h) = rejected

section

variable {h : HandlerPtr} {x y : CMySQLHandler} {filed : List ErrorInfo}
  {rejected : List (CString × ConnPtr)} {s₀ s s' : State} {t : ThreadId} {e : Event}

lemma Reporting.refl (hx : s.heap h = some x) : Reporting h s s x x [] [] where
  others _ _ := rfl
  before := hx
  after := hx
  errors := (List.append_nil _).symm
  trace := ⟨[], by simp⟩

lemma Reporting.congr (hs : Reporting h s₀ s x y filed rejected) {filed' : List ErrorInfo}
    {rejected' : List (CString × ConnPtr)} (hf : filed = filed') (hr : rejected = rejected') :
    Reporting h s₀ s x y filed' rejected' := by
  rwa [← hf, ← hr]

lemma Reporting.concat (hs : Reporting h s₀ s x y filed rejected) (heff : Effect t e s s') :
    ∃ es, s'.trace = s₀.trace ++ es ∧
      es.filterMap (Event.rejected h) = rejected ++ (e.rejected h).toList := by
  obtain ⟨es, htrace, hes⟩ := hs.trace
  refine ⟨es ++ [e], by rw [heff.trace, htrace, List.append_assoc], ?_⟩
  rw [List.filterMap_append, hes]
  cases he : e.rejected h <;> simp [he]

lemma Reporting.assign {a : Assign} (hs : Reporting h s₀ s x y filed rejected)
    (ha : a ≠ .errorCallback_pop) (heff : Effect t (.assign t h a) s s') :
    Reporting h s₀ s' x (a.apply y) (filed ++ a.filed) rejected where
  others p hp := by
    rw [heff.heap p, Event.onObject, if_neg hp]
    exact hs.others p hp
  before := hs.before
  after := by rw [heff.heap h, Event.onObject, if_pos rfl, hs.after, Option.map_some]
  errors := by
    rw [← List.append_assoc, ← hs.errors]
    cases a with
    | errorCallback_pop => exact absurd rfl ha
    | errorCallback_push e => rfl
    | _ => exact (List.append_nil _).symm
  trace := by
    obtain ⟨es, htrace, hes⟩ := hs.concat heff
    exact ⟨es, htrace, hes.trans (List.append_nil _)⟩

lemma Reporting.pointer (hs : Reporting h s₀ s x y filed rejected) {o : Option ConnPtr}
    (hc : ∃ z, s.heap h = some z ∧ z.m_stConnectionPtr = o) : y.m_stConnectionPtr = o := by
  obtain ⟨z, hz, hc⟩ := hc
  obtain rfl := Option.some.inj (hz.symm.trans hs.after)
  exact hc

/-- The event changes no object. -/
def Event.KeepsObjects : Event → Prop
  | .new _ _ _ _ _ _ | .delete _ | .assign _ _ _ => False
  | _ => True

lemma Reporting.pass (hs : Reporting h s₀ s x y filed rejected) (heff : Effect t e s s')
    (he : e.KeepsObjects) : Reporting h s₀ s' x y filed (rejected ++ (e.rejected h).toList) := by
  have hheap (p : HandlerPtr) : s'.heap p = s.heap p := by
    rw [heff.heap p]
    cases e <;> first | exact he.elim | rfl
  exact ⟨fun p hp => (hheap p).trans (hs.others p hp), hs.before, (hheap h).trans hs.after, hs.errors,
    hs.concat heff⟩

end

/-- The event changes at most the object at `h`, and rejects and reports nothing. -/
def Event.Calm (h : HandlerPtr) : Event → Prop
  | .assign _ p a => p = h ∧ a.filed = [] ∧ a ≠ .errorCallback_pop
  | .new _ _ _ _ _ _ | .delete _ | .leave _ _ (.mysql_real_query _) _ _ => False
  | _ => True

lemma Event.Calm.rejected {h : HandlerPtr} {e : Event} (he : e.Calm h) : e.rejected h = none := by
  cases e with
  | leave u p f c ok => cases f <;> first | exact he.elim | (cases u <;> rfl)
  | _ => rfl

lemma Reporting.calm {h : HandlerPtr} {x : CMySQLHandler} {s₀ s s' : State} {t : ThreadId} {e : Event}
    (hs : ∃ y, Reporting h s₀ s x y [] []) (heff : Effect t e s s') (he : e.Calm h) :
    ∃ y, Reporting h s₀ s' x y [] [] := by
  obtain ⟨y, hs⟩ := hs
  cases e with
  | assign u p a =>
    obtain rfl : u = t := heff.by_
    obtain ⟨rfl, hfiled, hpop⟩ := he
    have hs' := hs.assign hpop heff
    rw [hfiled] at hs'
    exact ⟨_, hs'⟩
  | new => exact he.elim
  | delete => exact he.elim
  | _ =>
    have hs' := hs.pass heff trivial
    rw [he.rejected] at hs'
    exact ⟨y, hs'⟩

lemma reconnectInBackground_calm (h : HandlerPtr) :
    (reconnectInBackground h).All (Stmt.Only .worker (Event.Calm h)) := by
  simp [reconnectInBackground, connect, this, assign, call, access, onResult, bind_bind, ite_bind,
    all_lift_bind, all_ite, Stmt.Only, Event.Calm, Assign.filed]

/-- A visit has executed nothing or the query at the front of `x`: the server has accepted it, or it
has been reported. -/
def FrontAnswered (h : HandlerPtr) (x : CMySQLHandler) (s₀ s : State) : Prop :=
  (∃ y, Reporting h s₀ s x y [] []) ∨ ∃ y q c, x.queueData.head? = some q ∧
    Reporting h s₀ s x y [rejection q (s.lib.conn c)] [(q.m_szQuery, c)]

section

variable {M : Machine Stmt Fault State ThreadId Reply} {b : Build} [IsPlugin M b]
  {E : Fault → State → Prop} {α : Type} {Q : α → State → Prop} {t : ThreadId} {h : HandlerPtr}
  {x y : CMySQLHandler} {s₀ s : State}

include b

lemma wp_leaveQuery {q : CString} {c : ConnPtr} {k : Bool → Code α}
    (hk : ∀ v s', Effect t (.leave t h (.mysql_real_query q) c v) s s' → (k v).wp M t E Q s') :
    (Prog.lift (.leave h c (.mysql_real_query q)) >>= k).wp M t E Q s := by
  refine wp_step (fun v s' hst => hk v s' (step_leave_query (IsPlugin.step hst))) fun e s' hst => ?_
  obtain ⟨r, _, hrun⟩ := IsPlugin.step hst
  simp only [plugin, Stmt.run, Libmysql.answer] at hrun
  split_ifs at hrun <;> cases hrun

lemma executeFront_frontAnswered (hs : Reporting h s₀ s x x [] []) :
    (executeFront h).wp M .worker (fun _ _ => True) (fun _ => FrontAnswered h x s₀) s := by
  refine wp_object hs.after ?_
  cases hq : x.queueData with
  | nil => trivial
  | cons q qs =>
    refine wp_assign (fun _ => trivial) fun s₁ heff₁ => ?_
    have hs₁ := hs.assign (by simp) heff₁
    rw [call, bind_bind]
    refine wp_enter (fun _ => trivial) (fun _ _ _ => trivial) fun c s₂ heff₂ => ?_
    have hs₂ := hs₁.pass heff₂ trivial
    refine wp_leaveQuery fun v s₃ heff₃ => ?_
    have hs₃ := hs₂.pass heff₃ trivial
    cases v with
    | true =>
      simp only [if_true, bind_bind]
      refine wp_assign (fun _ => trivial) fun s₄ heff₄ => ?_
      have hs₄ := hs₃.assign (by simp) heff₄
      refine wp_assign (fun _ => trivial) fun s₅ heff₅ => ?_
      have hs₅ := hs₄.assign (by simp) heff₅
      rw [← bind_ret_right (assign h _)]
      exact wp_assign (fun _ => trivial) fun s₆ heff₆ => .inl ⟨_, hs₅.assign (by simp) heff₆⟩
    | false =>
      simp only [Bool.false_eq_true, if_false, queryFailed, bind_bind]
      have hc : x.m_stConnectionPtr = some c := hs₁.pointer heff₂.occurs
      refine wp_access_lib (fun _ _ => trivial) fun d r s₄ heff₄ hlib₄ => ?_
      obtain rfl : c = d := Option.some.inj (hc.symm.trans (hs₃.pointer heff₄.occurs))
      have hs₄ := hs₃.pass heff₄ trivial
      refine wp_assign_lib (fun _ => trivial) fun s₅ heff₅ hlib₅ => ?_
      have hs₅ := hs₄.assign (by simp) heff₅
      refine wp_access_lib (fun _ _ => trivial) fun d r s₆ heff₆ hlib₆ => ?_
      obtain rfl : c = d := Option.some.inj (hc.symm.trans (hs₅.pointer heff₆.occurs))
      have hs₆ := hs₅.pass heff₆ trivial
      refine wp_assign_lib (fun _ => trivial) fun s₇ heff₇ hlib₇ => ?_
      have hs₇ := hs₆.assign (by simp) heff₇
      refine wp_assign_lib (fun _ => trivial) fun s₈ heff₈ hlib₈ => ?_
      have hs₈ := hs₇.assign (by simp) heff₈
      rw [← bind_ret_right (assign h _)]
      refine wp_assign_lib (fun _ => trivial) fun s₉ heff₉ hlib₉ => ?_
      have hlib₅₃ : s₅.lib = s₃.lib := hlib₅.trans hlib₄
      have hlib₉₃ : s₉.lib = s₃.lib :=
        hlib₉.trans (hlib₈.trans (hlib₇.trans (hlib₆.trans hlib₅₃)))
      have hs₉ := hs₈.assign (by simp) heff₉
      refine .inr ⟨_, q, c, by rw [hq, List.head?_cons], hs₉.congr ?_ ?_⟩
      · simp [Assign.filed, rejection, Libmysql.access, hlib₉₃, hlib₅₃]
      · simp [Event.rejected]

/-- A visit of the worker files at most the report of the query that it executes. -/
lemma workerVisit_frontAnswered (i : Nat) (s : State) :
    (workerVisit i).wp M .worker (fun _ _ => True) (fun _ s' => ∃ h x, s.SQLHandle[i]? = some h ∧
      s.heap h = some x ∧ FrontAnswered h x s s') s := by
  refine wp_at (fun _ => trivial) fun h hh => wp_guard (fun _ => trivial) (fun x hx _ => ?_)
    fun x s₁ hx _ heff₁ => ?_
  · exact ⟨h, x, hh, hx, .inl ⟨x, .refl hx⟩⟩
  have hs₁ := (Reporting.refl hx).pass heff₁ trivial
  rw [if_pos rfl, call, bind_bind]
  refine wp_enter (fun _ => trivial) (fun _ _ _ => trivial) fun c s₂ heff₂ => ?_
  have hs₂ := hs₁.pass heff₂ trivial
  refine wp_leave fun v ok s₃ heff₃ => ?_
  have hs₃ := hs₂.pass heff₃ trivial
  have hend (s' : State) (hs' : FrontAnswered h x s s') : (Prog.lift (.mark (.visitEnd h))).wp M .worker
      (fun _ _ => True) (fun _ s' => ∃ h x, s.SQLHandle[i]? = some h ∧ s.heap h = some x ∧
        FrontAnswered h x s s') s' := by
    rw [← bind_ret_right (Prog.lift _)]
    refine wp_mark_record ⟨h, x, hh, hx, ?_⟩
    have heff : Effect .worker (.mark (.visitEnd h)) s' (s'.record _) :=
      .record trivial trivial trivial
    rcases hs' with hs' | ⟨y, q, c, hq, hs'⟩
    · exact .inl (Reporting.calm hs' heff trivial)
    · exact .inr ⟨y, q, c, hq, hs'.pass heff trivial⟩
  rw [wp_bind, wp_ite]
  split_ifs
  · exact wp_mono (executeFront_frontAnswered hs₃) fun _ => hend
  · refine wp_mono (wp_of_only IsPlugin.step (reconnectInBackground_calm h)
      (fun e s s' he hs heff => Reporting.calm hs heff he) (fun _ _ _ => trivial) ⟨x, hs₃⟩) fun _ s' hs' => ?_
    exact hend s' (.inl hs')

end

/-! ### Where the reports come from -/

def Public.IsOnQueryError : Public → Prop
  | .OnQueryError _ _ _ _ _ _ _ => True
  | .callback _ _ _ _ _ => False

/-- `Query` or `OldQuery` has accepted the query: a call on `h` with the arguments that `q` records has
put `q` into the queue and returned its id. -/
def Accepted (h : HandlerPtr) (q : MainInfo) (es : List Event) : Prop :=
  ∃ a ∈ (callLog es).done, a.handler = some h ∧ a.call.job = some q ∧ a.queued = [(h, q)] ∧
    a.result = q.m_uiResult

/-- A visit of the worker, in a run that leads on to the trace `es`, has filed the report `e` of an
accepted query that the server rejected. -/
def FiledByWorker (b : Build) (p_Amx : List Amx) (e : ErrorInfo) (es : List Event) : Prop :=
  ∃ h q c s₁ s₂, Runs b Set.univ (State.init p_Amx) s₁ ∧ Accepted h q s₁.trace ∧
    Rejects b h q c s₁ s₂ ∧ Files h e s₁ s₂ ∧ e = rejection q (s₂.lib.conn c) ∧ s₂.trace <+: es

/-- `OldQuery` has filed the report of a query that it executed itself. -/
def FiledByOldQuery (e : ErrorInfo) (es : List Event) : Prop :=
  ∃ h, .assign .main h (.errorCallback_push e) ∈ es

/-- The queries that wait have been put into the queue by the main thread. -/
def Queued (s : State) : Prop :=
  ∀ h x q, s.heap h = some x → q ∈ x.queueData → .assign .main h (.queueData_push q) ∈ s.trace

/-- The reports that `OnQueryError` has been called for have been filed before. -/
def CalledForFiled (b : Build) (p_Amx : List Amx) (s : State) : Prop :=
  ∀ es a p, es ++ [.exec a p] <+: s.trace → p.IsOnQueryError →
    ∃ i e, p = onQueryError i e ∧ (FiledByWorker b p_Amx e es ∨ FiledByOldQuery e es)

structure Sourced (b : Build) (p_Amx : List Amx) (s : State) : Prop where
  queued : Queued s
  filed : ∀ h x e, s.heap h = some x → e ∈ x.errorCallback →
    FiledByWorker b p_Amx e s.trace ∨ FiledByOldQuery e s.trace
  called : CalledForFiled b p_Amx s

section

variable {b : Build} {p_Amx : List Amx} {h : HandlerPtr} {q : MainInfo} {e : ErrorInfo}
  {es es' : List Event} {s s' : State} {t : ThreadId}

lemma filed_mono (he : FiledByWorker b p_Amx e es ∨ FiledByOldQuery e es) (hes : es <+: es') :
    FiledByWorker b p_Amx e es' ∨ FiledByOldQuery e es' := by
  rcases he with ⟨h, q, c, s₁, s₂, hs₁, hq, hrej, hfiles, heq, hpre⟩ | ⟨h, he⟩
  · exact .inl ⟨h, q, c, s₁, s₂, hs₁, hq, hrej, hfiles, heq, hpre.trans hes⟩
  · exact .inr ⟨h, hes.subset he⟩

/-- What is in a queue of a handler was there before, or has just been pushed with `push`. -/
lemma Effect.mem_queue {α : Type} {f : CMySQLHandler → List α} {y : α} {push : Assign} {ev : Event}
    (heff : Effect t ev s s') (hnew : ∀ x, x.queueData = [] ∧ x.errorCallback = [] → y ∉ f x)
    (hpush : ∀ a x, y ∈ f (a.apply x) → y ∈ f x ∨ a = push) {x' : CMySQLHandler}
    (hx' : s'.heap h = some x') (hy : y ∈ f x') :
    (∃ x, s.heap h = some x ∧ y ∈ f x) ∨ ev = .assign t h push := by
  rw [heff.heap h] at hx'
  cases ev with
  | new =>
    simp only [Event.onObject] at hx'
    split_ifs at hx'
    · cases hx'
      exact absurd hy (hnew _ ⟨rfl, rfl⟩)
    · exact .inl ⟨x', hx', hy⟩
  | delete =>
    simp only [Event.onObject] at hx'
    split_ifs at hx'
    exact .inl ⟨x', hx', hy⟩
  | assign u p a =>
    obtain rfl : u = t := heff.by_
    simp only [Event.onObject] at hx'
    split_ifs at hx' with hp
    · subst hp
      obtain ⟨x, hx, rfl⟩ := Option.map_eq_some_iff.mp hx'
      rcases hpush a x hy with hy | rfl
      · exact .inl ⟨x, hx, hy⟩
      · exact .inr rfl
    · exact .inl ⟨x', hx', hy⟩
  | _ => exact .inl ⟨x', hx', hy⟩

lemma mem_queueData_apply (a : Assign) (x : CMySQLHandler) (hq : q ∈ (a.apply x).queueData) :
    q ∈ x.queueData ∨ a = .queueData_push q := by
  cases a with
  | queueData_push q' =>
    rcases List.mem_append.mp hq with hq | hq
    · exact .inl hq
    · exact .inr (by rw [List.mem_singleton.mp hq])
  | queueData_pop => exact .inl (List.mem_of_mem_tail hq)
  | queueData_popAll => simp [Assign.apply] at hq
  | _ => exact .inl hq

lemma mem_errorCallback_apply (a : Assign) (x : CMySQLHandler)
    (he : e ∈ (a.apply x).errorCallback) : e ∈ x.errorCallback ∨ a = .errorCallback_push e := by
  cases a with
  | errorCallback_push e' =>
    rcases List.mem_append.mp he with he | he
    · exact .inl he
    · exact .inr (by rw [List.mem_singleton.mp he])
  | errorCallback_pop => exact .inl (List.mem_of_mem_tail he)
  | _ => exact .inl he

/-- The event does not call `OnQueryError`. -/
def Event.NoReport : Event → Prop
  | .exec _ p => ¬ p.IsOnQueryError
  | _ => True

lemma Queued.step {ev : Event} (hs : Queued s) (heff : Effect t ev s s')
    (hpush : ∀ p q, ev = .assign t p (.queueData_push q) → t = .main) : Queued s' := by
  intro h x' q hx' hq
  rcases heff.mem_queue (f := (·.queueData)) (fun x hx => by simp [hx.1])
    mem_queueData_apply hx' hq with ⟨x, hx, hq⟩ | rfl
  · exact heff.prefix.subset (hs h x q hx hq)
  · obtain rfl := hpush h q rfl
    rw [heff.trace]
    exact List.mem_append_right _ (List.mem_singleton_self _)

lemma CalledForFiled.step {ev : Event} (hs : CalledForFiled b p_Amx s) (heff : Effect t ev s s')
    (hev : ev.NoReport) : CalledForFiled b p_Amx s' := by
  intro es a p hcall hp
  rcases heff.occurrence hcall with hcall | ⟨-, rfl⟩
  · exact hs es a p hcall hp
  · exact absurd hp hev

/-- The statements of the main thread outside `ProcessTick`. -/
lemma Sourced.step {ev : Event} (hs : Sourced b p_Amx s) (heff : Effect .main ev s s')
    (hev : ev.NoReport) : Sourced b p_Amx s' where
  queued := hs.queued.step heff fun _ _ _ => rfl
  filed h x e hx he := by
    rcases heff.mem_queue (f := (·.errorCallback)) (fun x hx => by simp [hx.2])
      mem_errorCallback_apply hx he with ⟨x, hx, he⟩ | rfl
    · exact filed_mono (hs.filed h x e hx he) heff.prefix
    · refine .inr ⟨h, ?_⟩
      rw [heff.trace]
      exact List.mem_append_right _ (List.mem_singleton_self _)
  called := hs.called.step heff hev

end

/-! ### Runs -/

section

variable {M : Machine Stmt Fault State ThreadId Reply} {b : Build} [IsPlugin M b] {p_Amx : List Amx}
  {s : State}

omit [IsPlugin M b] in
lemma native_noReport (n : NativeCall) : (native n).All (Stmt.Only .main Event.NoReport) := by
  by_cases hopen : n.Open
  · refine all_only_mono (native_ofNative .main hopen) fun e he => ?_
    cases e <;> first | exact he.elim | trivial
  cases n with
  | mysql_close c =>
    simp [native, Natives.body, Natives.nMysqlClose, clearQueue, destruct, freeResult, load, onResult,
      disconnect, closeConnection, this, assign, call, lockMutex, unlockMutex, bind_bind, ite_bind,
      all_lift_bind, all_ite, Stmt.Only, Event.NoReport]
  | _ => exact absurd trivial hopen

lemma native_sourced (n : NativeCall) (hs : Sourced b p_Amx s) :
    (native n).wp M .main (fun _ _ => True) (fun _ => Sourced b p_Amx) s :=
  wp_of_only IsPlugin.step (native_noReport n) (fun _ _ _ he hs heff => hs.step heff he)
    (fun _ _ _ => trivial) hs

lemma tickError_sourced (i : Nat) (hs : Sourced b p_Amx s) :
    (tickError i).wp M .main (fun _ _ => True) (fun _ => Sourced b p_Amx) s := by
  refine wp_tickError (fun _ => trivial) hs fun h x e es _ hx herr => ?_
  have he := hs.filed h x e hx (herr ▸ List.mem_cons_self)
  refine wp_mono (wp_execAll (confined_univ M) (I := fun _ s' => Sourced b p_Amx s' ∧
    (FiledByWorker b p_Amx e s'.trace ∨ FiledByOldQuery e s'.trace)) ?_ (fun _ _ _ _ h => h) ?_
    ⟨hs, he⟩) fun _ s₁ hs₁ => ?_
  · rintro _ a s₁ s₂ _ ⟨hs₁, he₁⟩ heff
    refine ⟨⟨hs₁.queued.step heff fun _ _ _ => rfl, fun p y e' hy he' => ?_,
      fun es' a' p hcall hp => ?_⟩, filed_mono he₁ heff.prefix⟩
    · exact filed_mono (hs₁.filed p y e' ((heff.heap p).symm.trans hy) he') heff.prefix
    · rcases heff.occurrence hcall with hcall | ⟨rfl, heq⟩
      · exact hs₁.called es' a' p hcall hp
      · cases heq
        exact ⟨i, e, rfl, he₁⟩
  · rintro _ n s₁ _ ⟨hs₁, he₁⟩
    refine wp_and (native_sourced n hs₁) (wp_of_only (P := fun _ => True) IsPlugin.step
      (all_only_true _) (fun _ _ _ _ he heff => filed_mono he heff.prefix) (fun _ _ _ => trivial) he₁)
  · exact wp_errorDelivered (fun _ => trivial) fun _ _ _ heff => hs₁.1.step heff trivial

lemma tickCallback_sourced (i : Nat) (hs : Sourced b p_Amx s) :
    (tickCallback i).wp M .main (fun _ _ => True) (fun _ => Sourced b p_Amx) s := by
  refine wp_tickCallback (fun _ => trivial) hs fun h x d ds _ _ _ => ?_
  refine wp_mono (wp_execAll (confined_univ M) (I := fun _ => Sourced b p_Amx)
    (fun _ a s₁ s₂ _ hs₁ heff => hs₁.step heff (by exact id)) (fun _ _ _ _ h => h)
    (fun _ n s₁ _ hs₁ => native_sourced n hs₁) hs) fun _ s₁ hs₁ => ?_
  exact wp_callbackDelivered (fun _ => trivial) (fun _ _ _ _ => trivial)
    fun _ _ _ _ heff₁ heff₂ => (hs₁.step heff₁ trivial).step heff₂ trivial

lemma tickVisit_sourced (i : Nat) (hs : Sourced b p_Amx s) :
    (tickVisit i).wp M .main (fun _ _ => True) (fun _ => Sourced b p_Amx) s := by
  rw [tickVisit, wp_bind]
  exact wp_mono (tickError_sourced i hs) fun _ s₁ hs₁ => tickCallback_sourced i hs₁

/-- Between the actions, a query that has been put into a queue has been accepted. -/
lemma accepted_of_push {h : HandlerPtr} {q : MainInfo} (hs : Runs b Set.univ (State.init p_Amx) s)
    (hpush : .assign .main h (.queueData_push q) ∈ s.trace) : Accepted h q s.trace :=
  (serial_answers (D := ∅) step_of_allowing (confined_univ _) (fun _ n _ hn => absurd hn (by simp))
    hs).call_of_push hpush

/-- What a rejection is, and what is filed for it. -/
lemma Rejects.filed {h : HandlerPtr} {q : MainInfo} {c : ConnPtr} {s' : State}
    (hrej : Rejects b h q c s s') : Files h (rejection q (s'.lib.conn c)) s s' := by
  obtain ⟨i, hi, hrun⟩ := hrej.visit
  obtain ⟨p, x, hp, hx, hanswered⟩ := ((wp_iff _ _ _).mp (workerVisit_frontAnswered i s)).1 _ _ hrun
  obtain rfl : h = p := Option.some.inj (hi.symm.trans hp)
  obtain ⟨x', hx', hq⟩ := hrej.front
  obtain rfl := Option.some.inj (hx.symm.trans hx')
  have hmem {y : CMySQLHandler} {filed : List ErrorInfo} {rejected : List (CString × ConnPtr)}
      (hs' : Reporting h s s' x y filed rejected) : (q.m_szQuery, c) ∈ rejected := by
    obtain ⟨es, htrace, rfl⟩ := hs'.trace
    have hleave := hrej.rejected
    rw [State.since, htrace, List.drop_left] at hleave
    exact List.mem_filterMap.mpr ⟨_, hleave, by simp [Event.rejected]⟩
  rcases hanswered with ⟨y, hs'⟩ | ⟨y, q', d, hq', hs'⟩
  · cases hmem hs'
  · obtain rfl : q = q' := Option.some.inj (hq.symm.trans hq')
    obtain rfl : c = d := (Prod.mk.inj (List.mem_singleton.mp (hmem hs'))).2
    exact ⟨x, y, hx, hs'.after, hs'.errors⟩

/-- A visit of the worker files the reports of rejections only. -/
lemma workerVisit_sourced {i : Nat} {s' : State} (hs₀ : Runs b Set.univ (State.init p_Amx) s)
    (hrun : Run (plugin b) .worker (workerVisit i) s (.ok ()) s') (hs : Sourced b p_Amx s) :
    Sourced b p_Amx s' := by
  obtain ⟨h, x, hi, hx, hanswered⟩ := ((wp_iff _ _ _).mp (workerVisit_frontAnswered i s)).1 _ _ hrun
  have hvisit : (workerVisit i).wp (plugin b) .worker (fun _ _ => True)
      (fun _ s₁ => Queued s₁ ∧ CalledForFiled b p_Amx s₁ ∧ s.trace <+: s₁.trace) s := by
    refine wp_of_only IsPlugin.step (workerVisit_ofVisit .worker i) (fun e s₁ s₂ he hs₁ heff => ?_)
      (fun _ _ _ => trivial) ⟨hs.queued, hs.called, List.prefix_rfl⟩
    refine ⟨hs₁.1.step heff ?_, hs₁.2.1.step heff ?_, hs₁.2.2.trans heff.prefix⟩
    · rintro p q rfl
      exact he.elim
    · cases e <;> first | exact he.elim | trivial
  obtain ⟨hqueued, hcalled, htrace⟩ := ((wp_iff _ _ _).mp hvisit).1 _ _ hrun
  refine ⟨hqueued, fun p y' e hy' he => ?_, hcalled⟩
  have hold {y : CMySQLHandler} {filed : List ErrorInfo} {rejected : List (CString × ConnPtr)}
      (hs' : Reporting h s s' x y filed rejected) (hne : p = h → e ∈ x.errorCallback) :
      FiledByWorker b p_Amx e s'.trace ∨ FiledByOldQuery e s'.trace := by
    refine filed_mono ?_ htrace
    by_cases hp : p = h
    · exact hs.filed h x e hx (hne hp)
    · exact hs.filed p y' e ((hs'.others p hp).symm.trans hy') he
  have hobject {y : CMySQLHandler} {filed : List ErrorInfo} {rejected : List (CString × ConnPtr)}
      (hs' : Reporting h s s' x y filed rejected) (hp : p = h) : e ∈ x.errorCallback ++ filed := by
    subst hp
    obtain rfl := Option.some.inj (hy'.symm.trans hs'.after)
    rwa [← hs'.errors]
  rcases hanswered with ⟨y, hs'⟩ | ⟨y, q, c, hq, hs'⟩
  · exact hold hs' fun hp => by simpa using hobject hs' hp
  · by_cases he' : p = h ∧ e = rejection q (s'.lib.conn c)
    · obtain ⟨rfl, rfl⟩ := he'
      obtain ⟨es, hes, hrejected⟩ := hs'.trace
      have hpush := hs.queued p x q hx (List.mem_of_mem_head? hq)
      refine .inl ⟨p, q, c, s, s', hs₀, accepted_of_push hs₀ hpush, ⟨⟨i, hi, hrun⟩, ⟨x, hx, hq⟩, ?_⟩,
        ⟨x, y, hx, hs'.after, hs'.errors⟩, rfl, List.prefix_rfl⟩
      have hmem : (q.m_szQuery, c) ∈ es.filterMap (Event.rejected p) := by simp [hrejected]
      obtain ⟨ev, hev, heq⟩ := List.mem_filterMap.mp hmem
      rw [State.since, hes, List.drop_left]
      rwa [← rejected_eq_some.mp heq]
    · refine hold hs' fun hp => ?_
      rcases List.mem_append.mp (hobject hs' hp) with h' | h'
      · exact h'
      · exact absurd ⟨hp, List.mem_singleton.mp h'⟩ he'

lemma Files.unique {h : HandlerPtr} {e e' : ErrorInfo} {s' : State} (he : Files h e s s')
    (he' : Files h e' s s') : e = e' := by
  obtain ⟨x, y, hx, hy, herr⟩ := he
  obtain ⟨x', y', hx', hy', herr'⟩ := he'
  obtain rfl := Option.some.inj (hx.symm.trans hx')
  obtain rfl := Option.some.inj (hy.symm.trans hy')
  simpa using herr.symm.trans herr'

lemma runs_sourced (hs : Runs b Set.univ (State.init p_Amx) s) : Sourced b p_Amx s := by
  induction hs with
  | refl => exact ⟨fun _ _ _ hx => (by cases hx), fun _ _ _ hx => (by cases hx), fun es a p hcall =>
      (by simp [State.init] at hcall)⟩
  | tail hs₀ hact hrun ih =>
    have hserver {p : Code Unit} {s s' : State} (hp : p.All (Stmt.Only .main Event.NoReport))
        (hrun : Run (allowing b Set.univ) .main p s (.ok ()) s') (hs : Sourced b p_Amx s) :
        Sourced b p_Amx s' :=
      ((wp_iff _ _ _).mp (wp_of_only (E := fun _ _ => True) step_of_allowing hp
        (fun _ _ _ he hs heff => hs.step heff he) (fun _ _ _ => trivial) hs)).1 _ _ hrun
    obtain @⟨a, -⟩ := hact
    cases a with
    | native n => exact hserver (by exact (native_noReport n).bind fun _ => trivial) hrun ih
    | visit i => exact workerVisit_sourced hs₀ (hrun.mono step_of_allowing) ih
    | tick i =>
      exact ((wp_iff _ _ _).mp (tickVisit_sourced i ih)).1 _ _ hrun
    | amxLoad a => exact hserver (by simp [Action.code, Stmt.Only, Event.NoReport]) hrun ih
    | amxUnload a => exact hserver (by simp [Action.code, Stmt.Only, Event.NoReport]) hrun ih

end

/-- The call `p` is made in a run that has left the trace `es`, for the report of the query `q`, which
the server had rejected on a connection that was `x` then. -/
def CalledForRejection (b : Build) (p_Amx : List Amx) (es : List Event) (i : Nat) (q : MainInfo)
    (x : Connection) (p : Public) : Prop :=
  ∃ h c s₁ s₂ e, Runs b Set.univ (State.init p_Amx) s₁ ∧ Accepted h q s₁.trace ∧
    Rejects b h q c s₁ s₂ ∧ x = s₂.lib.conn c ∧ Files h e s₁ s₂ ∧ s₂.trace <+: es ∧
    p = onQueryError i e

/-- Every query that the server rejects has been accepted, and it is reported. The calls of
`OnQueryError` are made for these reports and the ones of `OldQuery`; for a rejected query they pass
everything but its extra id. -/
theorem rejection_passed (b : Build) (p_Amx : List Amx) {s : State}
    (hs : Runs b Set.univ (State.init p_Amx) s) :
    (∀ h q c s', Rejects b h q c s s' → Accepted h q s.trace ∧ ∃ e, Files h e s s') ∧
    ∀ es a p, es ++ [.exec a p] <+: s.trace → p.IsOnQueryError →
      ((∃ i q x, CalledForRejection b p_Amx es i q x p) ∨
        ∃ i e, p = onQueryError i e ∧ FiledByOldQuery e es) ∧
      ∀ i q x, CalledForRejection b p_Amx es i q x p →
        p ≠ fullReport i q x ∧ p = onQueryError i (rejection q x) := by
  have hsourced := runs_sourced hs
  refine ⟨fun h q c s' hrej => ⟨?_, _, hrej.filed⟩, fun es a p hcall hp => ⟨?_, fun i q x hfor => ?_⟩⟩
  · obtain ⟨x, hx, hq⟩ := hrej.front
    exact accepted_of_push hs (hsourced.queued h x q hx (List.mem_of_mem_head? hq))
  · obtain ⟨i, e, hpe, hfiled⟩ := hsourced.called es a p hcall hp
    rcases hfiled with ⟨h, q, c, s₁, s₂, hs₁, hq, hrej, hfiles, -, hpre⟩ | hfiled
    · exact .inl ⟨i, q, _, h, c, s₁, s₂, e, hs₁, hq, hrej, rfl, hfiles, hpre, hpe⟩
    · exact .inr ⟨i, e, hpe, hfiled⟩
  · obtain ⟨h, c, s₁, s₂, e, -, -, hrej, rfl, hfiles, -, rfl⟩ := hfor
    obtain rfl := hfiles.unique hrej.filed
    exact ⟨onQueryError_ne_fullReport i i q _, rfl⟩

/-- The server has a syntax error for every query. -/
def syntaxError : ∀ {β : Type}, Stmt β → State → Reply
  | _, .leave _ _ (.mysql_real_query _), _ => { ok := false, code := 1064, text := some ['e'] }
  | _, _, _ => {}

/-- A query with the result id 7 and the extra id 3. -/
def extraQuery : MainInfo where
  m_szQuery := ['q']
  m_uiResult := 7
  m_uiExtra := 3
  m_szCallback := OnQueryFinish

/-- The states after the query has been accepted, after the visit that executes it, and after the
tick that reports it. -/
def reportExtraQuery : Option (State × State × State) :=
  (play (allowing .win32 Set.univ) syntaxError
    [.native (.mysql_connect [] [] [] [] 0), .native (.mysql_query ['q'] 7 3 1)]
    (State.init [listener])).bind fun s₁ =>
      ((workerVisit 0).eval (allowing .win32 Set.univ) .worker syntaxError s₁).bind fun r =>
        (play (allowing .win32 Set.univ) syntaxError [.tick 0] r.2).map fun s => (s₁, r.2, s)

/-- The script is told everything but the extra id. -/
lemma reportExtraQuery_called : ∃ s₁ s₂ s, reportExtraQuery = some (s₁, s₂, s) ∧
    Runs .win32 Set.univ (State.init [listener]) s ∧
    s₂.trace ++ [.exec listener (onQueryError 0 (rejection extraQuery (s₂.lib.conn 0)))] <+: s.trace ∧
    CalledForRejection .win32 [listener] s₂.trace 0 extraQuery (s₂.lib.conn 0)
      (onQueryError 0 (rejection extraQuery (s₂.lib.conn 0))) := by
  have hrun : reportExtraQuery.map (fun r => (r.1.SQLHandle[0]?,
      (r.1.heap 0).bind (·.queueData.head?),
      decide (.assign .main 0 (.queueData_push extraQuery) ∈ r.1.trace),
      decide (.leave .worker 0 (.mysql_real_query ['q']) 0 false ∈ r.1.since r.2.1),
      decide (r.2.1.trace ++ [.exec listener (onQueryError 0 (rejection extraQuery
        (r.2.1.lib.conn 0)))] <+: r.2.2.trace)))
      = some (some 0, some extraQuery, true, true, true) := by decide
  obtain ⟨⟨s₁, s₂, s⟩, hs, heval⟩ := Option.map_eq_some_iff.mp hrun
  simp only [Prod.mk.injEq, decide_eq_true_eq] at heval
  obtain ⟨hi, hfront, haccepted, hleave, hcall⟩ := heval
  obtain ⟨x, hx, hq⟩ := Option.bind_eq_some_iff.mp hfront
  have hsplit := hs
  obtain ⟨s₁', hplay, hsplit⟩ := Option.bind_eq_some_iff.mp hsplit
  obtain ⟨r, hvisit, hsplit⟩ := Option.bind_eq_some_iff.mp hsplit
  obtain ⟨s', htick, hsplit⟩ := Option.map_eq_some_iff.mp hsplit
  simp only [Prod.mk.injEq] at hsplit
  obtain ⟨rfl, rfl, rfl⟩ := hsplit
  have henv : ∀ {β : Type} (a : Stmt β) s,
      (allowing .win32 Set.univ).admits .worker a (syntaxError a s) s := by
    intro β a s
    refine ⟨trivial, ?_⟩
    cases a <;> simp [Stmt.Calls]
  have hruns₁ := runs_of_play_univ hplay
  have hrun₂ := run_of_eval henv _ hvisit
  have hruns₂ : Runs .win32 Set.univ (State.init [listener]) r.2 :=
    hruns₁.tail (.act (a := .visit 0) fun _ _ => Set.mem_univ _) hrun₂
  have hrej : Rejects .win32 0 extraQuery 0 s₁' r.2 :=
    ⟨⟨0, hi, hrun₂.mono step_of_allowing⟩, ⟨x, hx, hq⟩, hleave⟩
  exact ⟨_, _, _, hs, hruns₂.trans (runs_of_play_univ htick), hcall,
    0, 0, s₁', r.2, _, hruns₁, accepted_of_push hruns₁ haccepted, hrej, rfl, hrej.filed,
    List.prefix_rfl, rfl⟩

theorem rejection_passed_extraQuery :
    ∃ s₁ s₂ s, reportExtraQuery = some (s₁, s₂, s) ∧
      onQueryError 0 (rejection extraQuery (s₂.lib.conn 0)) ≠ fullReport 0 extraQuery (s₂.lib.conn 0) := by
  obtain ⟨s₁, s₂, s, heval, hs, hcall, hfor⟩ := reportExtraQuery_called
  exact ⟨s₁, s₂, s, heval, (((rejection_passed .win32 [listener] hs).2 _ _ _ hcall trivial).2 0 _ _ hfor).1⟩

/-- The report of `q` does not carry its extra id. -/
theorem extra_not_passed :
    ¬ ∀ (b : Build) (p_Amx : List Amx) (s : State), Runs b Set.univ (State.init p_Amx) s →
      ∀ es a p, es ++ [.exec a p] <+: s.trace → p.IsOnQueryError →
        ∀ i q x, CalledForRejection b p_Amx es i q x p → p = fullReport i q x := by
  intro hall
  obtain ⟨s₁, s₂, s, -, hs, hcall, hfor⟩ := reportExtraQuery_called
  exact onQueryError_ne_fullReport _ _ _ _ (hall .win32 [listener] s hs _ _ _ hcall trivial 0 _ _ hfor)

end MySQLPlugin

import MySQLPlugin.Connections.Holders
import MySQLPlugin.Interplay.Schedule

/-!
# Two threads on one connection

`OldQuery` sets `m_bNonThreadedQuery` of a handler before it executes a query, and the guard of the
worker tests the flag. The worker is kept away from the connection of a query that `OldQuery`
executes, unless it has passed the guard before the flag is set.
-/

namespace MySQLPlugin

open Threads Prog CMySQLHandler

/-! ### Where the threads are -/

/-- A call of libmysql in progress: the handler, the function and the connection. -/
abbrev Call : Type := HandlerPtr × LibCall × ConnPtr

/-- The call that thread `t` is inside after the event. -/
def Event.onCall (t : ThreadId) : Event → Option Call → Option Call
  | .enter u h f (some c), x => if u = t then some (h, f, c) else x
  | .leave u _ _ _ _, x => if u = t then none else x
  | _, x => x

/-- The call that thread `t` is inside. -/
def callOf (t : ThreadId) (es : List Event) : Option Call := es.foldl (fun x e => e.onCall t x) none

/-- The last call of a visit: the query at the front, or the new connection. -/
def LibCall.Final : LibCall → Bool
  | .mysql_real_query _ | .mysql_real_connect _ _ _ _ _ => true
  | _ => false

def Event.onVisit : Event → Option HandlerPtr → Option HandlerPtr
  | .visit h, _ => some h
  | .mark (.visitEnd _), _ => none
  | .leave .worker _ f _ _, x => if f.Final then none else x
  | _, x => x

/-- The handler that the worker visits, up to the last call of the visit. -/
def visited (es : List Event) : Option HandlerPtr := es.foldl (fun x e => e.onVisit x) none

section

variable {t : ThreadId} {es : List Event} {e : Event}

lemma callOf_concat : callOf t (es ++ [e]) = e.onCall t (callOf t es) := by
  simp [callOf]

lemma visited_concat : visited (es ++ [e]) = e.onVisit (visited es) := by
  simp [visited]

/-- A call is a matter of its own thread. -/
lemma callOf_other {u : ThreadId} (he : e.By u) (hu : u ≠ t) : callOf t (es ++ [e]) = callOf t es := by
  rw [callOf_concat]
  cases e with
  | enter v h f c =>
    obtain rfl : v = u := he
    cases c <;> simp [Event.onCall, hu]
  | leave v h f c ok =>
    obtain rfl : v = u := he
    simp [Event.onCall, hu]
  | _ => rfl

/-- The main thread takes no part in the visits. -/
lemma visited_main (he : e.By .main) (hvisit : ∀ h, e ≠ .visit h) (hend : ∀ h, e ≠ .mark (.visitEnd h)) :
    visited (es ++ [e]) = visited es := by
  rw [visited_concat]
  cases e with
  | visit h => exact absurd rfl (hvisit h)
  | mark m => cases m <;> first | exact absurd rfl (hend _) | rfl
  | leave v h f c ok =>
    obtain rfl : v = .main := he
    rfl
  | _ => rfl

end

/-! ### The flag as a reservation -/

/-- The flag of `h` is set, and the worker is not past the guard of `h`. -/
def Reserved (h : HandlerPtr) (s : State) : Prop :=
  (∀ x, s.heap h = some x → x.m_bNonThreadedQuery = true) ∧ visited s.trace ≠ some h

/-- The connection `c` has been handed out to the handler `h`. -/
def Given (h : HandlerPtr) (c : ConnPtr) (s : State) : Prop := ∃ t, .init t h (some c) ∈ s.trace

/-- `OldQuery` executes queries on reserved handlers, and the worker calls libmysql for the handler
that it visits. -/
structure Apart (s : State) : Prop where
  main : ∀ h q c, callOf .main s.trace = some (h, .mysql_real_query q, c) → Reserved h s ∧ Given h c s
  worker : ∀ h f c, callOf .worker s.trace = some (h, f, c) → visited s.trace = some h ∧ Given h c s

/-- The threads are on different connections. -/
lemma Apart.ne {s : State} (hs : Apart s) (hissued : Issued s) {h p : HandlerPtr} {q : CString}
    {f : LibCall} {c d : ConnPtr} (hmain : callOf .main s.trace = some (h, .mysql_real_query q, c))
    (hworker : callOf .worker s.trace = some (p, f, d)) : c ≠ d := by
  rintro rfl
  obtain ⟨⟨-, hvisit⟩, t, ht⟩ := hs.main h q c hmain
  obtain ⟨hvisited, u, hu⟩ := hs.worker p f c hworker
  obtain rfl : h = p := (hissued.unique t h u p c ht hu).2
  exact hvisit hvisited

/-- The main thread is in no call in which it executes a query. -/
def Out (s : State) : Prop := ∀ h q c, callOf .main s.trace ≠ some (h, .mysql_real_query q, c)

/-- The worker is in no call, and on this visit. -/
def Visits (v : Option HandlerPtr) (s : State) : Prop :=
  callOf .worker s.trace = none ∧ visited s.trace = v

/-- The main thread relies on its own calls and on its reservations, the worker on its own calls and
on its visits. -/
def callRely : ThreadId → Set (State → Prop)
  | .main => {f | f = Apart ∨ (∃ R : Option Call → Prop, f = fun s => R (callOf .main s.trace)) ∨
      ∃ h, f = Reserved h}
  | .worker => {f | f = Apart ∨ ∃ R : Option Call → Option HandlerPtr → Prop,
      f = fun s => R (callOf .worker s.trace) (visited s.trace)}

lemma stable_out : Stable (callRely .main) Out :=
  .of_mem (.inr (.inl ⟨fun x => ∀ h q c, x ≠ some (h, .mysql_real_query q, c), rfl⟩))

lemma stable_reserved (h : HandlerPtr) : Stable (callRely .main) fun s => Out s ∧ Reserved h s :=
  stable_out.and (.of_mem (.inr (.inr ⟨h, rfl⟩)))

lemma stable_visits (v : Option HandlerPtr) : Stable (callRely .worker) (Visits v) :=
  .of_mem (.inr ⟨fun x w => x = none ∧ w = v, rfl⟩)

section

variable {s s' : State} {e : Event} {h : HandlerPtr} {c : ConnPtr} {v : Option HandlerPtr}

lemma Given.mono {t : ThreadId} (hs : Given h c s) (heff : Effect t e s s') : Given h c s' := by
  obtain ⟨u, hu⟩ := hs
  exact ⟨u, heff.prefix.subset hu⟩

/-- A call begins on a connection of its handler. -/
lemma Effect.given {t : ThreadId} {f : LibCall} (heff : Effect t (.enter t h f (some c)) s s')
    (hissued : Issued s) : Given h c s' := by
  obtain ⟨x, hx, hptr⟩ := heff.occurs
  have hconn : s.connection h = some c := by rw [State.connection, hx, Option.bind_some, hptr]
  obtain ⟨u, hu⟩ := hissued.holder h c hconn
  exact ⟨u, heff.prefix.subset hu⟩

/-! ### What the main thread guarantees -/

lemma main_apart (heff : Effect .main e s s') (hvisit : ∀ h, e ≠ .visit h)
    (hend : ∀ h, e ≠ .mark (.visitEnd h))
    (hmain : ∀ h q c, callOf .main s'.trace = some (h, .mysql_real_query q, c) →
      Reserved h s' ∧ Given h c s') : Guarantees callRely .main s s' := by
  have hcall : callOf .worker s'.trace = callOf .worker s.trace := by
    rw [heff.trace]
    exact callOf_other heff.by_ (by simp)
  have hvisited : visited s'.trace = visited s.trace := by
    rw [heff.trace]
    exact visited_main heff.by_ hvisit hend
  intro u hu f hf hfs
  cases u with
  | main => exact absurd rfl hu
  | worker =>
    rcases hf with rfl | ⟨R, rfl⟩
    · refine ⟨hmain, fun h f c hc => ?_⟩
      rw [hcall] at hc
      rw [hvisited]
      obtain ⟨hv, hgiven⟩ := Apart.worker hfs h f c hc
      exact ⟨hv, hgiven.mono heff⟩
    · show R (callOf .worker s'.trace) (visited s'.trace)
      rw [hcall, hvisited]
      exact hfs

/-- The event visits no handler and begins no execution of a query. -/
def Event.Aloof : Event → Prop
  | .visit _ | .mark (.visitEnd _) | .enter _ _ (.mysql_real_query _) _ => False
  | _ => True

lemma Out.aloof {t : ThreadId} (hs : Out s) (heff : Effect t e s s') (he : e.Aloof) : Out s' := by
  intro h q c hc
  rw [heff.trace, callOf_concat] at hc
  cases e with
  | enter u p f d =>
    cases d with
    | none => exact hs h q c hc
    | some d =>
      simp only [Event.onCall] at hc
      split_ifs at hc
      · cases hc
        exact he
      · exact hs h q c hc
  | leave u p f d ok =>
    simp only [Event.onCall] at hc
    split_ifs at hc
    exact hs h q c hc
  | _ => exact hs h q c hc

lemma Out.kept (hs : Out s) (heff : Effect .main e s s') (he : e.Aloof) :
    Guarantees callRely .main s s' ∧ Out s' := by
  have hs' := hs.aloof heff he
  refine ⟨main_apart heff ?_ ?_ fun h q c hc => absurd hc (hs' h q c), hs'⟩
  · rintro h rfl
    exact he
  · rintro h rfl
    exact he

/-! ### What the worker guarantees -/

/-- The events of the worker between two calls. -/
def Event.Still : Event → Prop
  | .lock _ | .relock _ | .unlock _ => True
  | .visit _ | .mark (.visitEnd _) | .enter _ _ _ _ | .leave _ _ _ _ _ => False
  | e => e.OfVisit

/-- The events of the worker. -/
def Event.OfSweep : Event → Prop
  | .lock _ | .relock _ | .unlock _ => True
  | e => e.OfVisit

/-- The worker leaves reserved handlers alone. -/
lemma Reserved.kept (hs : Reserved h s) (heff : Effect .worker e s s') (he : e.OfSweep) :
    Reserved h s' := by
  constructor
  · intro x' hx'
    rw [heff.heap h] at hx'
    cases e with
    | assign u p a =>
      simp only [Event.onObject] at hx'
      split_ifs at hx' with hp
      · obtain ⟨x, hx, rfl⟩ := Option.map_eq_some_iff.mp hx'
        cases a <;> first | exact hs.1 x hx | exact he.elim
      · exact hs.1 x' hx'
    | new => exact he.elim
    | delete => exact he.elim
    | _ => exact hs.1 x' hx'
  · rw [heff.trace, visited_concat]
    cases e with
    | visit p =>
      rintro heq
      obtain rfl : p = h := Option.some.inj heq
      obtain ⟨x, hx, hready⟩ := heff.occurs
      simp [CMySQLHandler.ready, hs.1 x hx] at hready
    | mark m => cases m <;> first | exact hs.2 | simp [Event.onVisit]
    | leave u p f d ok =>
      cases u with
      | main => exact hs.2
      | worker =>
        simp only [Event.onVisit]
        split_ifs
        · simp
        · exact hs.2
    | _ => exact hs.2

lemma worker_apart (heff : Effect .worker e s s') (he : e.OfSweep)
    (hworker : ∀ h f c, callOf .worker s'.trace = some (h, f, c) →
      visited s'.trace = some h ∧ Given h c s') : Guarantees callRely .worker s s' := by
  have hcall : callOf .main s'.trace = callOf .main s.trace := by
    rw [heff.trace]
    exact callOf_other heff.by_ (by simp)
  intro u hu f hf hfs
  cases u with
  | worker => exact absurd rfl hu
  | main =>
    rcases hf with rfl | ⟨R, rfl⟩ | ⟨h, rfl⟩
    · refine ⟨fun h q c hc => ?_, hworker⟩
      rw [hcall] at hc
      obtain ⟨hres, hgiven⟩ := Apart.main hfs h q c hc
      exact ⟨hres.kept heff he, hgiven.mono heff⟩
    · show R (callOf .main s'.trace)
      rw [hcall]
      exact hfs
    · exact Reserved.kept hfs heff he

/-- The worker is in no call after the event. -/
lemma Visits.guarantees (heff : Effect .worker e s s') (he : e.OfSweep) (hs' : Visits v s') :
    Guarantees callRely .worker s s' :=
  worker_apart heff he fun h f c hc => by
    rw [hs'.1] at hc
    cases hc

lemma Visits.still (hs : Visits v s) (heff : Effect .worker e s s') (he : e.Still) :
    Guarantees callRely .worker s s' ∧ Visits v s' := by
  have hsweep : e.OfSweep := by
    cases e with
    | mark m => cases m <;> exact he.elim
    | enter => exact he.elim
    | leave => exact he.elim
    | visit => exact he.elim
    | _ => exact he
  have hs' : Visits v s' := by
    rw [Visits, heff.trace, callOf_concat, visited_concat]
    cases e with
    | enter => exact he.elim
    | leave => exact he.elim
    | visit => exact he.elim
    | mark m => cases m <;> first | exact hs | exact he.elim
    | _ => exact hs
  exact ⟨hs'.guarantees heff hsweep, hs'⟩

end

/-! ### The programs -/

/-- The handler whose flag the statement sets. -/
def Stmt.reserves {β : Type} : Stmt β → Option HandlerPtr
  | .assign h (.m_bNonThreadedQuery true) => some h
  | _ => none

/-- The flag of a handler is not set while the worker is on a visit of it. -/
def Stmt.Deferred {β : Type} (a : Stmt β) (s : State) : Prop :=
  ∀ h ∈ a.reserves, visited s.trace ≠ some h

instance {β : Type} (a : Stmt β) (s : State) : Decidable (a.Deferred s) :=
  inferInstanceAs (Decidable (∀ h ∈ a.reserves, visited s.trace ≠ some h))

/-- The plugin, when `OldQuery` waits for the worker before it executes a query. -/
def deferring (b : Build) : Machine Stmt Fault State ThreadId Reply :=
  (plugin b).restrict fun _ a _ s => a.Deferred s

/-- The same, when every connection object belongs to one handler. -/
abbrev deferringIssued (b : Build) : Machine Stmt Fault State ThreadId Reply :=
  (deferring b).restrict fun _ _ _ s => Issued s

section

variable {b : Build} {t : ThreadId} {α β : Type} {s s' : State} {h : HandlerPtr}

lemma step_of_deferring {a : Stmt β} {o : Except Fault β}
    (hst : (deferringIssued b).Step t a s o s') :
    (plugin b).Step t a s o s' ∧ a.Deferred s ∧ Issued s := by
  obtain ⟨r, ⟨⟨-, hdef⟩, hissued⟩, hrun⟩ := hst
  exact ⟨⟨r, trivial, hrun⟩, hdef, hissued⟩

/-- A statement of a thread, with what the machine promises when it is executed. -/
lemma relies_deferring {P : Event → Prop} {A : State → Prop} {Q : α → State → Prop} {a : Stmt β}
    {f : β → Code α} (ha : a.Only t P) (hA : Stable (callRely t) A) (hs : A s)
    (hg : ∀ e s₁ s₂, P e → A s₁ → a.Deferred s₁ ∧ Issued s₁ → Effect t e s₁ s₂ →
      Guarantees callRely t s₁ s₂)
    (hok : ∀ x s₁ s₂, A s₁ → a.Deferred s₁ ∧ Issued s₁ → (deferringIssued b).Step t a s₁ (.ok x) s₂ →
      (f x).Relies (deferringIssued b) callRely t Q s₂) :
    (Prog.lift a >>= f).Relies (deferringIssued b) callRely t Q s :=
  relies_stmt_within (fun hst => (step_of_deferring hst).1) (fun hst => (step_of_deferring hst).2) ha
    hA hs hg hok

lemma relies_aloof {p : Code α} (hp : p.All (Stmt.Only .main Event.Aloof)) (hs : Out s) :
    p.Relies (deferringIssued b) callRely .main (fun _ => Out) s :=
  relies_of_only (fun hst => (step_of_deferring hst).1) hp stable_out
    (fun _ _ _ he hs heff => hs.kept heff he) hs

attribute [local simp] Stmt.Only Event.Aloof this load call access assign onResult
  lockMutex unlockMutex bind_bind ite_bind all_lift_bind all_ite

/-- A query is executed on a reserved handler. -/
lemma execute_calls {q : CString} (hs : Out s ∧ Reserved h s) :
    (call h (.mysql_real_query q)).Relies (deferringIssued b) callRely .main (fun _ => Out) s := by
  refine relies_deferring (P := fun e => ∃ c, e = .enter .main h (.mysql_real_query q) c)
    (fun c => ⟨c, rfl⟩) (stable_reserved h) hs (fun e s₁ s₂ he hs₁ hissued heff => ?_)
    fun c s₁ s₂ _ _ _ => ?_
  · obtain ⟨c, rfl⟩ := he
    refine main_apart heff (by simp) (by simp) fun h' q' c' hc => ?_
    rw [heff.trace, callOf_concat] at hc
    cases c with
    | none => exact absurd hc (hs₁.1 h' q' c')
    | some c =>
      cases hc
      refine ⟨⟨fun x hx => hs₁.2.1 x ?_, ?_⟩, heff.given hissued.2⟩
      · rwa [heff.heap h] at hx
      · rw [heff.trace, visited_main heff.by_ (by simp) (by simp)]
        exact hs₁.2.2
  · -- whatever the state is when the call ends, it is over then
    have hleave : ∀ e s₁ s₂, (∃ ok, e = .leave .main h (.mysql_real_query q) c ok) →
        Effect .main e s₁ s₂ → Out s₂ := by
      rintro e s₁ s₂ ⟨ok, rfl⟩ heff h' q' c' hc
      rw [heff.trace, callOf_concat] at hc
      cases hc
    rw [← bind_ret_right (Prog.lift _)]
    refine relies_deferring (P := fun e => ∃ ok, e = .leave .main h (.mysql_real_query q) c ok)
      (fun ok => ⟨ok, rfl⟩) (.const True) trivial (fun e s₁ s₂ he _ _ heff => ?_)
      fun ok s₁ s₂ _ _ hst => relies_ret stable_out
        (hleave _ s₁ s₂ ⟨ok, rfl⟩ (step_leave_query (step_of_deferring hst).1))
    have hout := hleave e s₁ s₂ he heff
    obtain ⟨ok, rfl⟩ := he
    exact main_apart heff (by simp) (by simp) fun h q c hc => absurd hc (hout h q c)

lemma nonThreadedQuery_calls {q : CString} (hs : Out s) :
    (nonThreadedQuery h q).Relies (deferringIssued b) callRely .main (fun _ => Out) s := by
  refine relies_deferring (P := (· = .assign .main h (.m_bNonThreadedQuery true))) rfl stable_out hs
    (fun e s₁ s₂ he hs₁ _ heff => ?_) fun _ s₁ s₂ hs₁ hdef hst => ?_
  · subst he
    exact (hs₁.kept heff trivial).1
  · have heff := step_assign (step_of_deferring hst).1
    have hres : Reserved h s₂ := by
      constructor
      · intro x hx
        obtain ⟨y, -, hy⟩ := heff.assigned
        rw [hy] at hx
        cases hx
        rfl
      · rw [heff.trace, visited_main heff.by_ (by simp) (by simp)]
        exact hdef.1 h rfl
    refine .bind ((execute_calls ⟨hs₁.aloof heff trivial, hres⟩).mono fun ok s hs => ?_)
    exact relies_aloof (by simp) hs

lemma oldQuery_calls {q : CString} {resultID extraID : Cell} (hs : Out s) :
    (oldQuery h q resultID extraID).Relies (deferringIssued b) callRely .main (fun _ => Out) s := by
  refine .bind ((relies_aloof (p := this h) (by simp) hs).mono fun x s hs => ?_)
  split_ifs
  · exact relies_ret stable_out hs
  · exact relies_aloof (by simp [enqueue]) hs
  · exact nonThreadedQuery_calls hs

lemma Event.NoQuery.aloof {e : Event} (he : e.NoQuery) : e.Aloof := by
  cases e with
  | enter u h f c => cases f <;> exact he
  | mark m => exact he.elim
  | visit h => exact he.elim
  | _ => trivial

lemma native_calls (n : NativeCall) (hs : Out s) :
    (native n).Relies (deferringIssued b) callRely .main (fun _ => Out) s := by
  refine .bind ((relies_aloof (p := .lift (.mark (.call n))) (by simp) hs).mono fun _ s hs => ?_)
  refine .bind (Relies.mono (Q := fun _ => Out) ?_ fun r s hs => relies_aloof (by simp) hs)
  cases hn : n.query with
  | none =>
    exact relies_aloof (all_only_mono (body_noQuery .main hn) fun _ => Event.NoQuery.aloof) hs
  | some q =>
    cases n with
    | mysql_query q resultid extraid c =>
      refine .bind ((relies_aloof (p := .lift .size) (by simp) hs).mono fun k s hs => ?_)
      split_ifs
      · exact relies_ret stable_out hs
      · refine .bind ((relies_aloof (p := .lift (.at _)) (by simp) hs).mono fun h s hs => ?_)
        refine .bind ((relies_aloof (p := .lift (.mark (.oldQuery h))) (by simp) hs).mono
          fun _ s hs => ?_)
        exact .bind ((oldQuery_calls hs).mono fun r s hs => relies_aloof (by simp) hs)
    | mysql_query_callback =>
      exact relies_aloof (by simp [Natives.body, Natives.nMysqlQueryCallback, CMySQLHandler.query,
        enqueue, withHandle]) hs
    | _ => cases hn

/-! ### The worker -/

lemma relies_still {v : Option HandlerPtr} {p : Code α} (hp : p.All (Stmt.Only .worker Event.Still))
    (hs : Visits v s) :
    p.Relies (deferringIssued b) callRely .worker (fun _ => Visits v) s :=
  relies_of_only (fun hst => (step_of_deferring hst).1) hp (stable_visits v)
    (fun _ _ _ he hs heff => hs.still heff he) hs

lemma stable_visited (h : HandlerPtr) :
    Stable (callRely .worker) fun s => visited s.trace = some h :=
  .of_mem (.inr ⟨fun _ w => w = some h, rfl⟩)

/-- The worker calls libmysql for the handler that it visits. -/
lemma visit_calls {f : LibCall} (hf : f.Open) (hs : Visits (some h) s) :
    (call h f).Relies (deferringIssued b) callRely .worker
      (fun _ => Visits (if f.Final then none else some h)) s := by
  have hstay {c : Option ConnPtr} {s₁ s₂ : State} (hs₁ : Visits (some h) s₁)
      (heff : Effect .worker (.enter .worker h f c) s₁ s₂) : visited s₂.trace = some h := by
    rw [heff.trace, visited_concat]
    exact hs₁.2
  refine relies_deferring (P := fun e => ∃ c, e = .enter .worker h f c) (fun c => ⟨c, rfl⟩)
    (stable_visits _) hs (fun e s₁ s₂ he hs₁ hissued heff => ?_) fun c s₁ s₂ hs₁ _ hst => ?_
  · obtain ⟨c, rfl⟩ := he
    refine worker_apart heff hf fun h' f' c' hc => ?_
    rw [heff.trace, callOf_concat] at hc
    cases c with
    | none => exact absurd (hs₁.1.symm.trans hc) (by simp)
    | some c =>
      cases hc
      exact ⟨hstay hs₁ heff, heff.given hissued.2⟩
  · rw [← bind_ret_right (Prog.lift _)]
    refine relies_records (P := fun e => ∃ ok, e = .leave .worker h f c ok)
      (fun hst => (step_of_deferring hst).1) trivial (fun ok => ⟨ok, rfl⟩) (stable_visited h)
      (hstay hs₁ (step_enter (step_of_deferring hst).1)) fun e s₁ s₂ he hs₁ heff => ?_
    obtain ⟨ok, rfl⟩ := he
    have hs₂ : Visits (if f.Final then none else some h) s₂ := by
      rw [Visits, heff.trace, callOf_concat, visited_concat, ← hs₁]
      exact ⟨rfl, rfl⟩
    exact ⟨hs₂.guarantees heff hf, fun x => relies_ret (stable_visits _) hs₂⟩

attribute [local simp] Event.Still Event.OfVisit Assign.OfVisit

/-- Between two visits the worker is in no call. -/
def Away (s : State) : Prop := ∃ v, Visits v s

lemma stable_away : Stable (callRely .worker) Away :=
  .of_mem (.inr ⟨fun x w => ∃ v, x = none ∧ w = v, rfl⟩)

lemma relies_away {p : Code α} (hp : p.All (Stmt.Only .worker Event.Still)) (hs : Away s) :
    p.Relies (deferringIssued b) callRely .worker (fun _ => Away) s := by
  obtain ⟨v, hv⟩ := hs
  exact (relies_still hp hv).mono fun _ _ h => ⟨v, h⟩

lemma connect_visits (hs : Visits (some h) s) :
    (connect h).Relies (deferringIssued b) callRely .worker (fun _ => Away) s := by
  refine .bind ((relies_still (p := this h) (by simp) hs).mono fun x s hs => ?_)
  split_ifs
  · exact relies_away (by simp) ⟨_, hs⟩
  · refine .bind ((relies_still (p := .lift (.mysql_init h)) (by simp) hs).mono fun c s hs => ?_)
    refine .bind ((relies_still (p := assign h (.m_stConnectionPtr c)) (by simp) hs).mono
      fun _ s hs => ?_)
    refine .bind ((relies_still (p := this h) (by simp) hs).mono fun x s hs => ?_)
    refine .bind ((visit_calls (by trivial) hs).mono fun ok s hs => ?_)
    exact relies_away (by simp) ⟨_, hs⟩

lemma executeFront_visits (hs : Visits (some h) s) :
    (executeFront h).Relies (deferringIssued b) callRely .worker (fun _ => Away) s := by
  refine .bind ((relies_still (p := this h) (by simp) hs).mono fun x s hs => ?_)
  cases x.queueData with
  | nil => trivial
  | cons q qs =>
    simp only [front, pure_eq, bind_ret]
    refine .bind ((relies_still (p := assign h (.m_bQueryProcessing true)) (by simp) hs).mono
      fun _ s hs => ?_)
    refine .bind ((visit_calls (by trivial) hs).mono fun ok s hs => ?_)
    exact relies_away (by simp [queryFailed]) ⟨_, hs⟩

lemma reconnectInBackground_visits (hs : Visits (some h) s) :
    (reconnectInBackground h).Relies (deferringIssued b) callRely .worker (fun _ => Away) s := by
  refine .bind ((relies_still (p := assign h (.m_bIsConnected false)) (by simp) hs).mono
    fun _ s hs => ?_)
  refine .bind ((visit_calls (by trivial) hs).mono fun r s hs => ?_)
  refine .bind ((relies_still (p := assign h (.m_stResult r)) (by simp) hs).mono fun _ s hs => ?_)
  refine .bind (Relies.mono (Q := fun _ => Visits (some h)) ?_ fun _ s hs => ?_)
  · exact relies_still (by simp) hs
  · exact .bind ((connect_visits hs).mono fun _ s hs => relies_ret stable_away hs)

lemma workerVisit_visits (i : Nat) (hs : Away s) :
    (workerVisit i).Relies (deferringIssued b) callRely .worker (fun _ => Away) s := by
  have hM {t : ThreadId} {β : Type} {a : Stmt β} {s : State} {o : Except Fault β} {s' : State}
      (hst : (deferringIssued b).Step t a s o s') : (plugin b).Step t a s o s' :=
    (step_of_deferring hst).1
  refine .bind ((relies_away (p := .lift (.at i)) (by simp) hs).mono fun h s hs => ?_)
  refine relies_guard hM stable_away hs (fun x s₁ s₂ hs₁ hx hready heff => ?_)
    fun s hs => relies_ret stable_away hs
  obtain ⟨v, hcall, -⟩ := hs₁
  have hs₂ : Visits (some h) s₂ := by
    rw [Visits, heff.trace, callOf_concat, visited_concat]
    exact ⟨hcall, rfl⟩
  refine ⟨hs₂.guarantees heff trivial, ?_⟩
  rw [if_pos rfl]
  refine .bind ((visit_calls (by trivial) hs₂).mono fun ok s hs => .bind ?_)
  refine Relies.mono (Q := fun _ => Away) ?_ fun _ s hs => ?_
  · cases ok with
    | true => exact executeFront_visits hs
    | false => exact reconnectInBackground_visits hs
  · rw [← bind_ret_right (Prog.lift _)]
    refine relies_mark hM stable_away hs fun s₁ s₂ hs₁ heff => ?_
    obtain ⟨v, hcall, -⟩ := hs₁
    have hs₂ : Visits none s₂ := by
      rw [Visits, heff.trace, callOf_concat, visited_concat]
      exact ⟨hcall, rfl⟩
    exact ⟨hs₂.guarantees heff trivial, relies_ret stable_away ⟨_, hs₂⟩⟩

/-- The duties of the two threads for their calls of libmysql. -/
lemma call_duties (b : Build) :
    Duties (deferringIssued b) Set.univ callRely Out Out Away Away where
  stable_idle := stable_out
  stable_ticking := stable_out
  stable_asleep := stable_away
  stable_sweeping := stable_away
  native n s _ hs := native_calls n hs
  amx e s s' he hs heff := by
    obtain ⟨a, rfl | rfl⟩ := he <;> exact hs.kept heff trivial
  tick s s' hs heff := hs.kept heff trivial
  visit i s hs := relies_tickVisit (fun hst => (step_of_deferring hst).1) (confined_univ _) stable_out
    (fun _ _ _ _ hs heff => hs.kept heff trivial) (fun n s _ hs => native_calls n hs)
    (fun h a s s' ha hs heff => hs.kept heff trivial) hs
  tickEnd s s' hs heff := hs.kept heff trivial
  wake e s s' he hs heff := by
    obtain ⟨v, hv⟩ := hs
    rcases he with rfl | rfl
    · exact ⟨(hv.still heff trivial).1, v, (hv.still heff trivial).2⟩
    · exact ⟨(hv.still heff trivial).1, v, (hv.still heff trivial).2⟩
  sweep i s hs := workerVisit_visits i hs
  sleep s s' hs heff := by
    obtain ⟨v, hv⟩ := hs
    exact ⟨(hv.still heff trivial).1, v, (hv.still heff trivial).2⟩

end

/-! ### The threads on their connections -/

/-- The trace says where the threads are. -/
lemma inCall_of_reachable {M : Machine Stmt Fault State ThreadId Reply} {b : Build} {N : Set NativeCall}
    (hM : ∀ {t : ThreadId} {β : Type} {a : Stmt β} {s o s'}, M.Step t a s o s' →
      (plugin b).Step t a s o s') {p_Amx : List Amx} {c : Config Stmt Fault State ThreadId Point}
    (hc : Config.Reachable M (Starts (MainCall.Only N)) (loaded p_Amx) c) (t : ThreadId) :
    c.shared.inCall t = (callOf t c.shared.trace).map (·.2.2) := by
  refine reachable_keeps (I := fun s => s.inCall t = (callOf t s.trace).map (·.2.2)) hM ?_ rfl hc
  intro u e s s' hs heff
  rw [heff.inCall, heff.trace, callOf_concat]
  cases e with
  | enter v h f d =>
    cases d with
    | none => exact hs
    | some d =>
      simp only [Event.onInCall, Event.onCall]
      by_cases hv : v = t
      · simp [hv]
      · rw [Function.update_of_ne (Ne.symm hv), if_neg hv]
        exact hs
  | leave v h f d ok =>
    simp only [Event.onInCall, Event.onCall]
    by_cases hv : v = t
    · simp [hv]
    · rw [Function.update_of_ne (Ne.symm hv), if_neg hv]
      exact hs
  | _ => exact hs

/-- While `OldQuery` executes a query, the worker is not inside a call of libmysql on the same
connection: in every interleaving in which `OldQuery` sets its flag only when the worker is not past
the guard of that handler, on the way to the last call of its visit. -/
theorem executes_alone {b : Build} {p_Amx : List Amx} {c : Config Stmt Fault State ThreadId Point}
    (hc : Config.Reachable (deferring b) (Starts (MainCall.Only Set.univ)) (loaded p_Amx) c)
    {h : HandlerPtr} {q : CString} {d : ConnPtr}
    (hmain : callOf .main c.shared.trace = some (h, .mysql_real_query q, d)) :
    c.shared.inCall .main = some d ∧ c.shared.inCall .worker ≠ some d := by
  have hM {t : ThreadId} {β : Type} {a : Stmt β} {s : State} {o : Except Fault β} {s' : State}
      (hst : (deferring b).Step t a s o s') : (plugin b).Step t a s o s' := hst.of_restrict
  have hissued {c : Config Stmt Fault State ThreadId Point}
      (hc : Config.Reachable (deferring b) (Starts (MainCall.Only Set.univ)) (loaded p_Amx) c) :
      Issued c.shared := reachable_issued hM (confined_univ _) hc
  have hapart : Apart c.shared := by
    have hout : Out (State.init p_Amx) := fun h q c hc => by cases hc
    have haway : Away (State.init p_Amx) := ⟨none, rfl, rfl⟩
    have hinit : Apart (State.init p_Amx) :=
      ⟨fun h q c hc => absurd hc (hout h q c), fun h f c hc => by cases hc⟩
    exact (call_duties b).invariant (fun hst => (step_of_deferring hst).1) hout haway
      (fun t => by cases t <;> exact .inl rfl) hinit (hc.restrict fun _ => hissued)
  rw [inCall_of_reachable hM hc, inCall_of_reachable hM hc, hmain]
  refine ⟨rfl, fun hworker => ?_⟩
  obtain ⟨⟨p, f, d'⟩, hcall, rfl⟩ := Option.map_eq_some_iff.mp hworker
  exact hapart.ne (hissued hc) hmain hcall rfl

/-- A connection is opened, a threaded query is put into the queue, and the worker takes `n` steps
before a query is executed at once. -/
def executeAfter (n : Nat) : List Turn :=
  [.call (.native (.mysql_connect ['h'] ['u'] ['d'] ['p'] 3306)), .go .main 15 {},
    .call (.native (.mysql_query ['q'] 1 0 1)), .go .main 11 {}, .go .worker n {},
    .call (.native (.mysql_query ['r'] (-1) 0 1)), .go .main 7 {}]

lemma executeAfter_admitted (b : Build) (n : Nat) :
    ∀ turn ∈ executeAfter n, turn.Admitted (plugin b) Set.univ := by
  simp only [executeAfter, List.forall_mem_cons, Turn.Admitted]
  exact ⟨fun _ _ => trivial, fun _ _ => trivial, fun _ _ => trivial, fun _ _ => trivial,
    fun _ _ => trivial, fun _ _ => trivial, fun _ _ => trivial, by simp⟩

/-- The worker has woken up when the query is executed, and is not yet past the guard. -/
theorem executes_alone_four :
    ∃ c, Config.Reachable (deferring .pthread) (Starts (MainCall.Only Set.univ)) (loaded []) c ∧
      callOf .main c.shared.trace = some (0, .mysql_real_query ['r'], 0) ∧
      c.shared.inCall .main = some 0 ∧ c.shared.inCall .worker ≠ some 0 := by
  have hrun : (schedule ((plugin .pthread).checked fun _ a _ s => decide (a.Deferred s))
      (executeAfter 4) (loaded [])).map (fun c => callOf .main c.shared.trace)
      = some (some (0, .mysql_real_query ['r'], 0)) := by decide +kernel
  obtain ⟨c, hc, hmain⟩ := Option.map_eq_some_iff.mp hrun
  have hreach := reachable_of_checked (R := fun _ a _ s => a.Deferred s)
    (fun _ _ _ _ => of_decide_eq_true) (executeAfter_admitted .pthread 4) hc
  exact ⟨c, hreach, hmain, executes_alone hreach hmain⟩

/-- The worker is already past the guard: both threads are inside a call on the same connection. -/
theorem both_inside :
    ∃ c, Config.Reachable (plugin .pthread) (Starts (MainCall.Only Set.univ)) (loaded []) c ∧
      callOf .main c.shared.trace = some (0, .mysql_real_query ['r'], 0) ∧
      callOf .worker c.shared.trace = some (0, .mysql_ping, 0) ∧
      c.shared.inCall .main = some 0 ∧ c.shared.inCall .worker = some 0 := by
  have hrun : (schedule (plugin .pthread) (executeAfter 9) (loaded [])).map (fun c =>
      (callOf .main c.shared.trace, callOf .worker c.shared.trace))
      = some (some (0, .mysql_real_query ['r'], 0), some (0, .mysql_ping, 0)) := by decide +kernel
  obtain ⟨c, hc, h⟩ := Option.map_eq_some_iff.mp hrun
  obtain ⟨hmain, hworker⟩ := Prod.mk.inj h
  have hreach := reachable_of_schedule (executeAfter_admitted .pthread 9) .start hc
  refine ⟨c, hreach, hmain, hworker, ?_, ?_⟩
  · rw [inCall_of_reachable id hreach, hmain]
    rfl
  · rw [inCall_of_reachable id hreach, hworker]
    rfl

end MySQLPlugin

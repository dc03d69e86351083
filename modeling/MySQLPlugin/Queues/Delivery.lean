import MySQLPlugin.Queues.Calls

/-!
# The way of a threaded query

Every accepted query is executed once and handed out once, as a success or as an error, unless a
`Disconnect` of its handler discards it first. The invariant is `Kept`: between two steps of a run
the queues of every handler are those of its ledger; during a visit of the worker one handler is
ahead of its ledger or behind it.
-/

namespace MySQLPlugin

open Threads Dispatch Prog CMySQLHandler

/-! ### The invariant -/

/-- The scripts that are loaded after the events `es`. -/
def scripts (p_Amx : List Amx) (es : List Event) : List Amx :=
  es.foldl (fun l e => e.onScripts l) p_Amx

/-- The event that hands out a success of `h`. -/
abbrev Event.handOut (h : HandlerPtr) : Event := .assign .main h .callbackData_pop

/-- Before a success of `h` is handed out, every script that has the public is called with the
query, since the success handed out before it. -/
def Announced (p_Amx : List Amx) (h : HandlerPtr) (es : List Event) : Prop :=
  ∀ es', es' ++ [.handOut h] <+: es → ∃ d ds before calls,
    (books h es').done = d :: ds ∧ es' = before ++ calls ∧ .handOut h ∉ calls ∧
    ∀ a ∈ scripts p_Amx es', d.1.m_szCallback ∈ a.publics → ∃ c,
      .exec a (.callback d.1.m_szCallback d.1.m_szQuery d.1.m_uiResult d.1.m_uiExtra c) ∈ calls

lemma Announced.concat {p_Amx : List Amx} {h : HandlerPtr} {es : List Event} {e : Event}
    (ha : Announced p_Amx h es) (he : e ≠ .handOut h) : Announced p_Amx h (es ++ [e]) := by
  intro es' hp
  rcases List.prefix_concat_iff.mp hp with heq | hp
  · exact absurd (List.append_inj' heq rfl).2 (by simpa using he.symm)
  · exact ha es' hp

/-- What is known of the handler at `p`. -/
def Known (p : HandlerPtr) (pre : List MainInfo) (busy : Prop) (s : State) : Prop :=
  match s.heap p with
  | some x => p < s.nextHandler ∧ Tracks pre busy x (books p s.trace)
  | none => s.nextHandler ≤ p ∧ ops p s.trace = [] ∧ pre = [] ∧ ¬busy

/-- The invariant of the runs from `State.init p_Amx`, when the worker is visiting `h`. -/
structure Kept (p_Amx : List Amx) (h : HandlerPtr) (pre : List MainInfo) (busy : Prop) (s : State) :
    Prop where
  here : Known h pre busy s
  elsewhere : ∀ p, p ≠ h → Known p [] False s
  failsAlone : ∀ p, Ledger.FailsAlone (ops p s.trace)
  loaded : s.p_Amx = scripts p_Amx s.trace
  announced : ∀ p, Announced p_Amx p s.trace

/-- The event neither ends the life of an object nor changes a queue or `m_bQueryProcessing`. -/
def Event.Untracked : Event → Prop
  | .delete _ => False
  | .assign _ _ a => a.Untracked
  | _ => True

lemma Event.Untracked.bookOp {e : Event} (he : e.Untracked) (h : HandlerPtr) :
    e.bookOp h = none := by
  cases e with
  | assign t p a => exact Assign.Untracked.bookOp he t p h
  | _ => rfl

section

variable {p_Amx : List Amx} {h : HandlerPtr} {pre : List MainInfo} {busy : Prop} {s s' : State}
  {t : ThreadId} {e : Event}

lemma known_some {p : HandlerPtr} {x : CMySQLHandler} (hx : s.heap p = some x) :
    Known p pre busy s ↔ p < s.nextHandler ∧ Tracks pre busy x (books p s.trace) := by
  rw [Known, hx]

lemma known_none {p : HandlerPtr} (hx : s.heap p = none) :
    Known p pre busy s ↔ s.nextHandler ≤ p ∧ ops p s.trace = [] ∧ pre = [] ∧ ¬busy := by
  rw [Known, hx]

/-- An event that concerns no queue of `p`. -/
lemma Known.of_eq {p : HandlerPtr} (hk : Known p pre busy s) (hheap : s'.heap p = s.heap p)
    (hnext : s'.nextHandler = s.nextHandler) (hops : ops p s'.trace = ops p s.trace) :
    Known p pre busy s' := by
  unfold Known at hk ⊢
  rw [hheap, hnext, books, hops]
  exact hk

lemma Known.untracked {p : HandlerPtr} (hk : Known p pre busy s) (heff : Effect t e s s')
    (he : e.Untracked) : Known p pre busy s' := by
  have hops : ops p s'.trace = ops p s.trace := by rw [heff.trace, ops_concat_none (he.bookOp p)]
  cases e with
  | assign u q a =>
    cases hx : s.heap p with
    | some x =>
      have hk := (known_some hx).mp hk
      by_cases hpq : p = q
      · have hx' : s'.heap p = some (a.apply x) := by
          rw [heff.heap p, Event.onObject, if_pos hpq, hx, Option.map_some]
        rw [known_some hx', heff.nextHandler, books, hops]
        exact ⟨hk.1, hk.2.untracked he⟩
      · have hx' : s'.heap p = some x := by rw [heff.heap p, Event.onObject, if_neg hpq, hx]
        rw [known_some hx', heff.nextHandler, books, hops]
        exact hk
    | none =>
      have hx' : s'.heap p = s.heap p := by
        rw [heff.heap p, Event.onObject, hx]
        simp
      exact hk.of_eq hx' heff.nextHandler hops
  | new q =>
    have hq : q = s.nextHandler := heff.occurs.1
    have hnext : s'.nextHandler = s.nextHandler + 1 := heff.nextHandler
    cases hx : s.heap p with
    | some x =>
      have hk := (known_some hx).mp hk
      have hx' : s'.heap p = some x := by
        rw [heff.heap p, Event.onObject, if_neg (Nat.ne_of_lt (hq ▸ hk.1)), hx]
      rw [known_some hx', hnext, books, hops]
      exact ⟨Nat.lt_succ_of_lt hk.1, hk.2⟩
    | none =>
      have hk₀ := (known_none hx).mp hk
      by_cases hpq : p = q
      · have hx' := heff.heap p
        rw [Event.onObject, if_pos hpq] at hx'
        obtain ⟨-, hnil, rfl, hbusy⟩ := hk₀
        rw [known_some hx', hnext, books, hops, hnil, eq_false hbusy]
        exact ⟨Nat.lt_succ_of_le (hpq ▸ hq).le, .new rfl rfl rfl rfl⟩
      · have hx' : s'.heap p = none := by rw [heff.heap p, Event.onObject, if_neg hpq, hx]
        rw [known_none hx', hnext, hops]
        exact ⟨Nat.lt_of_le_of_ne hk₀.1 fun heq => hpq (hq ▸ heq.symm), hk₀.2⟩
  | delete q => exact he.elim
  | _ => exact hk.of_eq (heff.heap p) heff.nextHandler hops

/-- An assignment to another handler. -/
lemma Known.of_ne {p q : HandlerPtr} {a : Assign} (hk : Known p pre busy s)
    (heff : Effect t (.assign t q a) s s') (hp : p ≠ q) : Known p pre busy s' := by
  refine hk.of_eq ?_ heff.nextHandler ?_
  · rw [heff.heap p, Event.onObject, if_neg hp]
  · rw [heff.trace, ops_concat_none (bookOp_of_ne t a hp.symm)]

/-- An assignment to the handler itself. -/
lemma Known.assign {p : HandlerPtr} {a : Assign} {pre' : List MainInfo} {busy' : Prop}
    (hk : Known p pre busy s) (heff : Effect t (.assign t p a) s s')
    (ha : ∀ x, s.heap p = some x → a.defined x → Tracks pre busy x (books p s.trace) →
      Tracks pre' busy' (a.apply x) (books p s'.trace)) : Known p pre' busy' s' := by
  obtain ⟨x, hx, hdef⟩ := heff.occurs
  have hk := (known_some hx).mp hk
  have hx' : s'.heap p = some (a.apply x) := by
    rw [heff.heap p, Event.onObject, if_pos rfl, hx, Option.map_some]
  rw [known_some hx', heff.nextHandler]
  exact ⟨hk.1, ha x hx hdef hk.2⟩

end

namespace Kept

variable {p_Amx : List Amx} {h : HandlerPtr} {pre : List MainInfo} {busy : Prop} {s s' : State}
  {t : ThreadId} {e : Event}

/-- Between two visits no handler is special. -/
lemma refocus (hk : Kept p_Amx h [] False s) (p : HandlerPtr) : Kept p_Amx p [] False s := by
  have hall : ∀ q, Known q [] False s := fun q =>
    if hq : q = h then hq ▸ hk.here else hk.elsewhere q hq
  exact { hk with here := hall p, elsewhere := fun q _ => hall q }

lemma loaded_step (hk : Kept p_Amx h pre busy s) (heff : Effect t e s s') :
    s'.p_Amx = scripts p_Amx s'.trace := by
  rw [heff.p_Amx, heff.trace, hk.loaded, scripts, scripts, List.foldl_concat]

lemma failsAlone_step (hk : Kept p_Amx h pre busy s) (heff : Effect t e s s')
    (he : ∀ p err, e.bookOp p = some (.fail err) → (books p s.trace).done = []) (p : HandlerPtr) :
    Ledger.FailsAlone (ops p s'.trace) := by
  rw [heff.trace]
  cases hop : e.bookOp p with
  | none =>
    rw [ops_concat_none hop]
    exact hk.failsAlone p
  | some o =>
    rw [ops_concat_some hop]
    refine (hk.failsAlone p).concat o fun err ho => he p err ?_
    rw [hop, ho]

lemma untracked (hk : Kept p_Amx h pre busy s) (heff : Effect t e s s') (he : e.Untracked) :
    Kept p_Amx h pre busy s' where
  here := hk.here.untracked heff he
  elsewhere p hp := (hk.elsewhere p hp).untracked heff he
  failsAlone := hk.failsAlone_step heff fun p err hop => by simp [he.bookOp p] at hop
  loaded := hk.loaded_step heff
  announced p := by
    rw [heff.trace]
    refine (hk.announced p).concat ?_
    rintro rfl
    exact he.elim

/-- An assignment to the handler that is being visited. -/
lemma assign {a : Assign} {pre' : List MainInfo} {busy' : Prop} (hk : Kept p_Amx h pre busy s)
    (heff : Effect t (.assign t h a) s s')
    (ha : ∀ x, s.heap h = some x → a.defined x → Tracks pre busy x (books h s.trace) →
      Tracks pre' busy' (a.apply x) (books h s'.trace))
    (hfail : ∀ err, (Event.assign t h a).bookOp h = some (.fail err) → (books h s.trace).done = [])
    (hann : (Event.assign t h a) = .handOut h → Announced p_Amx h s'.trace) :
    Kept p_Amx h pre' busy' s' where
  here := hk.here.assign heff ha
  elsewhere p hp := (hk.elsewhere p hp).of_ne heff hp
  failsAlone := by
    refine hk.failsAlone_step heff fun p err hop => ?_
    by_cases hp : h = p
    · subst hp
      exact hfail err hop
    · simp [bookOp_of_ne t a hp] at hop
  loaded := hk.loaded_step heff
  announced p := by
    by_cases he : Event.assign t h a = .handOut p
    · obtain rfl : h = p := by simpa using (Event.assign.inj he).2.1
      exact hann he
    · rw [heff.trace]
      exact (hk.announced p).concat he

end Kept

lemma Effect.books_eq {p : HandlerPtr} {t : ThreadId} {e : Event} {s s' : State}
    {o : Op MainInfo ErrorInfo} (heff : Effect t e s s') (he : e.bookOp p = some o) :
    books p s'.trace = (books p s.trace).step o := by
  rw [heff.trace, books_concat_some he]

lemma Effect.books_eq_self {p : HandlerPtr} {t : ThreadId} {e : Event} {s s' : State}
    (heff : Effect t e s s') (he : e.bookOp p = none) : books p s'.trace = books p s.trace := by
  rw [heff.trace, books_concat_none he]

/-! ### Natives -/

section

variable {p_Amx : List Amx} {h : HandlerPtr} {s s' : State} {b : Build} {N : Set NativeCall}

/-- The events of the natives keep the invariant. -/
lemma Kept.ofNative {e : Event} (hk : Kept p_Amx h [] False s) (heff : Effect .main e s s')
    (he : e.OfNative) : Kept p_Amx h [] False s' := by
  cases e with
  | assign u q a =>
    obtain rfl : u = .main := heff.by_
    have hq := hk.refocus q
    cases a with
    | queueData_push m =>
      refine Kept.refocus (hq.assign heff (fun x _ _ ht => ?_) (by simp [Event.bookOp]) ?_) h
      · rw [heff.books_eq (o := .accept m) (by simp [Event.bookOp])]
        exact ht.accept m
      · simp
    | queueData_popAll =>
      refine Kept.refocus (hq.assign heff (fun x _ _ ht => ?_) (by simp [Event.bookOp]) ?_) h
      · rw [heff.books_eq (o := .discard) (by simp [Event.bookOp])]
        exact ht.discard
      · simp
    | errorCallback_push err =>
      refine Kept.refocus (hq.assign heff (fun x _ _ ht => ?_) (by simp [Event.bookOp]) ?_) h
      · rw [heff.books_eq (o := .foreign err) (by simp [Event.bookOp])]
        exact ht.foreign he
      · simp
    | _ => first
      | exact he.elim
      | exact hk.untracked heff trivial
  | delete q => exact he.elim
  | _ => exact hk.untracked heff trivial

/-- A native other than `mysql_close` keeps the invariant. -/
lemma native_kept {n : NativeCall} (hn : n.Open) (hk : Kept p_Amx h [] False s) :
    (native n).wp (allowing b N) .main (fun _ _ => True) (fun _ => Kept p_Amx h [] False) s :=
  wp_of_only step_of_allowing (native_ofNative .main hn) (fun _ _ _ he hI heff => hI.ofNative heff he)
    (fun _ _ _ => trivial) hk

/-! ### Visits of the worker -/

/-- Events that leave the queues alone keep what the worker knows of the handler. -/
lemma wp_untracked {α : Type} {t : ThreadId} {p : Code α} {pre : List MainInfo} {busy : Prop}
    {R : CMySQLHandler → Prop} (hR : ∀ x (a : Assign), a.Untracked → R x → R (a.apply x))
    (hk : Kept p_Amx h pre busy s) (hx : ∃ x, s.heap h = some x ∧ R x)
    (hp : p.All (Stmt.Only t Event.Untracked)) :
    p.wp (allowing b N) t (fun _ _ => True)
      (fun _ s' => Kept p_Amx h pre busy s' ∧ ∃ x, s'.heap h = some x ∧ R x) s := by
  refine wp_of_only (I := fun s => Kept p_Amx h pre busy s ∧ ∃ x, s.heap h = some x ∧ R x)
    step_of_allowing hp (fun e s s' he hI heff => ?_) (fun _ _ _ => trivial) ⟨hk, hx⟩
  obtain ⟨hk, x, hx, hRx⟩ := hI
  refine ⟨hk.untracked heff he, ?_⟩
  have hdel : e ≠ .delete h := by
    rintro rfl
    exact he
  rcases heff.object hx ((known_some hx).mp hk.here).1 hdel with ⟨a, rfl, hx'⟩ | hx'
  · exact ⟨_, hx', hR x a he hRx⟩
  · exact ⟨x, hx', hRx⟩

section

attribute [local simp] Stmt.Only Event.Untracked Assign.Untracked this call access assign onResult
  bind_bind ite_bind all_lift_bind all_ite

lemma call_untracked (t : ThreadId) (f : LibCall) :
    (call h f).All (Stmt.Only t Event.Untracked) := by
  simp

lemma reconnectInBackground_untracked :
    (reconnectInBackground h).All (Stmt.Only .worker Event.Untracked) := by
  simp [reconnectInBackground, connect]

end

/-- The query at the front of the queue is reported. -/
lemma queryFailed_kept {q : MainInfo} {qs : List MainInfo} (hk : Kept p_Amx h [] True s)
    (hx : ∃ x, s.heap h = some x ∧ x.queueData = q :: qs) :
    (queryFailed h q).wp (allowing b N) .worker (fun _ _ => True)
      (fun _ => Kept p_Amx h [q] False) s := by
  have hR : ∀ x (a : Assign), a.Untracked → x.queueData = q :: qs →
      (a.apply x).queueData = q :: qs := by
    intro x a ha hx
    cases a <;> first | exact ha.elim | exact hx
  rw [queryFailed, wp_bind]
  refine wp_mono (wp_untracked hR hk hx (p := access h .mysql_errno) (by
    simp [access, Stmt.Only, Event.Untracked])) ?_
  rintro id s₁ ⟨hk₁, hx₁⟩
  rw [wp_bind]
  refine wp_mono (wp_untracked hR hk₁ hx₁ (p := assign h (.m_dwError id)) (by
    simp [assign, Stmt.Only, Event.Untracked, Assign.Untracked])) ?_
  rintro _ s₂ ⟨hk₂, hx₂⟩
  rw [wp_bind]
  refine wp_mono (wp_untracked hR hk₂ hx₂ (p := access h .mysql_error) (by
    simp [access, Stmt.Only, Event.Untracked])) ?_
  rintro error s₃ ⟨hk₃, x, hx₃, hq⟩
  refine wp_assign (fun _ => trivial) fun s₄ heff => ?_
  have hk₄ : Kept p_Amx h [q] True s₄ := by
    refine hk₃.assign heff (fun y hy _ ht => ?_) (fun err _ => ?_) (by simp)
    · obtain rfl : x = y := Option.some.inj (hx₃.symm.trans hy)
      rw [heff.books_eq (by simp [Event.bookOp]; rfl)]
      exact ht.fail hq ⟨rfl, rfl, rfl⟩
    · have ht := ((known_some hx₃).mp hk₃.here).2
      simpa [ht.callbackData] using ht.idle trivial
  rw [← bind_ret_right (assign h _)]
  refine wp_assign (fun _ => trivial) fun s₅ heff => ?_
  refine hk₄.assign heff (fun y _ _ ht => ?_) (by simp [Event.bookOp]) (by simp)
  rw [heff.books_eq_self (by simp [Event.bookOp])]
  exact ht.release

/-- The worker executes the query at the front of the queue. -/
lemma executeFront_kept (hk : Kept p_Amx h [] False s)
    (hx : ∃ x, s.heap h = some x ∧ x.m_bQueryProcessing = false) :
    (executeFront h).wp (allowing b N) .worker (fun _ _ => True)
      (fun _ => Kept p_Amx h [] False) s := by
  obtain ⟨x, hx, hidle⟩ := hx
  refine wp_this (fun _ => trivial) fun x' hx' => ?_
  obtain rfl : x = x' := Option.some.inj (hx.symm.trans hx')
  cases hq : x.queueData with
  | nil => exact trivial
  | cons q qs =>
    refine wp_assign (fun _ => trivial) fun s₁ heff => ?_
    have hk₁ : Kept p_Amx h [] True s₁ := by
      refine hk.assign heff (fun y hy _ ht => ?_) (by simp [Event.bookOp]) (by simp)
      obtain rfl : x = y := Option.some.inj (hx.symm.trans hy)
      rw [heff.books_eq_self (by simp [Event.bookOp])]
      exact ht.take hidle
    have hx₁ : ∃ y, s₁.heap h = some y ∧ y.queueData = q :: qs := by
      rw [heff.heap h]
      exact ⟨(Assign.m_bQueryProcessing true).apply x, by simp [Event.onObject, hx], hq⟩
    rw [wp_bind]
    refine wp_mono (wp_untracked (R := fun y => y.queueData = q :: qs) ?_ hk₁ hx₁
      (call_untracked .worker _)) ?_
    · intro y a ha hy
      cases a <;> first | exact ha.elim | exact hy
    rintro ok s₂ ⟨hk₂, y, hy, hyq⟩
    rw [wp_bind]
    refine wp_mono (Q := fun _ => Kept p_Amx h [q] False) ?_ ?_
    · cases ok with
      | true =>
        refine wp_assign (fun _ => trivial) fun s₃ heff => ?_
        have hk₃ : Kept p_Amx h [q] False s₃ := by
          refine hk₂.assign heff (fun z hz _ ht => ?_) (by simp [Event.bookOp]) (by simp)
          obtain rfl : y = z := Option.some.inj (hy.symm.trans hz)
          rw [heff.books_eq (o := .succeed) (by simp [Event.bookOp])]
          exact ht.succeed hyq
        exact wp_of_only step_of_allowing (P := Event.Untracked) (by simp [assign, Stmt.Only,
          Event.Untracked, Assign.Untracked]) (fun _ _ _ he hI heff => hI.untracked heff he)
          (fun _ _ _ => trivial) hk₃
      | false => exact queryFailed_kept hk₂ ⟨y, hy, hyq⟩
    · intro _ s₃ hk₃
      rw [← bind_ret_right (assign h .queueData_pop)]
      refine wp_assign (fun _ => trivial) fun s₄ heff => ?_
      refine hk₃.assign heff (fun z _ _ ht => ?_) (by simp [Event.bookOp]) (by simp)
      rw [heff.books_eq_self (by simp [Event.bookOp])]
      exact ht.dequeue

/-- A visit of the worker keeps the invariant. -/
lemma workerVisit_kept (i : Nat) (hk : Kept p_Amx h [] False s) :
    (workerVisit i).wp (allowing b N) .worker (fun _ _ => True)
      (fun _ => Kept p_Amx h [] False) s := by
  refine wp_at (fun _ => trivial) fun p _ => ?_
  refine wp_step (fun v s₁ hst => ?_) fun _ _ _ => trivial
  obtain ⟨x, hx, rfl, hvisit⟩ := step_guard (step_of_allowing hst)
  rw [wp_ite]
  split_ifs at hvisit ⊢ with hready
  · have hk₁ : Kept p_Amx p [] False s₁ := (hk.refocus p).untracked hvisit trivial
    have hx₁ : ∃ y, s₁.heap p = some y ∧ y.m_bQueryProcessing = false := by
      rw [hvisit.heap p]
      refine ⟨x, hx, ?_⟩
      simp only [CMySQLHandler.ready, Bool.and_eq_true, Bool.not_eq_true'] at hready
      exact hready.1.2
    have hR : ∀ y (a : Assign), a.Untracked → y.m_bQueryProcessing = false →
        (a.apply y).m_bQueryProcessing = false := by
      intro y a ha hy
      cases a <;> first | exact ha.elim | exact hy
    rw [wp_bind]
    refine wp_mono (wp_untracked hR hk₁ hx₁ (call_untracked .worker _)) ?_
    rintro ok s₂ ⟨hk₂, hx₂⟩
    rw [wp_bind, wp_ite]
    have hmark : ∀ s₃, Kept p_Amx p [] False s₃ →
        (Prog.lift (.mark (.visitEnd p)) : Code Unit).wp (allowing b N) .worker
          (fun _ _ => True) (fun _ => Kept p_Amx h [] False) s₃ := by
      intro s₃ hk₃
      rw [← bind_ret_right (Prog.lift _)]
      exact wp_mark fun s₄ heff => (hk₃.untracked heff trivial).refocus h
    split_ifs
    · exact wp_mono (executeFront_kept hk₂ hx₂) fun _ s₃ hk₃ => hmark s₃ hk₃
    · refine wp_mono (wp_untracked hR hk₂ hx₂ reconnectInBackground_untracked) ?_
      exact fun _ s₃ hk₃ => hmark s₃ hk₃.1
  · exact hvisit ▸ hk

/-! ### Visits of `ProcessTick` -/

/-- While the scripts `called` run the callback of the query `d` at the front of `callbackData`,
after the state `s₀`. -/
structure Calling (p_Amx : List Amx) (i : Nat) (h : HandlerPtr) (d : MainInfo) (ds : List MainInfo)
    (s₀ : State) (called : List Amx) (s : State) : Prop where
  kept : Kept p_Amx h [] False s
  position : s.SQLHandle[i]? = some h
  front : ∃ x, s.heap h = some x ∧ x.callbackData = d :: ds
  p_Amx : s.p_Amx = s₀.p_Amx
  calls : ∃ calls, s.trace = s₀.trace ++ calls ∧ .handOut h ∉ calls ∧
    ∀ a ∈ called, d.m_szCallback ∈ a.publics → ∃ c,
      .exec a (.callback d.m_szCallback d.m_szQuery d.m_uiResult d.m_uiExtra c) ∈ calls

/-- The natives that the callbacks call leave the query at its place. -/
lemma Calling.ofNative {i : Nat} {d : MainInfo} {ds : List MainInfo} {s₀ : State}
    {called : List Amx} {e : Event} (hc : Calling p_Amx i h d ds s₀ called s)
    (heff : Effect .main e s s') (he : e.OfNative) : Calling p_Amx i h d ds s₀ called s' where
  kept := hc.kept.ofNative heff he
  position := by
    refine heff.position (fun j p hj => ?_) hc.position
    subst hj
    exact he
  front := by
    obtain ⟨x, hx, hcb⟩ := hc.front
    have hdel : e ≠ .delete h := by
      rintro rfl
      exact he
    rcases heff.object hx ((known_some hx).mp hc.kept.here).1 hdel with ⟨a, rfl, hx'⟩ | hx'
    · refine ⟨_, hx', ?_⟩
      cases a <;> first | exact he.elim | exact hcb
    · exact ⟨x, hx', hcb⟩
  p_Amx := by
    rw [heff.p_Amx, ← hc.p_Amx]
    cases e with
    | amxLoad a => exact he.elim
    | amxUnload a => exact he.elim
    | _ => rfl
  calls := by
    obtain ⟨calls, htrace, hout, hcalls⟩ := hc.calls
    refine ⟨calls ++ [e], by rw [heff.trace, htrace, List.append_assoc], ?_, fun a ha hname => ?_⟩
    · rw [List.mem_append, List.mem_singleton, not_or]
      refine ⟨hout, ?_⟩
      rintro rfl
      exact he
    · obtain ⟨c, hmem⟩ := hcalls a ha hname
      exact ⟨c, List.mem_append_left _ hmem⟩

/-- One more script runs the callback. -/
lemma Calling.exec {i : Nat} {d : MainInfo} {ds : List MainInfo} {s₀ : State} {called : List Amx}
    {a : Amx} {c : Cell} (hc : Calling p_Amx i h d ds s₀ called s)
    (heff : Effect .main
      (.exec a (.callback d.m_szCallback d.m_szQuery d.m_uiResult d.m_uiExtra c)) s s') :
    Calling p_Amx i h d ds s₀ (called ++ [a]) s' where
  kept := hc.kept.untracked heff trivial
  position := by
    rw [heff.table]
    exact hc.position
  front := by
    rw [heff.heap h]
    exact hc.front
  p_Amx := heff.p_Amx.trans hc.p_Amx
  calls := by
    obtain ⟨calls, htrace, hout, hcalls⟩ := hc.calls
    refine ⟨calls ++ [_], by rw [heff.trace, htrace, List.append_assoc], ?_, fun a' ha' hname => ?_⟩
    · simpa using hout
    · rcases List.mem_append.mp ha' with ha' | ha'
      · obtain ⟨c', hmem⟩ := hcalls a' ha' hname
        exact ⟨c', List.mem_append_left _ hmem⟩
      · rw [List.mem_singleton.mp ha']
        exact ⟨c, List.mem_append_right _ (List.mem_singleton.mpr rfl)⟩

lemma Calling.skip {i : Nat} {d : MainInfo} {ds : List MainInfo} {s₀ : State} {called : List Amx}
    {a : Amx} (hc : Calling p_Amx i h d ds s₀ called s) (ha : d.m_szCallback ∉ a.publics) :
    Calling p_Amx i h d ds s₀ (called ++ [a]) s where
  kept := hc.kept
  position := hc.position
  front := hc.front
  p_Amx := hc.p_Amx
  calls := by
    obtain ⟨calls, htrace, hout, hcalls⟩ := hc.calls
    refine ⟨calls, htrace, hout, fun a' ha' hname => ?_⟩
    rcases List.mem_append.mp ha' with ha' | ha'
    · exact hcalls a' ha' hname
    · rw [List.mem_singleton.mp ha'] at hname
      exact absurd hname ha

/-- The query that has been announced is handed out. -/
lemma Calling.handOut {i : Nat} {d : MainInfo} {ds : List MainInfo} {s₀ : State}
    (hc : Calling p_Amx i h d ds s₀ s₀.p_Amx s) (heff : Effect .main (.handOut h) s s') :
    Kept p_Amx h [] True s' := by
  obtain ⟨x, hx, hcb⟩ := hc.front
  have ht := ((known_some hx).mp hc.kept.here).2
  refine hc.kept.assign heff (fun y hy _ hty => ?_) (by simp [Event.bookOp]) fun _ => ?_
  · obtain rfl : x = y := Option.some.inj (hx.symm.trans hy)
    rw [heff.books_eq (o := .handOk) (by simp [Event.bookOp])]
    exact hty.handOk (by simp [hcb])
  · -- the success handed out is the one announced
    rw [heff.trace]
    intro es' hp
    rcases List.prefix_concat_iff.mp hp with heq | hp
    · obtain rfl : es' = s.trace := (List.append_inj' heq rfl).1
      have hd := ht.callbackData
      rw [hcb] at hd
      obtain ⟨w, ws, hws, rfl, -⟩ := List.map_eq_cons_iff.mp hd.symm
      obtain ⟨calls, htrace, hout, hcalls⟩ := hc.calls
      refine ⟨w, ws, s₀.trace, calls, hws, htrace, hout, fun a ha hname => ?_⟩
      rw [← hc.kept.loaded, hc.p_Amx] at ha
      exact hcalls a ha hname
    · exact hc.kept.announced h es' hp

/-- The second half of a visit of `ProcessTick` keeps the invariant. -/
lemma tickCallback_kept (hN : ∀ n ∈ N, n.Open) (i : Nat) (hk : Kept p_Amx h [] False s) :
    (tickCallback i).wp (allowing b N) .main (fun _ _ => True)
      (fun _ => Kept p_Amx h [] False) s := by
  refine wp_tickCallback (fun _ => trivial) hk fun p x d ds hp hx hcb => ?_
  have hstart : Calling p_Amx i p d ds s [] s :=
    ⟨hk.refocus p, hp, ⟨x, hx, hcb⟩, rfl, [], by simp⟩
  refine wp_mono (wp_execAll (confined_allowing b N) (I := Calling p_Amx i p d ds s)
    (fun _ _ _ _ _ hc heff => hc.exec heff)
    (fun _ _ _ hname hc => hc.skip hname) (fun l n s₁ hn hc => ?_) hstart) fun _ s₁ hc => ?_
  · exact wp_of_only step_of_allowing (native_ofNative .main (hN n hn))
      (fun _ _ _ he hI heff => hI.ofNative heff he) (fun _ _ _ => trivial) hc
  · refine wp_callbackDelivered (fun _ => trivial) (fun _ _ _ _ => trivial) fun q s₂ s₃ hq heff₂ heff₃ => ?_
    obtain rfl : p = q := Option.some.inj (hc.position.symm.trans hq)
    refine ((hc.handOut heff₂).assign heff₃ (fun y _ _ ht => ?_) (by simp [Event.bookOp])
      (by simp)).refocus h
    rw [heff₃.books_eq_self (by simp [Event.bookOp])]
    exact ht.release

/-- The first half of a visit of `ProcessTick` keeps the invariant. -/
lemma tickError_kept (hN : ∀ n ∈ N, n.Open) (i : Nat) (hk : Kept p_Amx h [] False s) :
    (tickError i).wp (allowing b N) .main (fun _ _ => True) (fun _ => Kept p_Amx h [] False) s := by
  refine wp_tickError (fun _ => trivial) hk fun _ _ _ _ _ _ _ => ?_
  refine wp_mono (wp_execAll (confined_allowing b N) (I := fun _ => Kept p_Amx h [] False)
    (fun _ _ _ _ _ hk heff => hk.untracked heff trivial) (fun _ _ _ _ hk => hk)
    (fun _ n _ hn hk => native_kept (hN n hn) hk) hk) fun _ s₁ hk₁ => ?_
  refine wp_errorDelivered (fun _ => trivial) fun q s₂ _ heff => ?_
  refine ((hk₁.refocus q).assign heff (fun z _ _ ht => ?_) (by simp [Event.bookOp])
    (by simp)).refocus h
  rw [heff.books_eq (o := .handErr) (by simp [Event.bookOp])]
  exact ht.handErr

/-! ### Runs -/

/-- Every step of a run without `mysql_close` keeps the invariant. -/
lemma action_kept (hN : ∀ n ∈ N, n.Open) {t : ThreadId} {p : Code Unit}
    (hp : Acts (Action.CallsOnly N) t p) (hk : Kept p_Amx h [] False s) :
    p.wp (allowing b N) t (fun _ _ => True) (fun _ => Kept p_Amx h [] False) s := by
  obtain ⟨ha⟩ := hp
  rename_i a
  cases a with
  | native n =>
    rw [Action.code, wp_bind]
    exact wp_mono (native_kept (hN n (ha n rfl)) hk) fun _ _ h => h
  | visit i => exact workerVisit_kept i hk
  | tick i =>
    rw [Action.code, tickVisit, wp_bind]
    exact wp_mono (tickError_kept hN i hk) fun _ _ hk₁ => tickCallback_kept hN i hk₁
  | amxLoad a =>
    exact wp_of_only step_of_allowing (P := Event.Untracked) (p := .lift (.amxLoad a)) (by
      simp [Stmt.Only, Event.Untracked]) (fun _ _ _ he hI heff => hI.untracked heff he)
      (fun _ _ _ => trivial) hk
  | amxUnload a =>
    exact wp_of_only step_of_allowing (P := Event.Untracked) (p := .lift (.amxUnload a)) (by
      simp [Stmt.Only, Event.Untracked]) (fun _ _ _ he hI heff => hI.untracked heff he)
      (fun _ _ _ => trivial) hk

/-- The invariant holds in every state of a run without `mysql_close`. -/
theorem runs_kept (hN : ∀ n ∈ N, n.Open) (hs : Runs b N (State.init p_Amx) s) :
    Kept p_Amx h [] False s := by
  refine hs.invariant (I := Kept p_Amx h [] False) (fun t p s hp hk => action_kept hN hp hk) ?_
  exact ⟨⟨Nat.zero_le _, rfl, rfl, id⟩, fun p _ => ⟨Nat.zero_le _, rfl, rfl, id⟩,
    fun p l e hl => by simp [State.init] at hl, rfl, fun p l hl => by simp [State.init] at hl⟩

end

/-- A threaded query has been queued if and only if its connection handle denoted a handler that was
connected when the call was made. -/
def CallRecord.Admitted (a : CallRecord) : Prop :=
  a.call.job ≠ none → (a.queued = [] ↔ a.connected = false)

/-- A native keeps this. -/
lemma native_admitted {b : Build} {N : Set NativeCall} {n : NativeCall} (hn : n.Open) {s : State}
    (hs : Logged ∅ CallLog.Idle s) (hdone : ∀ a ∈ (callLog s.trace).done, a.Admitted) :
    (native n).wp (allowing b N) .main (fun _ _ => True)
      (fun _ s' => ∀ a ∈ (callLog s'.trace).done, a.Admitted) s := by
  cases hjob : n.job with
  | some d =>
    refine wp_mono (native_queues hjob s) ?_
    rintro r s' ⟨qs, hlog, hqs⟩ a ha
    rw [hlog] at ha
    rcases List.mem_append.mp ha with ha | ha
    · exact hdone a ha
    · obtain rfl := List.mem_singleton.mp ha
      intro _
      have hqueued : (callLog s.trace).queued = [] := hs.2.1
      rw [hqueued, List.nil_append, hqs, ← hs.1.replayed.meets_iff, Bool.not_eq_true]
  | none =>
    refine wp_mono (native_recorded n s) ?_
    rintro r s' ⟨a, hlog, rfl, -⟩ a' ha'
    rw [hlog] at ha'
    rcases List.mem_append.mp ha' with ha' | ha'
    · exact hdone a' ha'
    · rw [List.mem_singleton.mp ha']
      exact fun hne => absurd hjob hne

/-- In a run without `mysql_close` all calls are answered, and nothing is refused but the queries for
a handler that is not connected. -/
lemma runs_admitted {b : Build} {p_Amx : List Amx} {s : State}
    (hs : Runs b {n | n.Open} (State.init p_Amx) s) :
    Logged ∅ CallLog.Idle s ∧ ∀ a ∈ (callLog s.trace).done, a.Admitted := by
  have hnone {h : HandlerPtr} {s : State} {x : CMySQLHandler} {s' : State}
      (_ : (allowing b {n | n.Open}).Step .main (.this h) s (.ok x) s') :
      ∀ n ∈ (callLog s.trace).asked, n ∈ (∅ : Set NativeCall) → x.m_bIsConnected = false :=
    fun _ _ h => h.elim
  have hkeep {t : ThreadId} {e : Event} {s s' : State} (hs : ∀ a ∈ (callLog s.trace).done, a.Admitted)
      (heff : Effect t e s s') (he : e.Unasked) : ∀ a ∈ (callLog s'.trace).done, a.Admitted := by
    rw [heff.trace, callLog_concat, he.add]
    exact hs
  refine serial_invariant (I := fun s => Logged ∅ CallLog.Idle s ∧
    ∀ a ∈ (callLog s.trace).done, a.Admitted) (A := Action.CallsOnly {n | n.Open})
    (confined_allowing b _) (fun n hn => hn n rfl) (fun e s s' he hs heff => ?_)
    (fun n s hn hs => ?_) (fun i s hs => ?_) hs
    ⟨⟨answers_init ∅ p_Amx, rfl, rfl⟩, fun a ha => by cases ha⟩
  · have hsilent := he.silent
    exact ⟨hs.1.stays heff hsilent.1 hsilent.2, hkeep hs.2 heff hsilent.1⟩
  · exact wp_and (native_answers step_of_allowing hnone n hs.1).wp (native_admitted hn hs.1 hs.2)
  · refine wp_of_only step_of_allowing (workerVisit_ofVisit .worker i) (fun e s s' he hs heff => ?_)
      (fun _ _ _ => trivial) hs
    have hsilent := he.silent heff.by_
    exact ⟨hs.1.stays heff hsilent.1 hsilent.2, hkeep hs.2 heff hsilent.1⟩

/-- Where the threaded queries of the handler `h` are: each accepted query is in exactly one place
of its ledger, and the three queues are the places on the way. -/
structure Dispatched (p_Amx : List Amx) (h : HandlerPtr) (s : State) : Prop where
  sound : (books h s.trace).Sound
  /-- The accepted queries are those that the calls of the scripts have put into the queue, in the
  order of the calls. -/
  accepted : (books h s.trace).accepted = entries h (callLog s.trace).done
  /-- A call puts only its own query into a queue, once, and returns its id then. -/
  calls : ∀ a ∈ (callLog s.trace).done, a.Receipted ∧ a.Admitted
  /-- Queries are discarded only when a call closes the connection of the handler. -/
  discards : Discards s.trace
  queues : ∀ x, s.heap h = some x → x.queueData = (books h s.trace).waiting.map Prod.fst ∧
    x.callbackData = (books h s.trace).done.map Prod.fst ∧
    x.errorCallback = (books h s.trace).failed.map Prod.snd
  /-- No query is accepted for an object that does not exist. -/
  unborn : s.heap h = none → books h s.trace = {}
  reports : ∀ f ∈ (books h s.trace).handedErr ++ (books h s.trace).failed, Reported f
  announced : Announced p_Amx h s.trace

/-- In every run without `mysql_close` no threaded query is lost, duplicated or overtaken in its
channel. -/
theorem queries_dispatched (b : Build) (p_Amx : List Amx) {s : State}
    (hs : Runs b {n | n.Open} (State.init p_Amx) s) (h : HandlerPtr) : Dispatched p_Amx h s := by
  have hk := runs_kept (h := h) (fun n hn => hn) hs
  have hknown := hk.here
  have sound := Ledger.sound_run (ops h s.trace)
  obtain ⟨hlogged, hadmitted⟩ := runs_admitted hs
  have haccepted : (books h s.trace).accepted = entries h (callLog s.trace).done := by
    have hqueued : (callLog s.trace).queued = [] := hlogged.2.1
    rw [books_accepted, hqueued, queriesFor, List.filterMap_nil, List.append_nil]
  have hcalls (a) (ha : a ∈ (callLog s.trace).done) : a.Receipted ∧ a.Admitted :=
    ⟨(hlogged.1.receipted a ha).1, hadmitted a ha⟩
  cases hx : s.heap h with
  | some x =>
    have ht := ((known_some hx).mp hknown).2
    refine ⟨sound, haccepted, hcalls, hlogged.1.discards, fun y hy => ?_, fun hnone => ?_, ht.reports,
      hk.announced h⟩
    · obtain rfl : x = y := Option.some.inj (hx.symm.trans hy)
      exact ⟨ht.queueData, ht.callbackData, ht.errorCallback⟩
    · simp [hx] at hnone
  | none =>
    have hnil := ((known_none hx).mp hknown).2.1
    have hbooks : books h s.trace = {} := by rw [books, hnil, Ledger.run_nil]
    refine ⟨sound, haccepted, hcalls, hlogged.1.discards, fun y hy => by simp [hx] at hy, fun _ => hbooks,
      ?_, hk.announced h⟩
    simp [hbooks]

/-- A script with callbacks of its own. -/
def subscriber : Amx := ⟨0, [OnQueryFinish, OnQueryError, ['f']]⟩

/-- Queries through both natives: `a` succeeds, `b` fails, `c` is discarded by a reconnection, `d` has a
handle that denotes nothing, and `e` succeeds on the new connection. -/
def fiveQueries : List Action :=
  [.native (.mysql_connect [] [] [] [] 0), .native (.mysql_query ['a'] 1 10 1),
    .native (.mysql_query_callback 2 ['b'] ['f'] 20 1), .visit 0, .tick 0, .visit 0,
    .native (.mysql_query ['c'] 3 30 1), .tick 0, .native (.mysql_reconnect 1),
    .native (.mysql_query ['d'] 4 40 2), .native (.mysql_query_callback 5 ['e'] ['f'] 50 1), .visit 0,
    .tick 0]

/-- The query `b` fails. -/
def failsB : ∀ {β : Type}, Stmt β → State → Reply
  | _, .leave _ _ (.mysql_real_query query), _ => { ok := query != ['b'] }
  | _, _, _ => {}

lemma fiveQueries_runs {s : State} (h : play (allowing .pthread {n | n.Open}) failsB fiveQueries
    (State.init [subscriber]) = some s) : Runs .pthread {n | n.Open} (State.init [subscriber]) s := by
  refine runs_of_play (fun a s => ?_) (by simp [fiveQueries, Action.CallsOnly, NativeCall.Open]) h
  cases a with
  | leave h c f => cases f <;> simp [Stmt.Calls]
  | _ => simp [Stmt.Calls, failsB]

theorem queries_dispatched_fiveQueries :
    ∃ s, play (allowing .pthread {n | n.Open}) failsB fiveQueries (State.init [subscriber]) = some s ∧
      (callLog s.trace).done.map (·.result) = [1, 1, 2, 3, 1, 0, 5] ∧
      (books 0 s.trace).accepted.map (·.m_szQuery) = [['a'], ['b'], ['c'], ['e']] ∧
      (books 0 s.trace).handedOk.map (·.2) = [0, 3] ∧
      (owners (books 0 s.trace).handedErr).map (·.2) = [1] ∧
      (books 0 s.trace).discarded.map (·.2) = [2] ∧ Dispatched [subscriber] 0 s := by
  have hplay : (play (allowing .pthread {n | n.Open}) failsB fiveQueries (State.init [subscriber])).map
      (fun s => ((callLog s.trace).done.map (·.result),
        (books 0 s.trace).accepted.map (·.m_szQuery), (books 0 s.trace).handedOk.map (·.2),
        (owners (books 0 s.trace).handedErr).map (·.2), (books 0 s.trace).discarded.map (·.2)))
        = some ([1, 1, 2, 3, 1, 0, 5], [['a'], ['b'], ['c'], ['e']], [0, 3], [1], [2]) := by
    decide +kernel
  obtain ⟨s, hs, hbooks⟩ := Option.map_eq_some_iff.mp hplay
  simp only [Prod.mk.injEq] at hbooks
  obtain ⟨hresults, haccepted, hok, herr, hdiscarded⟩ := hbooks
  exact ⟨s, hs, hresults, haccepted, hok, herr, hdiscarded,
    queries_dispatched .pthread [subscriber] (fiveQueries_runs hs) 0⟩

end MySQLPlugin

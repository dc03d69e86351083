import MySQLPlugin.Interplay.Rules

/-!
# Synchronous queries

`OldQuery` sets `m_bNonThreadedQuery` of a handler while it executes a query itself, and resets it
on every path.
-/

namespace MySQLPlugin

open Threads Prog CMySQLHandler

/-! ### Inside a part of a run -/

/-- After the events `es` the run is between `start` and `stop`. -/
def Inside (start stop : Event) (es : List Event) : Prop :=
  ∃ es₁ es₂, es = es₁ ++ start :: es₂ ∧ stop ∉ es₂

lemma Inside.start (start stop : Event) (es : List Event) : Inside start stop (es ++ [start]) :=
  ⟨es, [], rfl, List.not_mem_nil⟩

lemma Inside.concat {start stop e : Event} {es : List Event} (h : Inside start stop es)
    (he : e ≠ stop) : Inside start stop (es ++ [e]) := by
  obtain ⟨es₁, es₂, rfl, hstop⟩ := h
  refine ⟨es₁, es₂ ++ [e], by simp, fun hmem => ?_⟩
  rcases List.mem_append.mp hmem with hmem | hmem
  · exact hstop hmem
  · exact he (List.mem_singleton.mp hmem).symm

/-- The worker is inside a visit of `h`. -/
abbrev InVisit (h : HandlerPtr) : List Event → Prop := Inside (.visit h) (.mark (.visitEnd h))

/-- The main thread is inside `ProcessTick`. -/
abbrev InTick : List Event → Prop := Inside (.mark .tick) (.mark .tickEnd)

/-- The main thread is inside `OldQuery` of `h`. -/
abbrev InOldQuery (h : HandlerPtr) : List Event → Prop :=
  Inside (.mark (.oldQuery h)) (.mark (.oldQueryEnd h))

/-! ### The flag of synchronous queries -/

/-- The flag is set at most on handlers that satisfy `P`. -/
def Direct (P : HandlerPtr → State → Prop) (s : State) : Prop :=
  ∀ h x, s.heap h = some x → x.m_bNonThreadedQuery = true → P h s

/-- The flag is set on no handler. -/
abbrev NoneDirect : State → Prop := Direct fun _ _ => False

/-- The main thread executes a query on `h`, and at most on `h` the flag is set. -/
def DirectOn (h : HandlerPtr) (s : State) : Prop :=
  Direct (fun q _ => q = h) s ∧ InOldQuery h s.trace

/-- The flag is set only inside `OldQuery`. -/
abbrev DirectInside : State → Prop := Direct fun h s => InOldQuery h s.trace

/-- The event sets the flag of no handler, and does not enter or leave `OldQuery`. -/
def Event.Indirect : Event → Prop
  | .assign _ _ (.m_bNonThreadedQuery true) | .delete _ | .mark (.oldQuery _)
  | .mark (.oldQueryEnd _) => False
  | _ => True

section

variable {t : ThreadId} {e : Event} {s s' : State} {h : HandlerPtr}

/-- A flag that is set after an event has been set before, or is set by it. -/
lemma Effect.direct (heff : Effect t e s s') {x' : CMySQLHandler} (hx' : s'.heap h = some x')
    (hflag : x'.m_bNonThreadedQuery = true) :
    (∃ x, s.heap h = some x ∧ x.m_bNonThreadedQuery = true ∧
        ∀ u, e ≠ .assign u h (.m_bNonThreadedQuery false)) ∨
      e = .assign t h (.m_bNonThreadedQuery true) := by
  rw [heff.heap h] at hx'
  cases e with
  | new p =>
    simp only [Event.onObject] at hx'
    split_ifs at hx' with hp
    · cases hx'
      cases hflag
    · exact .inl ⟨x', hx', hflag, by simp⟩
  | delete p =>
    simp only [Event.onObject] at hx'
    split_ifs at hx'
    exact .inl ⟨x', hx', hflag, by simp⟩
  | assign u p a =>
    obtain rfl : u = t := heff.by_
    simp only [Event.onObject] at hx'
    split_ifs at hx' with hp
    · subst hp
      obtain ⟨x, hx, rfl⟩ := Option.map_eq_some_iff.mp hx'
      cases a with
      | m_bNonThreadedQuery v =>
        obtain rfl : v = true := hflag
        exact .inr rfl
      | _ => exact .inl ⟨x, hx, hflag, by simp⟩
    · refine .inl ⟨x', hx', hflag, fun v hv => hp ?_⟩
      cases hv
      rfl
  | _ => exact .inl ⟨x', hx', hflag, by simp⟩

lemma Direct.step {P Q : HandlerPtr → State → Prop} (hs : Direct P s) (heff : Effect t e s s')
    (he : ∀ h, e ≠ .assign t h (.m_bNonThreadedQuery true)) (hPQ : ∀ h, P h s → Q h s') :
    Direct Q s' := by
  intro h x' hx' hflag
  rcases heff.direct hx' hflag with ⟨x, hx, hflag, -⟩ | rfl
  · exact hPQ h (hs h x hx hflag)
  · exact absurd rfl (he h)

lemma Event.Indirect.ne (he : e.Indirect) (h : HandlerPtr) :
    e ≠ .assign t h (.m_bNonThreadedQuery true) := by
  rintro rfl
  exact he

lemma Event.Indirect.inOldQuery (he : e.Indirect) (heff : Effect t e s s')
    (hs : InOldQuery h s.trace) : InOldQuery h s'.trace := by
  rw [heff.trace]
  refine hs.concat ?_
  rintro rfl
  exact he

lemma NoneDirect.indirect (hs : NoneDirect s) (heff : Effect t e s s') (he : e.Indirect) :
    NoneDirect s' := hs.step heff he.ne fun _ h => h

lemma DirectOn.indirect (hs : DirectOn h s) (heff : Effect t e s s') (he : e.Indirect) :
    DirectOn h s' := ⟨hs.1.step heff he.ne fun _ h => h, he.inOldQuery heff hs.2⟩

lemma DirectInside.indirect (hs : DirectInside s) (heff : Effect t e s s') (he : e.Indirect) :
    DirectInside s' := hs.step heff he.ne fun _ h => he.inOldQuery heff h

lemma DirectOn.inside (hs : DirectOn h s) : DirectInside s := fun q x hx hflag => by
  obtain rfl := hs.1 q x hx hflag
  exact hs.2

lemma NoneDirect.inside (hs : NoneDirect s) : DirectInside s :=
  fun q x hx hflag => (hs q x hx hflag).elim

end

/-! ### The two threads -/

/-- The worker sets no flag. -/
def directRely : ThreadId → Set (State → Prop)
  | .main => {f | f = DirectInside ∨ f = NoneDirect ∨
      ∃ h, f = DirectOn h ∨ f = fun s => InOldQuery h s.trace}
  | .worker => {DirectInside}

section

variable {b : Build} {N : Set NativeCall} {s s' : State} {h : HandlerPtr}

lemma stable_noneDirect : Stable (directRely .main) NoneDirect := .of_mem (.inr (.inl rfl))

lemma stable_directOn (h : HandlerPtr) : Stable (directRely .main) (DirectOn h) :=
  .of_mem (.inr (.inr ⟨h, .inl rfl⟩))

lemma stable_between (h : HandlerPtr) :
    Stable (directRely .main) fun s => NoneDirect s ∧ InOldQuery h s.trace :=
  stable_noneDirect.and (.of_mem (.inr (.inr ⟨h, .inr rfl⟩)))

/-- The worker relies on nothing but where the flag is set. -/
lemma main_guarantees_direct (hs' : DirectInside s') : Guarantees directRely .main s s' := by
  intro u hu f hf _
  cases u with
  | main => exact absurd rfl hu
  | worker =>
    obtain rfl : f = DirectInside := hf
    exact hs'

lemma worker_guarantees_direct {e : Event} (heff : Effect .worker e s s') (he : e.Indirect) :
    Guarantees directRely .worker s s' := by
  intro u hu f hf hfs
  cases u with
  | worker => exact absurd rfl hu
  | main =>
    rcases hf with rfl | rfl | ⟨h, rfl | rfl⟩
    · exact DirectInside.indirect hfs heff he
    · exact NoneDirect.indirect hfs heff he
    · exact DirectOn.indirect hfs heff he
    · exact he.inOldQuery heff hfs

lemma relies_indirect {I : State → Prop} (hI : Stable (directRely .main) I)
    (hinside : ∀ s, I s → DirectInside s)
    (hkeeps : ∀ e s s', I s → Effect .main e s s' → e.Indirect → I s') {α : Type} {p : Code α}
    (hp : p.All (Stmt.Only .main Event.Indirect)) (hs : I s) :
    p.Relies (allowing b N) directRely .main (fun _ => I) s :=
  relies_of_only step_of_allowing hp hI (fun e s s' he hI heff =>
    ⟨main_guarantees_direct (hinside s' (hkeeps e s s' hI heff he)), hkeeps e s s' hI heff he⟩) hs

lemma relies_noneDirect {α : Type} {p : Code α} (hp : p.All (Stmt.Only .main Event.Indirect))
    (hs : NoneDirect s) : p.Relies (allowing b N) directRely .main (fun _ => NoneDirect) s :=
  relies_indirect stable_noneDirect (fun _ h => h.inside) (fun _ _ _ h heff he => h.indirect heff he)
    hp hs

lemma relies_between {α : Type} {p : Code α} (hp : p.All (Stmt.Only .main Event.Indirect))
    (hs : NoneDirect s ∧ InOldQuery h s.trace) : p.Relies (allowing b N) directRely .main
      (fun _ s => NoneDirect s ∧ InOldQuery h s.trace) s :=
  relies_indirect (stable_between h) (fun _ h => h.1.inside)
    (fun _ _ _ h heff he => ⟨h.1.indirect heff he, he.inOldQuery heff h.2⟩) hp hs

lemma relies_directOn {α : Type} {p : Code α} (hp : p.All (Stmt.Only .main Event.Indirect))
    (hs : DirectOn h s) : p.Relies (allowing b N) directRely .main (fun _ => DirectOn h) s :=
  relies_indirect (stable_directOn h) (fun _ h => h.inside)
    (fun _ _ _ h heff he => h.indirect heff he) hp hs

attribute [local simp] Stmt.Only Event.Indirect this call access assign onResult lockMutex unlockMutex
  bind_bind ite_bind all_lift_bind all_ite

lemma nonThreadedQuery_relies {q : CString} (hs : NoneDirect s ∧ InOldQuery h s.trace) :
    (nonThreadedQuery h q).Relies (allowing b N) directRely .main
      (fun _ s => NoneDirect s ∧ InOldQuery h s.trace) s := by
  have hset : ∀ s₁ s₂, NoneDirect s₁ ∧ InOldQuery h s₁.trace →
      Effect .main (.assign .main h (.m_bNonThreadedQuery true)) s₁ s₂ → DirectOn h s₂ := by
    intro s₁ s₂ hs₁ heff
    refine ⟨fun p x hx hflag => ?_, ?_⟩
    · rcases heff.direct hx hflag with ⟨y, hy, hyflag, -⟩ | heq
      · exact (hs₁.1 p y hy hyflag).elim
      · cases heq
        rfl
    · rw [heff.trace]
      exact hs₁.2.concat (by simp)
  have hreset : ∀ s₁ s₂, DirectOn h s₁ →
      Effect .main (.assign .main h (.m_bNonThreadedQuery false)) s₁ s₂ →
      NoneDirect s₂ ∧ InOldQuery h s₂.trace := by
    intro s₁ s₂ hs₁ heff
    refine ⟨fun p x hx hflag => ?_, ?_⟩
    · rcases heff.direct hx hflag with ⟨y, hy, hyflag, hne⟩ | heq
      · obtain rfl := hs₁.1 p y hy hyflag
        exact hne .main rfl
      · cases heq
    · rw [heff.trace]
      exact hs₁.2.concat (by simp)
  refine relies_assign step_of_allowing (stable_between h) hs fun s₁ s₂ hs₁ heff => ?_
  refine ⟨main_guarantees_direct (hset s₁ s₂ hs₁ heff).inside, ?_⟩
  refine .bind ((relies_directOn (by simp) (hset s₁ s₂ hs₁ heff)).mono fun ok s hs => ?_)
  split_ifs
  · refine .bind ((relies_directOn (p := access h .mysql_errno) (by simp) hs).mono fun e s hs => ?_)
    refine .bind ((relies_directOn (by simp) hs).mono fun _ s hs => ?_)
    refine .bind ((relies_directOn (p := access h .mysql_error) (by simp) hs).mono fun _ s hs => ?_)
    refine relies_assign step_of_allowing (stable_directOn h) hs fun s₁ s₂ hs₁ heff => ?_
    exact ⟨main_guarantees_direct (hreset s₁ s₂ hs₁ heff).1.inside,
      relies_between (by simp) (hreset s₁ s₂ hs₁ heff)⟩
  · refine .bind ((relies_directOn (by simp) hs).mono fun _ s hs => ?_)
    refine relies_assign step_of_allowing (stable_directOn h) hs fun s₁ s₂ hs₁ heff => ?_
    exact ⟨main_guarantees_direct (hreset s₁ s₂ hs₁ heff).1.inside,
      relies_ret (stable_between h) (hreset s₁ s₂ hs₁ heff)⟩

lemma oldQuery_relies {q : CString} {resultID extraID : Cell} (hs : NoneDirect s) :
    (do
      .lift (.mark (.oldQuery h))
      let r ← oldQuery h q resultID extraID
      .lift (.mark (.oldQueryEnd h))
      pure r : Code Cell).Relies (allowing b N) directRely .main (fun _ => NoneDirect) s := by
  have hstable := stable_between h
  refine relies_mark step_of_allowing stable_noneDirect hs fun s₁ s₂ hs₁ heff => ?_
  have hs₂ : NoneDirect s₂ := hs₁.step heff (by simp) fun _ h => h
  have hin : InOldQuery h s₂.trace := by
    rw [heff.trace]
    exact .start _ _ _
  refine ⟨main_guarantees_direct hs₂.inside, .bind (Relies.mono
    (Q := fun _ s => NoneDirect s ∧ InOldQuery h s.trace) ?_ fun r s hs => ?_)⟩
  · refine relies_this step_of_allowing hstable ⟨hs₂, hin⟩ fun x s hs _ => ?_
    split_ifs
    · exact relies_ret hstable hs
    · exact relies_between (by simp [enqueue]) hs
    · exact nonThreadedQuery_relies hs
  · refine relies_mark step_of_allowing hstable hs fun s₁ s₂ hs₁ heff => ?_
    have hs₂ : NoneDirect s₂ := hs₁.1.step heff (by simp) fun _ h => h
    exact ⟨main_guarantees_direct hs₂.inside, relies_ret stable_noneDirect hs₂⟩

lemma native_direct {n : NativeCall} (hn : n.Open) (hs : NoneDirect s) :
    (native n).Relies (allowing b N) directRely .main (fun _ => NoneDirect) s := by
  refine native_relies step_of_allowing stable_noneDirect (fun e s s' he hs heff => ?_)
    (fun h s hs => relies_noneDirect (by simp [connect]) hs)
    (fun h s hs => relies_noneDirect (by simp [disconnect, closeConnection, clearQueue]) hs)
    (fun h q c i e s hs => relies_noneDirect (by simp [query, enqueue]) hs)
    (fun h q r e s hs => oldQuery_relies hs) hn hs
  have hind : e.Indirect := by
    cases e with
    | assign u p a => cases a <;> trivial
    | mark m => cases m <;> trivial
    | _ => trivial
  exact ⟨main_guarantees_direct (hs.indirect heff hind).inside, hs.indirect heff hind⟩

lemma workerVisit_indirect (i : Nat) :
    (workerVisit i).All (Stmt.Only .worker Event.Indirect) := by
  simp [workerVisit, executeFront, queryFailed, reconnectInBackground, connect]
  intro h x
  cases x.queueData <;> simp [front]

/-- The duties of the two threads for the flag of synchronous queries. -/
theorem direct_duties (b : Build) {N : Set NativeCall} (hN : ∀ n ∈ N, n.Open) :
    Duties (allowing b N) N directRely NoneDirect NoneDirect DirectInside DirectInside := by
  have hkeeps {e : Event} {s s' : State} (hs : NoneDirect s) (heff : Effect .main e s s')
      (he : e.Indirect) : Guarantees directRely .main s s' ∧ NoneDirect s' :=
    ⟨main_guarantees_direct (hs.indirect heff he).inside, hs.indirect heff he⟩
  have hworker {e : Event} {s s' : State} (hs : DirectInside s) (heff : Effect .worker e s s')
      (he : e.Indirect) : Guarantees directRely .worker s s' ∧ DirectInside s' :=
    ⟨worker_guarantees_direct heff he, hs.indirect heff he⟩
  have hstable : Stable (directRely .worker) DirectInside := .of_mem rfl
  exact
    { stable_idle := stable_noneDirect
      stable_ticking := stable_noneDirect
      stable_asleep := hstable
      stable_sweeping := hstable
      native := fun n s hn hs => native_direct (hN n hn) hs
      amx := fun e s s' he hs heff => by
        obtain ⟨a, rfl | rfl⟩ := he <;> exact hkeeps hs heff trivial
      tick := fun s s' hs heff => hkeeps hs heff trivial
      visit := fun i s hs => relies_tickVisit step_of_allowing (confined_allowing b N)
        stable_noneDirect (fun a p s s' hs heff => hkeeps hs heff trivial)
        (fun n s hn hs => native_direct (hN n hn) hs)
        (fun h a s s' ha hs heff => by
          rcases ha with rfl | rfl | rfl <;> exact hkeeps hs heff trivial) hs
      tickEnd := fun s s' hs heff => hkeeps hs heff trivial
      wake := fun e s s' he hs heff => by
        rcases he with rfl | rfl <;> exact hworker hs heff trivial
      sweep := fun i s hs => relies_of_only step_of_allowing (workerVisit_indirect i) hstable
        (fun e s s' he hs heff => hworker hs heff he) hs
      sleep := fun s s' hs heff => hworker hs heff trivial }

end

end MySQLPlugin

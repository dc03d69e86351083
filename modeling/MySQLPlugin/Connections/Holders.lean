import MySQLPlugin.Connections.Owned
import MySQLPlugin.Interplay.Rules
import MySQLPlugin.Logic.Wiring

/-!
# The holder of a connection object

`mysql_init` hands out a connection object once, to one handler, and only that handler ever holds it.
This holds whatever natives the scripts call, for whole actions and for the statements of the two
threads in any order.
-/

namespace MySQLPlugin

open Threads Prog

/-! ### The events of a wired program -/

/-- What the event of a statement that is allowed after `g` looks like. -/
def Event.AllowedAfter (g : Last) : Event → Prop
  | .assign _ h a => a.AllowedAfter g h
  | .leave _ h f c _ => g = .entered h f c
  | _ => True

lemma Stmt.AllowedAfter.only {g : Last} {β : Type} {a : Stmt β} (ha : a.AllowedAfter g)
    (t : ThreadId) : a.Only t (Event.AllowedAfter g) := by
  cases a with
  | assign h a => exact ha
  | leave h c f => exact fun _ => ha
  | _ => simp [Stmt.Only, Event.AllowedAfter]

/-- What the statement hands to the next one is in the trace. -/
def Last.Recorded (t : ThreadId) (s : State) : Last → Prop
  | .inited h o => .init t h o ∈ s.trace
  | .entered h f c => .enter t h f (some c) ∈ s.trace
  | .other => True

lemma Effect.mem {t : ThreadId} {e : Event} {s s' : State} (heff : Effect t e s s') :
    e ∈ s'.trace := by
  rw [heff.trace]
  exact List.mem_append_right _ (List.mem_singleton_self e)

lemma Stmt.hands_recorded {b : Build} {t : ThreadId} {β : Type} {a : Stmt β} {x : β} {s s' : State}
    (hst : (plugin b).Step t a s (.ok x) s') : (a.hands x).Recorded t s' := by
  cases a with
  | mysql_init h => exact (step_init hst).mem
  | enter h f => exact (step_enter hst).mem
  | _ => trivial

/-! ### The holder -/

/-- A connection object has been handed out once, to the handler that holds it. -/
structure Issued (s : State) : Prop where
  lt : ∀ t h c, .init t h (some c) ∈ s.trace → c < s.lib.nextConn
  unique : ∀ t h t' h' c, .init t h (some c) ∈ s.trace → .init t' h' (some c) ∈ s.trace →
    t = t' ∧ h = h'
  holder : ∀ h c, s.connection h = some c → ∃ t, .init t h (some c) ∈ s.trace

lemma Issued.init_state (p_Amx : List Amx) : Issued (State.init p_Amx) where
  lt _ _ _ hmem := absurd hmem List.not_mem_nil
  unique _ _ _ _ _ hmem := absurd hmem List.not_mem_nil
  holder _ _ hc := by cases hc

/-- A connection object has been handed out once. -/
structure Minted (s : State) : Prop where
  lt : ∀ t h c, .init t h (some c) ∈ s.trace → c < s.lib.nextConn
  unique : ∀ t h t' h' c, .init t h (some c) ∈ s.trace → .init t' h' (some c) ∈ s.trace →
    t = t' ∧ h = h'

lemma Issued.minted {s : State} (hs : Issued s) : Minted s := ⟨hs.lt, hs.unique⟩

lemma Issued.held_lt {s : State} (hs : Issued s) {h : HandlerPtr} {c : ConnPtr}
    (hc : s.connection h = some c) : c < s.lib.nextConn := by
  obtain ⟨t, ht⟩ := hs.holder h c hc
  exact hs.lt t h c ht

/-- No two handlers hold the same connection object. -/
lemma Issued.held_unique {s : State} (hs : Issued s) {h h' : HandlerPtr} {c : ConnPtr}
    (hc : s.connection h = some c) (hc' : s.connection h' = some c) : h = h' := by
  obtain ⟨t, ht⟩ := hs.holder h c hc
  obtain ⟨t', ht'⟩ := hs.holder h' c hc'
  exact (hs.unique t h t' h' c ht ht').2

section

variable {t : ThreadId} {e : Event} {s s' : State} {g : Last}

/-- A handler holds what it held before the event, or what the event gives it. -/
lemma Effect.held (heff : Effect t e s s') {h : HandlerPtr} {c : ConnPtr}
    (hc : s'.connection h = some c) :
    s.connection h = some c ∨ e = .assign t h (.m_stConnectionPtr (some c)) := by
  rw [State.connection, heff.heap h] at hc
  cases e with
  | new p =>
    simp only [Event.onObject] at hc
    split_ifs at hc
    · cases hc
    · exact .inl hc
  | delete p =>
    simp only [Event.onObject] at hc
    split_ifs at hc
    · cases hc
    · exact .inl hc
  | assign u p a =>
    obtain rfl : u = t := heff.by_
    simp only [Event.onObject] at hc
    split_ifs at hc with hp
    · obtain ⟨x', hx', hptr⟩ := Option.bind_eq_some_iff.mp hc
      obtain ⟨x, hx, rfl⟩ := Option.map_eq_some_iff.mp hx'
      cases a with
      | m_stConnectionPtr o =>
        obtain rfl : o = some c := hptr
        exact .inr (by rw [hp])
      | _ => exact .inl (Option.bind_eq_some_iff.mpr ⟨x, hx, hptr⟩)
    · exact .inl hc
  | _ => exact .inl hc

lemma Minted.step (hs : Minted s) (heff : Effect t e s s') : Minted s' := by
  -- an object handed out now is the next one
  have hnew {u : ThreadId} {h : HandlerPtr} {c : ConnPtr} (hmem : .init u h (some c) ∈ s'.trace) :
      .init u h (some c) ∈ s.trace ∨ e = .init u h (some c) ∧ c = s.lib.nextConn := by
    rw [heff.trace, List.mem_append, List.mem_singleton] at hmem
    rcases hmem with hmem | rfl
    · exact .inl hmem
    · exact .inr ⟨rfl, heff.occurs⟩
  have hle : s.lib.nextConn ≤ s'.lib.nextConn := by
    rw [heff.nextConn]
    unfold Event.onNextConn
    split <;> omega
  constructor
  case lt =>
    intro u h c hmem
    rcases hnew hmem with hmem | ⟨rfl, rfl⟩
    · exact Nat.lt_of_lt_of_le (hs.lt u h c hmem) hle
    · rw [heff.nextConn]
      exact Nat.lt_succ_self _
  case unique =>
    intro u h u' h' c hmem hmem'
    rcases hnew hmem with hmem | ⟨he, rfl⟩
    · rcases hnew hmem' with hmem' | ⟨-, rfl⟩
      · exact hs.unique u h u' h' c hmem hmem'
      · exact absurd (hs.lt u h _ hmem) (Nat.lt_irrefl _)
    · rcases hnew hmem' with hmem' | ⟨he', -⟩
      · exact absurd (hs.lt u' h' _ hmem') (Nat.lt_irrefl _)
      · cases he.symm.trans he'
        exact ⟨rfl, rfl⟩

lemma Issued.step (hs : Issued s) (heff : Effect t e s s') (hg : g.Recorded t s)
    (he : e.AllowedAfter g) : Issued s' := by
  obtain ⟨hlt, hunique⟩ := hs.minted.step heff
  have hsub : s.trace ⊆ s'.trace := heff.prefix.subset
  refine ⟨hlt, hunique, fun h c hc => ?_⟩
  rcases heff.held hc with hc | rfl
  · obtain ⟨u, hu⟩ := hs.holder h c hc
    exact ⟨u, hsub hu⟩
  · rcases he with he | rfl
    · cases he
    · exact ⟨t, hsub hg⟩

/-- An event that gives no handler a connection object. -/
lemma Issued.keep (hs : Issued s) (heff : Effect t e s s') (he : e.AllowedAfter .other) : Issued s' :=
  hs.step (g := .other) heff trivial he

lemma Event.OfServer.allowed {e : Event} (he : e.OfServer) : e.AllowedAfter .other := by
  cases e with
  | assign u h a => cases u <;> cases a <;> first | exact he.elim | trivial
  | leave => exact he.elim
  | _ => trivial

end

/-! ### Whole actions -/

section

variable {M : Machine Stmt Fault State ThreadId Reply} {b : Build} [IsPlugin M b] {t : ThreadId}
  {α : Type} {p : Code α} {s : State}

include b

lemma wp_issued (hp : Wired p) (hs : Issued s) :
    p.wp M t (fun _ _ => True) (fun _ => Issued) s := by
  refine wp_mono (wp_of_follows (J := fun g s => Issued s ∧ g.Recorded t s) (P := fun _ => True)
    (all_true p) (hp .other) ?_ (fun _ _ _ _ _ _ _ _ _ => trivial) (fun _ _ _ _ => trivial)
    ⟨hs, trivial⟩) fun _ s' ⟨_, hs'⟩ => hs'.1
  intro β g a s x s' _ ha ⟨hs, hg⟩ hst
  refine ⟨?_, Stmt.hands_recorded (IsPlugin.step hst)⟩
  obtain ⟨r, -, hrun⟩ := IsPlugin.step hst
  rcases Stmt.run_effect (ha.only t) hrun with rfl | ⟨e, he, heff⟩
  · exact hs
  · exact hs.step heff hg he

end

/-! ### The threads side by side -/

/-- The trace grows, and no other thread gives a handler an object of this one. -/
def issuedRely (_ : ThreadId) : Set (State → Prop) :=
  {f | f = Issued ∨ ∃ e, f = fun s => e ∈ s.trace}

section

variable {M : Machine Stmt Fault State ThreadId Reply} {b : Build} {t : ThreadId} {s s' : State}
  {e : Event}
  (hM : ∀ {t : ThreadId} {β : Type} {a : Stmt β} {s o s'}, M.Step t a s o s' →
    (plugin b).Step t a s o s')

lemma stable_issued : Stable (issuedRely t) Issued := .of_mem (.inl rfl)

lemma stable_mem (e : Event) : Stable (issuedRely t) fun s => e ∈ s.trace := .of_mem (.inr ⟨e, rfl⟩)

lemma stable_recorded (g : Last) : Stable (issuedRely t) (fun s => g.Recorded t s) := by
  cases g with
  | other => exact .const True
  | inited h o => exact stable_mem _
  | entered h f c => exact stable_mem _

lemma issued_guarantees (hs' : Issued s') (hpre : s.trace ⊆ s'.trace) :
    Guarantees issuedRely t s s' := by
  rintro u - f (rfl | ⟨e, rfl⟩) hf
  · exact hs'
  · exact hpre hf

lemma Issued.guarantees (hs : Issued s) (heff : Effect t e s s') (he : e.AllowedAfter .other) :
    Guarantees issuedRely t s s' ∧ Issued s' :=
  ⟨issued_guarantees (hs.keep heff he) heff.prefix.subset, hs.keep heff he⟩

include hM

lemma relies_issued {α : Type} {p : Code α} (hp : Wired p) (hs : Issued s) :
    p.Relies M issuedRely t (fun _ => Issued) s := by
  have hstep {β : Type} (g : Last) (a : Stmt β) (s : State) (o : Except Fault β) (s' : State)
      (ha : a.AllowedAfter g) (hs : Issued s ∧ g.Recorded t s) (hst : M.Step t a s o s') :
      Guarantees issuedRely t s s' ∧ Issued s' := by
    obtain ⟨r, -, hrun⟩ := hM hst
    rcases Stmt.run_effect (ha.only t) hrun with rfl | ⟨e, he, heff⟩
    · exact ⟨fun _ _ => .refl _ _, hs.1⟩
    · have hs' := hs.1.step heff hs.2 he
      exact ⟨issued_guarantees hs' heff.prefix.subset, hs'⟩
  have hstable (g : Last) : Stable (issuedRely t) fun s => Issued s ∧ g.Recorded t s :=
    stable_issued.and (stable_recorded g)
  refine (relies_of_follows (J := fun g s => Issued s ∧ g.Recorded t s) (P := fun _ => True)
    (all_true p) (hp .other) hstable ?_ ?_ ⟨hs, trivial⟩).mono fun _ s' ⟨_, hs'⟩ => hs'.1
  · intro β g a s x s' _ ha hs hst
    obtain ⟨hg, hs'⟩ := hstep g a s _ s' ha hs hst
    exact ⟨hg, hs', Stmt.hands_recorded (hM hst)⟩
  · intro β g a s x s' _ ha hs hst
    exact (hstep g a s _ s' ha hs hst).1

/-- The duties of the two threads, whatever natives the scripts call. -/
theorem issued_duties (N : Set NativeCall) (hN : Confined M N) :
    Duties M N issuedRely Issued Issued Issued Issued where
  stable_idle := stable_issued
  stable_ticking := stable_issued
  stable_asleep := stable_issued
  stable_sweeping := stable_issued
  native n s _ hs := relies_issued hM (native_wired n) hs
  amx e s s' he hs heff := by
    obtain ⟨a, rfl | rfl⟩ := he <;> exact hs.guarantees heff trivial
  tick s s' hs heff := hs.guarantees heff trivial
  visit i s hs := by
    refine relies_tickVisit hM hN stable_issued (fun a p s s' hs heff => hs.guarantees heff trivial)
      (fun n s _ hs => relies_issued hM (native_wired n) hs) (fun h a s s' ha hs heff => ?_) hs
    rcases ha with rfl | rfl | rfl <;> exact hs.guarantees heff trivial
  tickEnd s s' hs heff := hs.guarantees heff trivial
  wake e s s' he hs heff := by
    rcases he with rfl | rfl <;> exact hs.guarantees heff trivial
  sweep i s hs := relies_issued hM (workerVisit_wired i) hs
  sleep s s' hs heff := hs.guarantees heff trivial

/-- In every interleaving a connection object belongs to one handler. -/
theorem reachable_issued {N : Set NativeCall} (hN : Confined M N) {p_Amx : List Amx}
    {c : Config Stmt Fault State ThreadId Point}
    (hc : Config.Reachable M (Starts (MainCall.Only N)) (loaded p_Amx) c) : Issued c.shared :=
  (issued_duties hM N hN).invariant hM (.init_state p_Amx) (.init_state p_Amx)
    (fun _ => .inl rfl) (.init_state p_Amx) hc

end

end MySQLPlugin

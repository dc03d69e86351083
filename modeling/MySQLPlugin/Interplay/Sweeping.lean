import MySQLPlugin.Interplay.Rules

/-!
# Visits under the mutex

The worker visits handlers only while it holds the mutex, so that a section of the main thread under
the mutex begins after a sweep and ends before the next one.
-/

namespace MySQLPlugin

open Threads Prog CMySQLHandler

/-! ### The handler that is visited -/

def Event.onVisiting : Event → Option HandlerPtr → Option HandlerPtr
  | .visit h, _ => some h
  | .mark (.visitEnd _), _ => none
  | _, x => x

/-- The handler that the worker visits. -/
def visiting (es : List Event) : Option HandlerPtr := es.foldl (fun x e => e.onVisiting x) none

/-- The event neither begins nor ends a visit. -/
def Event.NoVisit : Event → Prop
  | .visit _ | .mark (.visitEnd _) => False
  | _ => True

/-- How often the thread has locked the mutex that it holds. -/
def State.locked (s : State) (t : ThreadId) : Option Nat :=
  s.mutex.bind fun m => if m.1 = t then some m.2 else none

/-- The worker visits a handler only while it holds the mutex. -/
def Sheltered (s : State) : Prop := visiting s.trace ≠ none → s.locked .worker ≠ none

section

variable {t : ThreadId} {e : Event} {s s' : State} {es : List Event}

lemma visiting_concat : visiting (es ++ [e]) = e.onVisiting (visiting es) := by
  simp [visiting]

lemma Effect.visiting (heff : Effect t e s s') (he : e.NoVisit) :
    visiting s'.trace = visiting s.trace := by
  rw [heff.trace, visiting_concat]
  cases e with
  | visit h => exact he.elim
  | mark m => cases m <;> first | exact he.elim | rfl
  | _ => rfl

lemma State.locked_congr {s s' : State} (h : s'.mutex = s.mutex) (t : ThreadId) :
    s'.locked t = s.locked t := by
  rw [State.locked, h, State.locked]

/-- A thread holds what it held, whatever the other thread executes. -/
lemma Stmt.run_locked {b : Build} {u : ThreadId} (hu : u ≠ t) {β : Type} {a : Stmt β} {r : Reply}
    {o : Except Fault β} (h : a.run b t r s = some (o, s')) : s'.locked u = s.locked u := by
  cases a with
  | lockMutex =>
    simp only [Stmt.run, Build.lock] at h
    cases hm : s.mutex with
    | none =>
      rw [hm] at h
      cases h
      simp [State.locked, hm, Ne.symm hu]
    | some m =>
      obtain ⟨v, n⟩ := m
      rw [hm] at h
      dsimp only at h
      by_cases hv : v = t
      · subst hv
        rw [if_pos rfl] at h
        cases b <;> cases h <;> simp [State.locked, hm, Ne.symm hu]
      · rw [if_neg hv] at h
        cases h
  | unlockMutex =>
    cases h
    cases hm : s.mutex with
    | none => simp [unlock, State.locked, hm]
    | some m =>
      obtain ⟨v, n⟩ := m
      by_cases hv : v = t
      · subst hv
        by_cases hn : n ≤ 1 <;> simp [unlock, State.locked, hm, hn, Ne.symm hu]
      · simp [unlock, State.locked, hm, hv]
  | _ =>
    simp only [Stmt.run] at h
    repeat' split at h
    all_goals cases h
    all_goals rfl

end

/-! ### The two threads -/

/-- The worker relies on the mutex that it holds, and on being the only one that visits. -/
def shelterRely : ThreadId → Set (State → Prop)
  | .main => {Sheltered}
  | .worker => {f | f = Sheltered ∨ ∃ R : Option Nat → Option HandlerPtr → Prop,
      f = fun s => R (s.locked .worker) (visiting s.trace)}

/-- The worker holds the mutex, and is on this visit. -/
def Sweeps (v : Option HandlerPtr) (s : State) : Prop :=
  s.locked .worker = some 1 ∧ visiting s.trace = v

/-- The worker does not hold the mutex. -/
def Asleep (s : State) : Prop := s.locked .worker = none ∧ visiting s.trace = none

lemma stable_sweeps (v : Option HandlerPtr) : Stable (shelterRely .worker) (Sweeps v) :=
  .of_mem (.inr ⟨fun n w => n = some 1 ∧ w = v, rfl⟩)

lemma stable_asleep : Stable (shelterRely .worker) Asleep :=
  .of_mem (.inr ⟨fun n w => n = none ∧ w = none, rfl⟩)

section

variable {M : Machine Stmt Fault State ThreadId Reply} {b : Build} {s s' : State} {e : Event}
  {v : Option HandlerPtr} {h : HandlerPtr} {α β : Type}
  (hM : ∀ {t : ThreadId} {β : Type} {a : Stmt β} {s o s'}, M.Step t a s o s' →
    (plugin b).Step t a s o s')

lemma main_shelters (hlocked : s'.locked .worker = s.locked .worker)
    (hvisiting : visiting s'.trace = visiting s.trace) : Guarantees shelterRely .main s s' := by
  intro u hu f hf hfs
  cases u with
  | main => exact absurd rfl hu
  | worker =>
    rcases hf with rfl | ⟨R, rfl⟩
    · show Sheltered s'
      rw [Sheltered, hlocked, hvisiting]
      exact hfs
    · show R (s'.locked .worker) (visiting s'.trace)
      rw [hlocked, hvisiting]
      exact hfs

lemma worker_shelters (hs' : Sheltered s') : Guarantees shelterRely .worker s s' := by
  intro u hu f hf _
  cases u with
  | worker => exact absurd rfl hu
  | main =>
    obtain rfl : f = Sheltered := hf
    exact hs'

lemma Sweeps.sheltered (hs : Sweeps v s) : Sheltered s := fun _ => by simp [hs.1]

lemma Asleep.sheltered (hs : Asleep s) : Sheltered s := fun h => absurd hs.2 h

/-- The mutex stays as it is. -/
def Event.KeepsMutex : Event → Prop
  | .lock _ | .relock _ | .unlock _ => False
  | _ => True

lemma Effect.locked {t u : ThreadId} (heff : Effect t e s s') (he : e.KeepsMutex) :
    s'.locked u = s.locked u := by
  refine State.locked_congr ?_ u
  rw [heff.mutex (by rintro rfl; exact he)]
  cases e with
  | lock => exact he.elim
  | unlock => exact he.elim
  | _ => rfl

/-- An event of the main thread that leaves the mutex alone. -/
lemma main_shelters_event (heff : Effect .main e s s') (hm : e.KeepsMutex) (hv : e.NoVisit) :
    Guarantees shelterRely .main s s' := main_shelters (heff.locked hm) (heff.visiting hv)

include hM

lemma main_shelters_step {a : Stmt β} {o : Except Fault β} (ha : a.Only .main Event.NoVisit)
    (hst : M.Step .main a s o s') : Guarantees shelterRely .main s s' := by
  obtain ⟨r, -, hrun⟩ := hM hst
  refine main_shelters (Stmt.run_locked (by simp) hrun) ?_
  rcases Stmt.run_effect ha hrun with rfl | ⟨e, he, heff⟩
  · rfl
  · exact heff.visiting he

lemma relies_shelters {p : Code α} (hp : p.All (Stmt.Only .main Event.NoVisit)) :
    p.Relies M shelterRely .main (fun _ _ => True) s :=
  relies_of_all (J := fun _ => True) hp (.const True)
    (fun _ _ _ _ ha _ hst => ⟨main_shelters_step hM ha hst, trivial⟩) trivial

/-- The events of the worker inside a visit. -/
def Event.WithinVisit : Event → Prop
  | .visit _ | .mark (.visitEnd _) => False
  | e => e.OfVisit

lemma relies_within {p : Code α} (hp : p.All (Stmt.Only .worker Event.WithinVisit)) (hs : Sweeps v s) :
    p.Relies M shelterRely .worker (fun _ => Sweeps v) s := by
  refine relies_of_only hM hp (stable_sweeps v) (fun e s s' he hs heff => ?_) hs
  have hs' : Sweeps v s' := by
    have hmutex : e.KeepsMutex := by
      cases e <;> first | exact he.elim | trivial
    have hvisit : e.NoVisit := by
      cases e with
      | mark m => cases m <;> exact he.elim
      | _ => first | exact he.elim | trivial
    rw [Sweeps, heff.locked hmutex, heff.visiting hvisit]
    exact hs
  exact ⟨worker_shelters hs'.sheltered, hs'⟩

omit hM in
/-- The events of a visit between its beginning and its end. -/
lemma visit_within (h : HandlerPtr) :
    (call h .mysql_ping).All (Stmt.Only .worker Event.WithinVisit) ∧
    (executeFront h).All (Stmt.Only .worker Event.WithinVisit) ∧
    (reconnectInBackground h).All (Stmt.Only .worker Event.WithinVisit) := by
  refine ⟨?_, ?_, ?_⟩
  · simp [call, all_lift_bind, Stmt.Only, Event.WithinVisit, Event.OfVisit, LibCall.Open]
  · simp only [executeFront, this, all_lift_bind]
    refine ⟨trivial, fun x => ?_⟩
    cases x.queueData with
    | nil => trivial
    | cons q qs =>
      simp [front, queryFailed, call, access, assign, bind_bind, ite_bind, all_lift_bind, all_ite,
        Stmt.Only, Event.WithinVisit, Event.OfVisit, Assign.OfVisit, LibCall.Open]
  · simp [reconnectInBackground, connect, this, call, access, assign, onResult, bind_bind, ite_bind,
      all_lift_bind, all_ite, Stmt.Only, Event.WithinVisit, Event.OfVisit, Assign.OfVisit,
      LibCall.Open]

/-- A visit begins and ends under the mutex. -/
lemma workerVisit_shelters (i : Nat) (hs : Sweeps none s) :
    (workerVisit i).Relies M shelterRely .worker (fun _ => Sweeps none) s := by
  refine relies_at hM (stable_sweeps none) hs fun h s hs _ => ?_
  refine relies_guard hM (stable_sweeps none) hs (fun x s₁ s₂ hs₁ _ _ heff => ?_)
    fun s hs => relies_ret (stable_sweeps none) hs
  have hs₂ : Sweeps (some h) s₂ := by
    rw [Sweeps, heff.locked trivial, heff.trace, visiting_concat]
    exact ⟨hs₁.1, rfl⟩
  obtain ⟨hping, hexecute, hreconnect⟩ := visit_within h
  refine ⟨worker_shelters hs₂.sheltered, ?_⟩
  rw [if_pos rfl]
  refine .bind ((relies_within hM hping hs₂).mono fun ok s hs => .bind ?_)
  refine Relies.mono (Q := fun _ => Sweeps (some h)) ?_ fun _ s hs => ?_
  · cases ok with
    | true => exact relies_within hM hexecute hs
    | false => exact relies_within hM hreconnect hs
  · rw [← bind_ret_right (Prog.lift _)]
    refine relies_mark hM (stable_sweeps (some h)) hs fun s₁ s₂ hs₁ heff => ?_
    have hs₂ : Sweeps none s₂ := by
      rw [Sweeps, heff.locked trivial, heff.trace, visiting_concat]
      exact ⟨hs₁.1, rfl⟩
    exact ⟨worker_shelters hs₂.sheltered, relies_ret (stable_sweeps none) hs₂⟩

lemma shelter_duties {N : Set NativeCall} (hN : Confined M N) (hopen : ∀ n ∈ N, n.Open) :
    Duties M N shelterRely (fun _ => True) (fun _ => True) Asleep (Sweeps none) := by
  have hnative (n : NativeCall) (hn : n ∈ N) (s : State) :
      (native n).Relies M shelterRely .main (fun _ _ => True) s := by
    refine relies_shelters hM (all_only_mono (native_ofNative .main (hopen n hn)) fun e he => ?_)
    cases e with
    | visit => exact he.elim
    | mark m => cases m <;> first | exact he.elim | trivial
    | _ => trivial
  exact
    { stable_idle := .const True
      stable_ticking := .const True
      stable_asleep := stable_asleep
      stable_sweeping := stable_sweeps none
      native := fun n s hn _ => hnative n hn s
      amx := fun e s s' he _ heff => by
        obtain ⟨a, rfl | rfl⟩ := he <;> exact ⟨main_shelters_event heff trivial trivial, trivial⟩
      tick := fun s s' _ heff => ⟨main_shelters_event heff trivial trivial, trivial⟩
      visit := fun i s hs => relies_tickVisit (I := fun _ => True) hM hN (.const True)
        (fun a p s s' _ heff => ⟨main_shelters_event heff trivial trivial, trivial⟩)
        (fun n s hn _ => hnative n hn s)
        (fun h a s s' _ _ heff => ⟨main_shelters_event heff trivial trivial, trivial⟩) hs
      tickEnd := fun s s' _ heff => ⟨main_shelters_event heff trivial trivial, trivial⟩
      wake := fun e s s' he hs heff => by
        rcases he with rfl | rfl
        · have hs' : Sweeps none s' := by
            rw [Sweeps, heff.visiting trivial, State.locked, heff.mutex (by simp)]
            exact ⟨rfl, hs.2⟩
          exact ⟨worker_shelters hs'.sheltered, hs'⟩
        · obtain ⟨n, hn⟩ := heff.occurs
          have hlocked := hs.1
          simp [State.locked, hn] at hlocked
      sweep := fun i s hs => workerVisit_shelters hM i hs
      sleep := fun s s' hs heff => by
        have hs' : Asleep s' := by
          have hlocked := hs.1
          obtain ⟨⟨u, n⟩, hm, hown⟩ := Option.bind_eq_some_iff.mp hlocked
          by_cases hu : u = .worker
          · subst hu
            obtain rfl : n = 1 := by simpa using hown
            rw [Asleep, heff.visiting trivial, State.locked, heff.mutex (by simp), hm]
            exact ⟨rfl, hs.2⟩
          · simp [hu] at hown
        exact ⟨worker_shelters hs'.sheltered, hs'⟩ }

/-- In every interleaving without `mysql_close` the worker visits handlers under the mutex. -/
theorem reachable_sheltered {N : Set NativeCall} (hN : Confined M N) (hopen : ∀ n ∈ N, n.Open)
    {p_Amx : List Amx} {c : Config Stmt Fault State ThreadId Point}
    (hc : Config.Reachable M (Starts (MainCall.Only N)) (loaded p_Amx) c) : Sheltered c.shared := by
  have hasleep : Asleep (State.init p_Amx) := ⟨rfl, rfl⟩
  exact (shelter_duties hM hN hopen).invariant hM trivial hasleep
    (fun t => by cases t; exacts [rfl, .inl rfl]) hasleep.sheltered hc

end

end MySQLPlugin

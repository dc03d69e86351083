import MySQLPlugin.Logic.Footprint

/-!
# Runs of the plugin

What the single statements do when they return a value, and the runs in which native calls, visits
of the worker and visits of `ProcessTick` follow one another, each to its end.
-/

namespace MySQLPlugin

open Threads Prog CMySQLHandler

/-! ### Single statements -/

section

variable {b : Build} {t : ThreadId} {s s' : State} {h : HandlerPtr}

lemma step_size_iff {o : Except Fault Nat} :
    (plugin b).Step t .size s o s' ↔ o = .ok s.SQLHandle.length ∧ s' = s := by
  constructor
  · rintro ⟨r, _, hrun⟩
    cases hrun
    exact ⟨rfl, rfl⟩
  · rintro ⟨rfl, rfl⟩
    exact ⟨{}, trivial, rfl⟩

lemma step_size {n : Nat} (hst : (plugin b).Step t .size s (.ok n) s') :
    s' = s ∧ n = s.SQLHandle.length := by
  obtain ⟨hn, hs⟩ := step_size_iff.mp hst
  exact ⟨hs, by simpa using hn⟩

lemma step_table {T : List HandlerPtr} (hst : (plugin b).Step t .table s (.ok T) s') :
    s' = s ∧ T = s.SQLHandle := by
  obtain ⟨r, _, hrun⟩ := hst
  cases hrun
  exact ⟨rfl, rfl⟩

lemma step_scripts {l : List Amx} (hst : (plugin b).Step t .scripts s (.ok l) s') :
    s' = s ∧ l = s.p_Amx := by
  obtain ⟨r, _, hrun⟩ := hst
  cases hrun
  exact ⟨rfl, rfl⟩

lemma step_at_iff {i : Nat} {o : Except Fault HandlerPtr} :
    (plugin b).Step t (.at i) s o s' ↔
      o = s.SQLHandle[i]?.elim (.error .outOfRange) .ok ∧ s' = s := by
  have hrun : ∀ r : Reply, (plugin b).exec t (.at i) r s =
      some (s.SQLHandle[i]?.elim (.error .outOfRange) .ok, s) := by
    intro r
    simp only [plugin, Stmt.run]
    cases s.SQLHandle[i]? <;> rfl
  constructor
  · rintro ⟨r, _, hr⟩
    rw [hrun r] at hr
    cases hr
    exact ⟨rfl, rfl⟩
  · rintro ⟨rfl, rfl⟩
    exact ⟨{}, trivial, hrun _⟩

lemma step_at {i : Nat} (hst : (plugin b).Step t (.at i) s (.ok h) s') :
    s' = s ∧ s.SQLHandle[i]? = some h := by
  obtain ⟨ho, hs⟩ := step_at_iff.mp hst
  cases hi : s.SQLHandle[i]? with
  | some p =>
    rw [hi] at ho
    cases ho
    exact ⟨hs, rfl⟩
  | none =>
    rw [hi] at ho
    cases ho

lemma step_this {x : CMySQLHandler} (hst : (plugin b).Step t (.this h) s (.ok x) s') :
    s' = s ∧ s.heap h = some x := by
  obtain ⟨r, _, hrun⟩ := hst
  simp only [plugin, Stmt.run] at hrun
  split at hrun
  · rename_i y hy
    cases hrun
    exact ⟨rfl, hy⟩
  · cases hrun

lemma step_assign {a : Assign} {u : Unit} (hst : (plugin b).Step t (.assign h a) s (.ok u) s') :
    Effect t (.assign t h a) s s' := by
  obtain ⟨e, rfl, heff⟩ := Stmt.Records.effect (a := .assign h a) (P := (· = .assign t h a))
    trivial rfl hst
  exact heff

/-- An assignment fails only on a deleted object, or when it is not defined. -/
lemma step_assign_error {a : Assign} {e : Fault}
    (hst : (plugin b).Step t (.assign h a) s (.error e) s') {x : CMySQLHandler}
    (hx : s.heap h = some x) : a.defined x = false := by
  obtain ⟨r, _, hrun⟩ := hst
  simp only [plugin, Stmt.run, hx] at hrun
  split_ifs at hrun with hdef
  · cases hrun
  · simpa using hdef

lemma step_guard {v : Bool} (hst : (plugin b).Step t (.guard h) s (.ok v) s') :
    ∃ x, s.heap h = some x ∧ v = x.ready ∧ if v then Effect t (.visit h) s s' else s' = s := by
  obtain ⟨r, _, hrun⟩ := hst
  simp only [plugin, Stmt.run] at hrun
  split at hrun
  · rename_i x hx
    refine ⟨x, hx, ?_⟩
    split_ifs at hrun with hready
    · cases hrun
      exact ⟨hready.symm, Effect.record trivial trivial ⟨x, hx, hready⟩⟩
    · cases hrun
      exact ⟨by simpa using hready, rfl⟩
  · cases hrun

lemma step_mark {m : Mark} {u : Unit} (hst : (plugin b).Step t (.mark m) s (.ok u) s') :
    Effect t (.mark m) s s' := by
  obtain ⟨e, rfl, heff⟩ := Stmt.Records.effect (a := .mark m) (P := (· = .mark m)) trivial rfl hst
  exact heff

lemma step_new {host user passw db : CString} {port : BitVec 32}
    (hst : (plugin b).Step t (.new host user passw db port) s (.ok h) s') :
    Effect t (.new h host user passw db port) s s' := by
  obtain ⟨e, ⟨q, rfl⟩, heff⟩ := Stmt.Records.effect (a := .new host user passw db port)
    (P := fun e => ∃ q, e = .new q host user passw db port) trivial (fun q => ⟨q, rfl⟩) hst
  have hh : h = s.nextHandler := by
    obtain ⟨r, _, hrun⟩ := hst
    simp only [plugin, Stmt.run] at hrun
    split_ifs at hrun <;> cases hrun
    rfl
  obtain rfl : q = h := heff.occurs.1.trans hh.symm
  exact heff

lemma step_pushBack {u : Unit} (hst : (plugin b).Step t (.pushBack h) s (.ok u) s') :
    Effect t (.pushBack h) s s' := by
  obtain ⟨e, rfl, heff⟩ := Stmt.Records.effect (a := .pushBack h) (P := (· = .pushBack h))
    trivial rfl hst
  exact heff

lemma step_erase {i : Nat} {u : Unit} (hst : (plugin b).Step t (.erase i) s (.ok u) s') :
    ∃ h, Effect t (.erase i h) s s' := by
  obtain ⟨e, ⟨h, rfl⟩, heff⟩ := Stmt.Records.effect (a := .erase i)
    (P := fun e => ∃ h, e = .erase i h) trivial (fun h => ⟨h, rfl⟩) hst
  exact ⟨h, heff⟩

lemma step_delete {u : Unit} (hst : (plugin b).Step t (.delete h) s (.ok u) s') :
    Effect t (.delete h) s s' := by
  obtain ⟨e, rfl, heff⟩ := Stmt.Records.effect (a := .delete h) (P := (· = .delete h)) trivial rfl hst
  exact heff

lemma step_unlock {u : Unit} (hst : (plugin b).Step t .unlockMutex s (.ok u) s') :
    Effect t (.unlock t) s s' := by
  obtain ⟨e, rfl, heff⟩ := Stmt.Records.effect (a := .unlockMutex) (P := (· = .unlock t))
    trivial rfl hst
  exact heff

lemma step_leave {c : ConnPtr} {f : LibCall} {v : f.Ret}
    (hst : (plugin b).Step t (.leave h c f) s (.ok v) s') :
    ∃ ok, Effect t (.leave t h f c ok) s s' := by
  obtain ⟨e, ⟨ok, rfl⟩, heff⟩ := Stmt.Records.effect (a := .leave h c f)
    (P := fun e => ∃ ok, e = .leave t h f c ok) trivial (fun ok => ⟨ok, rfl⟩) hst
  exact ⟨ok, heff⟩

lemma step_init {o : Option ConnPtr} (hst : (plugin b).Step t (.mysql_init h) s (.ok o) s') :
    Effect t (.init t h o) s s' := by
  obtain ⟨e, ⟨o', rfl⟩, heff⟩ := Stmt.Records.effect (a := .mysql_init h)
    (P := fun e => ∃ o, e = .init t h o) trivial (fun o => ⟨o, rfl⟩) hst
  obtain ⟨r, _, hrun⟩ := hst
  have htrace : s'.trace = s.trace ++ [.init t h o] := by
    simp only [plugin, Stmt.run] at hrun
    split_ifs at hrun <;> cases hrun <;> rfl
  rw [heff.trace] at htrace
  have ho : o' = o := by simpa using htrace
  exact ho ▸ heff

lemma step_enter {f : LibCall} {c : ConnPtr} (hst : (plugin b).Step t (.enter h f) s (.ok c) s') :
    Effect t (.enter t h f (some c)) s s' := by
  obtain ⟨e, ⟨o, rfl⟩, heff⟩ := Stmt.Records.effect (a := .enter h f)
    (P := fun e => ∃ o, e = .enter t h f o) trivial (fun o => ⟨o, rfl⟩) hst
  obtain ⟨r, _, hrun⟩ := hst
  have htrace : s'.trace = s.trace ++ [.enter t h f (some c)] := by
    simp only [plugin, Stmt.run] at hrun
    split at hrun
    · split at hrun <;> cases hrun
      rfl
    · cases hrun
  rw [heff.trace] at htrace
  have ho : o = some c := by simpa using htrace
  exact ho ▸ heff

/-- A call of libmysql fails without a connection object. -/
lemma step_enter_error {f : LibCall} {e : Fault}
    (hst : (plugin b).Step t (.enter h f) s (.error e) s') :
    s' = s ∨ Effect t (.enter t h f none) s s' := by
  obtain ⟨r, _, hrun⟩ := hst
  simp only [plugin, Stmt.run] at hrun
  split at hrun
  · rename_i x hx
    split at hrun
    · cases hrun
    · rename_i hc
      cases hrun
      exact .inr (.record trivial rfl ⟨x, hx, hc⟩)
  · cases hrun
    exact .inl rfl

/-- `mysql_real_query` returns whether the query has succeeded. -/
lemma step_leave_query {c : ConnPtr} {query : CString} {v : Bool}
    (hst : (plugin b).Step t (.leave h c (.mysql_real_query query)) s (.ok v) s') :
    Effect t (.leave t h (.mysql_real_query query) c v) s s' := by
  obtain ⟨ok, heff⟩ := step_leave hst
  obtain ⟨r, _, hrun⟩ := hst
  have htrace : s'.trace = s.trace ++ [.leave t h (.mysql_real_query query) c v] := by
    simp only [plugin, Stmt.run, Libmysql.answer] at hrun
    split_ifs at hrun with hr <;> cases hrun <;> simp [hr]
  rw [heff.trace] at htrace
  have hok : ok = v := by simpa using htrace
  exact hok ▸ heff

lemma step_exec {a : Amx} {p : Public} {natives : List NativeCall}
    (hst : (plugin b).Step t (.exec a p) s (.ok natives) s') : Effect t (.exec a p) s s' := by
  obtain ⟨e, rfl, heff⟩ := Stmt.Records.effect (a := .exec a p) (P := (· = .exec a p)) trivial rfl hst
  exact heff

end

/-- A statement that takes no lock is not blocked, whatever the reply. -/
lemma Stmt.Only.run_isSome {t : ThreadId} {P : Event → Prop} (hP : ¬ P (.lock t)) {β : Type}
    {a : Stmt β} (ha : a.Only t P) (b : Build) (r : Reply) (s : State) :
    (a.run b t r s).isSome := by
  cases a with
  | lockMutex => exact absurd ha.1 hP
  | _ => (simp only [Stmt.run]; repeat' (first | rfl | split))

/-- A rule for a program that starts with a statement. -/
lemma wp_step {M : Machine Stmt Fault State ThreadId Reply} {t : ThreadId}
    {E : Fault → State → Prop} {α β : Type} {a : Stmt β} {f : β → Code α} {Q : α → State → Prop}
    {s : State} (hok : ∀ x s', M.Step t a s (.ok x) s' → (f x).wp M t E Q s')
    (herr : ∀ e s', M.Step t a s (.error e) s' → E e s') :
    (Prog.lift a >>= f).wp M t E Q s := by
  rw [wp_bind]
  exact ⟨hok, herr⟩

/-! ### What the scripts may call -/

/-- A public called by `ProcessTick` calls only natives of `N`. -/
def Stmt.Calls (N : Set NativeCall) {β : Type} : Stmt β → Reply → Prop
  | .exec _ _, r => ∀ n ∈ r.natives, n ∈ N
  | _, _ => True

/-- The plugin with scripts whose publics call only natives of `N`. -/
def allowing (b : Build) (N : Set NativeCall) : Machine Stmt Fault State ThreadId Reply :=
  (plugin b).restrict fun _ a r _ => a.Calls N r

lemma step_of_allowing {b : Build} {N : Set NativeCall} {t : ThreadId} {β : Type} {a : Stmt β}
    {s s' : State} {o : Except Fault β} (h : (allowing b N).Step t a s o s') :
    (plugin b).Step t a s o s' := h.of_restrict

/-- The native that a script calls with this statement. -/
def Stmt.called {β : Type} : Stmt β → Option NativeCall
  | .mark (.call n) => some n
  | _ => none

/-- A script calls a native only where the precondition `P` of the call holds. -/
def Stmt.Meets (P : NativeCall → State → Prop) {β : Type} (a : Stmt β) (s : State) : Prop :=
  ∀ n ∈ a.called, P n s

instance {P : NativeCall → State → Prop} [∀ n s, Decidable (P n s)] {β : Type} (a : Stmt β)
    (s : State) : Decidable (a.Meets P s) :=
  inferInstanceAs (Decidable (∀ n ∈ a.called, P n s))

/-- The plugin with scripts that respect the preconditions `P`. -/
def calling (b : Build) (P : NativeCall → State → Prop) :
    Machine Stmt Fault State ThreadId Reply :=
  (plugin b).restrict fun _ a _ s => a.Meets P s

/-- The handler whose connection has been pinged when this statement ends. -/
def Stmt.pinged {β : Type} : Stmt β → Option HandlerPtr
  | .leave h _ .mysql_ping => some h
  | _ => none

/-- A ping of the worker fails only where `W` allows it. -/
def Stmt.Pings (W : HandlerPtr → State → Prop) (t : ThreadId) {β : Type} (a : Stmt β) (r : Reply)
    (s : State) : Prop :=
  ∀ h ∈ a.pinged, t = .worker → r.ok = false → W h s

instance {W : HandlerPtr → State → Prop} [∀ h s, Decidable (W h s)] {t : ThreadId} {β : Type}
    (a : Stmt β) (r : Reply) (s : State) : Decidable (a.Pings W t r s) :=
  inferInstanceAs (Decidable (∀ h ∈ a.pinged, t = .worker → r.ok = false → W h s))

/-- The plugin with scripts that respect the preconditions `P`, and a server that answers the pings
of the worker unless `W` holds. -/
def answering (b : Build) (P : NativeCall → State → Prop) (W : HandlerPtr → State → Prop) :
    Machine Stmt Fault State ThreadId Reply :=
  (plugin b).restrict fun t a r s => a.Meets P s ∧ a.Pings W t r s

/-- The machine is the plugin in some environment. -/
class IsPlugin (M : Machine Stmt Fault State ThreadId Reply) (b : outParam Build) : Prop where
  exec_eq {t : ThreadId} {β : Type} (a : Stmt β) (r : Reply) (s : State) :
    M.exec t a r s = a.run b t r s

instance (b : Build) (R : ∀ {β : Type}, ThreadId → Stmt β → Reply → State → Prop) :
    IsPlugin ((plugin b).restrict R) b := ⟨fun _ _ _ => rfl⟩

instance (b : Build) : IsPlugin (plugin b) b := ⟨fun _ _ _ => rfl⟩

instance (b : Build) (N : Set NativeCall) : IsPlugin (allowing b N) b := ⟨fun _ _ _ => rfl⟩

instance (b : Build) (P : NativeCall → State → Prop) : IsPlugin (calling b P) b :=
  ⟨fun _ _ _ => rfl⟩

instance (b : Build) (P : NativeCall → State → Prop) (W : HandlerPtr → State → Prop) :
    IsPlugin (answering b P W) b := ⟨fun _ _ _ => rfl⟩

/-- A program that takes no lock has a run, where the environment has a reply to every statement. -/
lemma IsPlugin.exists_run_admitted {M : Machine Stmt Fault State ThreadId Reply} {b : Build}
    [IsPlugin M b] {t : ThreadId} (hM : ∀ {β : Type} (a : Stmt β) s, ∃ r, M.admits t a r s)
    {P : Event → Prop} (hP : ¬ P (.lock t)) {α : Type} {p : Code α} (hp : p.All (Stmt.Only t P))
    (s : State) : ∃ o s', Run M t p s o s' := by
  refine Prog.exists_run (P := Stmt.Only t P) (fun a s ha => ?_) hp s
  obtain ⟨r, hr⟩ := hM a s
  obtain ⟨⟨o, s'⟩, hrun⟩ := Option.isSome_iff_exists.mp (ha.run_isSome hP b r s)
  exact ⟨o, s', r, hr, (exec_eq a r s).trans hrun⟩

lemma IsPlugin.exists_run {M : Machine Stmt Fault State ThreadId Reply} {b : Build} [IsPlugin M b]
    {t : ThreadId} (hM : ∀ {β : Type} (a : Stmt β) s, M.admits t a {} s) {P : Event → Prop}
    (hP : ¬ P (.lock t)) {α : Type} {p : Code α} (hp : p.All (Stmt.Only t P)) (s : State) :
    ∃ o s', Run M t p s o s' :=
  IsPlugin.exists_run_admitted (fun a s => ⟨{}, hM a s⟩) hP hp s

/-- A native that only looks has a run. -/
lemma NativeCall.Looks.exists_run {M : Machine Stmt Fault State ThreadId Reply} {b : Build}
    [IsPlugin M b] {n : NativeCall} (hn : n.Looks) {t : ThreadId}
    (hM : ∀ {β : Type} (a : Stmt β) s, ∃ r, M.admits t a r s) (s : State) :
    ∃ o s', Run M t (native n) s o s' := by
  refine IsPlugin.exists_run_admitted hM (fun hlock => ?_) (native_looks t hn) s
  rcases hlock with h | ⟨m, h⟩
  · exact h
  · cases h

/-- No other thread holds the mutex. -/
def State.FreeFor (t : ThreadId) (s : State) : Prop := ∀ u n, s.mutex = some (u, n) → u = t

lemma Stmt.run_freeFor {b : Build} {t : ThreadId} {β : Type} {a : Stmt β} {r : Reply} {s s' : State}
    {o : Except Fault β} (hs : s.FreeFor t) (h : a.run b t r s = some (o, s')) : s'.FreeFor t := by
  cases a with
  | lockMutex =>
    simp only [Stmt.run, Build.lock] at h
    repeat' split at h
    all_goals cases h
    · intro u n hu
      cases hu
      rfl
    · intro u n hu
      cases hu
      rfl
    · exact hs
  | unlockMutex =>
    cases h
    simp only [unlock]
    split
    · split_ifs
      · intro u n hu
        cases hu
      · intro u n hu
        cases hu
        rfl
      · exact hs
    · exact hs
  | _ =>
    simp only [Stmt.run] at h
    repeat' split at h
    all_goals cases h
    all_goals exact hs

/-- While no other thread holds the mutex, every program has a run. -/
lemma IsPlugin.exists_run_alone {M : Machine Stmt Fault State ThreadId Reply} {b : Build}
    [IsPlugin M b] {t : ThreadId} (hM : ∀ {β : Type} (a : Stmt β) s, ∃ r, M.admits t a r s) {α : Type}
    (p : Code α) {s : State} (hs : s.FreeFor t) : ∃ o s', Run M t p s o s' := by
  refine Prog.exists_run_of (I := fun s => s.FreeFor t) (fun a s hs => ?_) p hs
  obtain ⟨r, hr⟩ := hM a s
  have hrun : ∃ o s', a.run b t r s = some (o, s') := by
    cases a with
    | lockMutex =>
      simp only [Stmt.run, Build.lock]
      split
      · exact ⟨_, _, rfl⟩
      · rename_i u n hm
        rw [if_pos (hs u n hm)]
        cases b <;> exact ⟨_, _, rfl⟩
    | _ => (simp only [Stmt.run]; repeat' (first | exact ⟨_, _, rfl⟩ | split))
  obtain ⟨o, s', hrun⟩ := hrun
  exact ⟨o, s', ⟨r, hr, (exec_eq a r s).trans hrun⟩, Stmt.run_freeFor hs hrun⟩

lemma IsPlugin.step {M : Machine Stmt Fault State ThreadId Reply} {b : Build} [IsPlugin M b]
    {t : ThreadId} {β : Type} {a : Stmt β} {s s' : State} {o : Except Fault β}
    (h : M.Step t a s o s') : (plugin b).Step t a s o s' := by
  obtain ⟨r, -, hrun⟩ := h
  exact ⟨r, trivial, (exec_eq a r s).symm.trans hrun⟩

/-- A reply without calls of natives is always possible. -/
lemma admits_of_silent {b : Build} {N : Set NativeCall} {t : ThreadId} {β : Type} {a : Stmt β}
    {r : Reply} {s : State} (hr : r.natives = []) : (allowing b N).admits t a r s := by
  refine ⟨trivial, ?_⟩
  cases a <;> simp [Stmt.Calls, hr]

lemma mem_of_allowing {b : Build} {N : Set NativeCall} {t : ThreadId} {a : Amx} {p : Public}
    {s s' : State} {natives : List NativeCall}
    (h : (allowing b N).Step t (.exec a p) s (.ok natives) s') : ∀ n ∈ natives, n ∈ N := by
  obtain ⟨r, ⟨_, hr⟩, hrun⟩ := h
  cases hrun
  exact hr

/-- The publics of the scripts call only natives of `N`. -/
def Confined (M : Machine Stmt Fault State ThreadId Reply) (N : Set NativeCall) : Prop :=
  ∀ a p s natives s', M.Step .main (.exec a p) s (.ok natives) s' → ∀ n ∈ natives, n ∈ N

lemma confined_allowing (b : Build) (N : Set NativeCall) : Confined (allowing b N) N :=
  fun _ _ _ _ _ hst => mem_of_allowing hst

lemma confined_univ (M : Machine Stmt Fault State ThreadId Reply) : Confined M Set.univ :=
  fun _ _ _ _ _ _ n _ => Set.mem_univ n

section

variable {M : Machine Stmt Fault State ThreadId Reply} {b : Build} [IsPlugin M b] {t : ThreadId}
  {E : Fault → State → Prop} {α : Type} {Q : α → State → Prop} {s : State} {h : HandlerPtr}

include b

lemma wp_at {i : Nat} {f : HandlerPtr → Code α} (hE : ∀ e, E e s)
    (hf : ∀ h, s.SQLHandle[i]? = some h → (f h).wp M t E Q s) :
    (Prog.lift (.at i) >>= f).wp M t E Q s := by
  refine wp_step (fun h s' hst => ?_) fun e s' hst => ?_
  · obtain ⟨rfl, hi⟩ := step_at (IsPlugin.step hst)
    exact hf h hi
  · obtain ⟨r, _, hrun⟩ := IsPlugin.step hst
    simp only [plugin, Stmt.run] at hrun
    split at hrun <;> cases hrun
    exact hE _

/-- The entry is there. -/
lemma wp_entry {i : Nat} {f : HandlerPtr → Code α} (hi : s.SQLHandle[i]? = some h)
    (hf : (f h).wp M t E Q s) : (Prog.lift (.at i) >>= f).wp M t E Q s := by
  refine wp_step (fun p s' hst => ?_) fun e s' hst => ?_
  · obtain ⟨rfl, hp⟩ := step_at (IsPlugin.step hst)
    obtain rfl : h = p := Option.some.inj (hi.symm.trans hp)
    exact hf
  · have he := (step_at_iff.mp (IsPlugin.step hst)).1
    rw [hi] at he
    cases he

lemma wp_this {f : CMySQLHandler → Code α} (hE : ∀ e, E e s)
    (hf : ∀ x, s.heap h = some x → (f x).wp M t E Q s) :
    (this h >>= f).wp M t E Q s := by
  refine wp_step (fun x s' hst => ?_) fun e s' hst => ?_
  · obtain ⟨rfl, hx⟩ := step_this (IsPlugin.step hst)
    exact hf x hx
  · obtain ⟨r, _, hrun⟩ := IsPlugin.step hst
    simp only [plugin, Stmt.run] at hrun
    split at hrun <;> cases hrun
    exact hE _

/-- The object is there. -/
lemma wp_object {x : CMySQLHandler} {f : CMySQLHandler → Code α} (hx : s.heap h = some x)
    (hf : (f x).wp M t E Q s) : (this h >>= f).wp M t E Q s := by
  refine wp_step (fun y s' hst => ?_) fun e s' hst => ?_
  · obtain ⟨rfl, hy⟩ := step_this (IsPlugin.step hst)
    obtain rfl : x = y := Option.some.inj (hx.symm.trans hy)
    exact hf
  · obtain ⟨r, _, hrun⟩ := IsPlugin.step hst
    simp only [plugin, Stmt.run, hx] at hrun
    cases hrun

/-- An assignment to an object that is there. -/
lemma wp_assign_held {x : CMySQLHandler} {a : Assign} {f : Unit → Code α} (hx : s.heap h = some x)
    (hdef : a.defined x = true)
    (hf : ∀ s', Effect t (.assign t h a) s s' → s'.lib = s.lib → (f ()).wp M t E Q s') :
    (assign h a >>= f).wp M t E Q s := by
  refine wp_step (fun _ s' hst => hf s' (step_assign (IsPlugin.step hst)) ?_) fun e s' hst => ?_
  all_goals
    obtain ⟨r, _, hrun⟩ := IsPlugin.step hst
    simp only [plugin, Stmt.run, hx, hdef, if_true] at hrun
    cases hrun
  rfl

/-- A call of libmysql on an object that holds a connection. -/
lemma wp_enter_held {x : CMySQLHandler} {c : ConnPtr} {f : LibCall} {k : ConnPtr → Code α}
    (hx : s.heap h = some x) (hc : x.m_stConnectionPtr = some c)
    (hk : ∀ s', Effect t (.enter t h f (some c)) s s' → s'.lib = s.lib.begin c f →
      (k c).wp M t E Q s') :
    (Prog.lift (.enter h f) >>= k).wp M t E Q s := by
  refine wp_step (fun d s' hst => ?_) fun e s' hst => ?_
  · have heff := step_enter (IsPlugin.step hst)
    obtain ⟨r, _, hrun⟩ := IsPlugin.step hst
    simp only [plugin, Stmt.run, hx, hc] at hrun
    cases hrun
    exact hk _ heff rfl
  · obtain ⟨r, _, hrun⟩ := IsPlugin.step hst
    simp only [plugin, Stmt.run, hx, hc] at hrun
    cases hrun

lemma wp_access_held {x : CMySQLHandler} {c : ConnPtr} {f : LibAccess} {k : f.Ret → Code α}
    (hx : s.heap h = some x) (hc : x.m_stConnectionPtr = some c)
    (hk : ∀ r s', M.admits t (.access h f) r s → Effect t (.access t h f (some c)) s s' →
      (k (s.lib.access c r f)).wp M t E Q s') :
    (access h f >>= k).wp M t E Q s := by
  refine wp_step (fun v s' hst => ?_) fun e s' hst => ?_
  all_goals
    obtain ⟨r, hr, hrun⟩ := hst
    rw [IsPlugin.exec_eq] at hrun
    simp only [Stmt.run, hx, hc] at hrun
    cases hrun
  exact hk r _ hr (.record trivial rfl ⟨x, hx, hc⟩)

/-- An assignment does not change the objects of libmysql. -/
lemma wp_assign_lib {a : Assign} {f : Unit → Code α} (hE : ∀ e, E e s)
    (hf : ∀ s', Effect t (.assign t h a) s s' → s'.lib = s.lib → (f ()).wp M t E Q s') :
    (assign h a >>= f).wp M t E Q s := by
  refine wp_step (fun _ s' hst => hf s' (step_assign (IsPlugin.step hst)) ?_) fun e s' hst => ?_
  all_goals
    obtain ⟨r, _, hrun⟩ := IsPlugin.step hst
    simp only [plugin, Stmt.run] at hrun
    repeat' split at hrun
  all_goals cases hrun
  · rfl
  · exact hE _
  · exact hE _

lemma wp_assign {a : Assign} {f : Unit → Code α} (hE : ∀ e, E e s)
    (hf : ∀ s', Effect t (.assign t h a) s s' → (f ()).wp M t E Q s') :
    (assign h a >>= f).wp M t E Q s :=
  wp_assign_lib hE fun s' heff _ => hf s' heff

lemma wp_access_lib {f : LibAccess} {k : f.Ret → Code α} (hE : ∀ e s', E e s')
    (hk : ∀ c r s', Effect t (.access t h f (some c)) s s' → s'.lib = s.lib →
      (k (s.lib.access c r f)).wp M t E Q s') :
    (access h f >>= k).wp M t E Q s := by
  refine wp_step (fun v s' hst => ?_) fun e s' hst => hE e s'
  obtain ⟨r, _, hrun⟩ := IsPlugin.step hst
  simp only [plugin, Stmt.run] at hrun
  split at hrun
  · rename_i x hx
    split at hrun
    · rename_i c hc
      cases hrun
      exact hk c r _ (.record trivial rfl ⟨x, hx, hc⟩) rfl
    · cases hrun
  · cases hrun

lemma wp_mark {m : Mark} {f : Unit → Code α}
    (hf : ∀ s', Effect t (.mark m) s s' → (f ()).wp M t E Q s') :
    (Prog.lift (.mark m) >>= f).wp M t E Q s := by
  refine wp_step (fun x s' hst => hf s' (step_mark (IsPlugin.step hst))) fun e s' hst => ?_
  obtain ⟨r, _, hrun⟩ := IsPlugin.step hst
  cases hrun

lemma wp_mark_record {m : Mark} {k : Unit → Code α}
    (hk : (k ()).wp M t E Q (s.record (.mark m))) : (Prog.lift (.mark m) >>= k).wp M t E Q s := by
  refine wp_step (fun _ s' hst => ?_) fun e s' hst => ?_
  all_goals
    obtain ⟨r, _, hrun⟩ := IsPlugin.step hst
    cases hrun
  exact hk

/-- The beginning of a call, with what it does to the objects of libmysql. -/
lemma wp_enter_lib {f : LibCall} {k : ConnPtr → Code α} (hE : ∀ e, E e s)
    (hnull : ∀ e s', Effect t (.enter t h f none) s s' → E e s')
    (hk : ∀ c s', Effect t (.enter t h f (some c)) s s' → s'.lib = s.lib.begin c f →
      (k c).wp M t E Q s') :
    (Prog.lift (.enter h f) >>= k).wp M t E Q s := by
  refine wp_step (fun c s' hst => ?_) fun e s' hst => ?_
  · refine hk c s' (step_enter (IsPlugin.step hst)) ?_
    obtain ⟨r, _, hrun⟩ := IsPlugin.step hst
    simp only [plugin, Stmt.run] at hrun
    repeat' split at hrun
    all_goals cases hrun
    rfl
  · rcases step_enter_error (IsPlugin.step hst) with rfl | heff
    · exact hE e
    · exact hnull e s' heff

lemma wp_enter {f : LibCall} {k : ConnPtr → Code α} (hE : ∀ e, E e s)
    (hnull : ∀ e s', Effect t (.enter t h f none) s s' → E e s')
    (hk : ∀ c s', Effect t (.enter t h f (some c)) s s' → (k c).wp M t E Q s') :
    (Prog.lift (.enter h f) >>= k).wp M t E Q s :=
  wp_enter_lib hE hnull fun c s' heff _ => hk c s' heff

/-- The end of a call, with the reply that the environment admits and what it does to the objects of
libmysql. -/
lemma wp_leave_lib {f : LibCall} {c : ConnPtr} {k : f.Ret → Code α}
    (hk : ∀ r s', M.admits t (.leave h c f) r s → Effect t (.leave t h f c r.ok) s s' →
      s'.lib = (s.lib.answer c s.trace.length r f).2 →
      (k (s.lib.answer c s.trace.length r f).1).wp M t E Q s') :
    (Prog.lift (.leave h c f) >>= k).wp M t E Q s := by
  refine wp_step (fun v s' hst => ?_) fun e s' hst => ?_
  · obtain ⟨ok, heff⟩ := step_leave (IsPlugin.step hst)
    obtain ⟨r, hr, hrun⟩ := hst
    rw [IsPlugin.exec_eq] at hrun
    cases hrun
    obtain rfl : r.ok = ok := by simpa using heff.trace
    exact hk r _ hr heff rfl
  · obtain ⟨r, _, hrun⟩ := IsPlugin.step hst
    cases hrun

lemma wp_leave_reply {f : LibCall} {c : ConnPtr} {k : f.Ret → Code α}
    (hk : ∀ r s', M.admits t (.leave h c f) r s → Effect t (.leave t h f c r.ok) s s' →
      (k (s.lib.answer c s.trace.length r f).1).wp M t E Q s') :
    (Prog.lift (.leave h c f) >>= k).wp M t E Q s :=
  wp_leave_lib fun r s' hr heff _ => hk r s' hr heff

lemma wp_leave {f : LibCall} {c : ConnPtr} {k : f.Ret → Code α}
    (hk : ∀ v ok s', Effect t (.leave t h f c ok) s s' → (k v).wp M t E Q s') :
    (Prog.lift (.leave h c f) >>= k).wp M t E Q s :=
  wp_leave_reply fun r s' _ heff => hk _ r.ok s' heff

lemma wp_init {k : Option ConnPtr → Code α}
    (hk : ∀ o s', Effect t (.init t h o) s s' → (k o).wp M t E Q s') :
    (Prog.lift (.mysql_init h) >>= k).wp M t E Q s := by
  refine wp_step (fun o s' hst => hk o s' (step_init (IsPlugin.step hst))) fun e s' hst => ?_
  obtain ⟨r, _, hrun⟩ := IsPlugin.step hst
  simp only [plugin, Stmt.run] at hrun
  split_ifs at hrun <;> cases hrun

/-- The guard of the worker, where the environment admits that it is tested. -/
lemma wp_guard_lib {k : Bool → Code α} (hE : ∀ e, E e s)
    (hclosed : ∀ x, s.heap h = some x → x.ready = false → (k false).wp M t E Q s)
    (hopen : ∀ x r s', M.admits t (.guard h) r s → s.heap h = some x → x.ready = true →
      Effect t (.visit h) s s' → s'.lib = s.lib → (k true).wp M t E Q s') :
    (Prog.lift (.guard h) >>= k).wp M t E Q s := by
  refine wp_step (fun v s' hst => ?_) fun e s' hst => ?_
  · obtain ⟨x, hx, rfl, hv⟩ := step_guard (IsPlugin.step hst)
    obtain ⟨r, hr, hrun⟩ := hst
    simp only [IsPlugin.exec_eq, Stmt.run, hx] at hrun
    cases hready : x.ready with
    | true =>
      rw [hready, if_pos rfl] at hv hrun
      refine hopen x r s' hr hx hready hv ?_
      cases hrun
      rfl
    | false =>
      rw [hready, if_neg Bool.false_ne_true] at hv
      exact hv ▸ hclosed x hx hready
  · obtain ⟨r, _, hrun⟩ := IsPlugin.step hst
    simp only [plugin, Stmt.run] at hrun
    split at hrun
    · split_ifs at hrun <;> cases hrun
    · cases hrun
      exact hE _

lemma wp_guard {k : Bool → Code α} (hE : ∀ e, E e s)
    (hclosed : ∀ x, s.heap h = some x → x.ready = false → (k false).wp M t E Q s)
    (hopen : ∀ x s', s.heap h = some x → x.ready = true → Effect t (.visit h) s s' →
      (k true).wp M t E Q s') : (Prog.lift (.guard h) >>= k).wp M t E Q s :=
  wp_guard_lib hE hclosed fun x _ s' _ hx hready heff _ => hopen x s' hx hready heff

/-- The guard is open. -/
lemma wp_guard_open {x : CMySQLHandler} {k : Bool → Code α} (hx : s.heap h = some x)
    (hready : x.ready = true) (hk : (k true).wp M t E Q (s.record (.visit h))) :
    (Prog.lift (.guard h) >>= k).wp M t E Q s := by
  refine wp_step (fun v s' hst => ?_) fun e s' hst => ?_
  all_goals
    obtain ⟨r, _, hrun⟩ := IsPlugin.step hst
    simp only [plugin, Stmt.run, hx, hready, if_true] at hrun
    cases hrun
  exact hk

lemma wp_new {host user passw db : CString} {port : BitVec 32} {k : HandlerPtr → Code α}
    (hE : ∀ e, E e s) (hk : ∀ h s', Effect t (.new h host user passw db port) s s' →
      (k h).wp M t E Q s') : (Prog.lift (.new host user passw db port) >>= k).wp M t E Q s := by
  refine wp_step (fun h s' hst => hk h s' (step_new (IsPlugin.step hst))) fun e s' hst => ?_
  obtain ⟨r, _, hrun⟩ := IsPlugin.step hst
  simp only [plugin, Stmt.run] at hrun
  split_ifs at hrun <;> cases hrun
  exact hE _

lemma wp_pushBack {k : Unit → Code α}
    (hk : ∀ s', Effect t (.pushBack h) s s' → (k ()).wp M t E Q s') :
    (Prog.lift (.pushBack h) >>= k).wp M t E Q s := by
  refine wp_step (fun _ s' hst => hk s' (step_pushBack (IsPlugin.step hst))) fun e s' hst => ?_
  obtain ⟨r, _, hrun⟩ := IsPlugin.step hst
  cases hrun

lemma wp_size {k : Nat → Code α} (hk : (k s.SQLHandle.length).wp M t E Q s) :
    (Prog.lift .size >>= k).wp M t E Q s := by
  refine wp_step (fun n s' hst => ?_) fun e s' hst => ?_
  · obtain ⟨rfl, rfl⟩ := step_size (IsPlugin.step hst)
    exact hk
  · exact absurd (step_size_iff.mp (IsPlugin.step hst)).1 (by simp)

lemma wp_entries {k : List HandlerPtr → Code α} (hk : (k s.SQLHandle).wp M t E Q s) :
    (Prog.lift .table >>= k).wp M t E Q s := by
  refine wp_step (fun T s' hst => ?_) fun e s' hst => ?_
  · obtain ⟨rfl, rfl⟩ := step_table (IsPlugin.step hst)
    exact hk
  · obtain ⟨r, _, hrun⟩ := IsPlugin.step hst
    cases hrun

/-- The mutex is free. -/
lemma wp_lockMutex {k : Unit → Code α} (hm : s.mutex = none)
    (hk : ∀ s', Effect t (.lock t) s s' → (k ()).wp M t E Q s') :
    (lockMutex >>= k).wp M t E Q s := by
  refine wp_step (fun _ s' hst => ?_) fun e s' hst => ?_
  all_goals
    obtain ⟨r, _, hrun⟩ := IsPlugin.step hst
    simp only [plugin, Stmt.run, Build.lock, hm] at hrun
    cases hrun
  exact hk _ ⟨rfl, rfl, hm, rfl, fun _ => rfl, rfl, rfl, rfl, fun _ => rfl, rfl, rfl, fun _ => rfl,
    fun _ => rfl, fun _ => ⟨rfl, fun _ => rfl⟩⟩

lemma wp_unlockMutex {k : Unit → Code α}
    (hk : ∀ s', Effect t (.unlock t) s s' → (k ()).wp M t E Q s') :
    (unlockMutex >>= k).wp M t E Q s := by
  refine wp_step (fun _ s' hst => hk s' (step_unlock (IsPlugin.step hst))) fun e s' hst => ?_
  obtain ⟨r, _, hrun⟩ := IsPlugin.step hst
  cases hrun

end

/-- The end of a ping of the worker, which fails only where it may. -/
lemma wp_pinged {M : Machine Stmt Fault State ThreadId Reply} {b : Build} [IsPlugin M b]
    {W : HandlerPtr → State → Prop} {E : Fault → State → Prop} {α : Type} {Q : α → State → Prop}
    {s : State} {h : HandlerPtr} {c : ConnPtr} {k : Bool → Code α}
    (hM : ∀ r, M.admits .worker (.leave h c .mysql_ping) r s → r.ok = false → W h s)
    (hk : ∀ v s', (v = false → W h s) → Effect .worker (.leave .worker h .mysql_ping c v) s s' →
      (k v).wp M .worker E Q s') :
    (Prog.lift (.leave h c .mysql_ping) >>= k).wp M .worker E Q s :=
  wp_leave_reply fun r s' hr heff => hk r.ok s' (hM r hr) heff

/-- What `answering` admits. -/
lemma pings_of_answering {b : Build} {P : NativeCall → State → Prop} {W : HandlerPtr → State → Prop}
    {h : HandlerPtr} {c : ConnPtr} {s : State} (r : Reply)
    (hr : (answering b P W).admits .worker (.leave h c .mysql_ping) r s) (hok : r.ok = false) :
    W h s := hr.2.2 h rfl rfl hok

/-- The calls of a public: every script that has it runs it, and its natives keep the invariant
for the scripts called so far. -/
lemma wp_execAll {M : Machine Stmt Fault State ThreadId Reply} {b : Build} [IsPlugin M b]
    {N : Set NativeCall} (hN : Confined M N) {E : Fault → State → Prop} {name : CString}
    {p : Public} {I : List Amx → State → Prop}
    (hexec : ∀ l a s s', name ∈ a.publics → I l s → Effect .main (.exec a p) s s' →
      I (l ++ [a]) s')
    (hskip : ∀ l a s, name ∉ a.publics → I l s → I (l ++ [a]) s)
    (hnative : ∀ l n s, n ∈ N → I l s →
      (native n).wp M .main E (fun _ => I l) s) {s : State} (hs : I [] s) :
    (execAll name p).wp M .main E (fun _ => I s.p_Amx) s := by
  refine wp_step (fun l s' hst => ?_) fun e s' hst => ?_
  · obtain ⟨rfl, rfl⟩ := step_scripts (IsPlugin.step hst)
    refine wp_forEach_prefix (fun l a s hl hI => ?_) hs
    split_ifs with hname
    · refine wp_step (fun natives s₁ hst => ?_) fun e s' hst => ?_
      · have hI₁ := hexec l a s s₁ hname hI (step_exec (IsPlugin.step hst))
        have hmem := hN a p s natives s₁ hst
        refine wp_forEach natives (fun n s hn hIn => ?_) hI₁
        rw [wp_bind]
        exact wp_mono (hnative _ n s (hmem n hn) hIn) fun _ _ h => h
      · obtain ⟨r, _, hrun⟩ := IsPlugin.step hst
        cases hrun
    · exact hskip l a s hname hI
  · obtain ⟨r, _, hrun⟩ := IsPlugin.step hst
    cases hrun

/-! ### Visits of `ProcessTick` -/

section

variable {M : Machine Stmt Fault State ThreadId Reply} {b : Build} [IsPlugin M b] {i : Nat}
  {E : Fault → State → Prop} {Q : Unit → State → Prop} {s : State}

/-- The arguments of the calls of `OnQueryError`. -/
def onQueryError (i : Nat) (e : ErrorInfo) : Public :=
  .OnQueryError e.m_uiErrorID e.m_szError e.m_uiResult e.m_uiExtra e.m_szCallback e.m_szQuery
    (connectionHandle i)

/-- The arguments of the calls of the callback of a query. -/
def onQueryFinish (i : Nat) (d : MainInfo) : Public :=
  .callback d.m_szCallback d.m_szQuery d.m_uiResult d.m_uiExtra (connectionHandle i)

include b

lemma wp_tickError (hE : ∀ e, E e s) (hempty : Q () s)
    (hexec : ∀ h x e es, s.SQLHandle[i]? = some h → s.heap h = some x → x.errorCallback = e :: es →
      (execAll OnQueryError (onQueryError i e)).wp M .main E
        (fun _ => (errorDelivered i).wp M .main E Q) s) :
    (tickError i).wp M .main E Q s := by
  refine wp_at hE fun _ _ => wp_this hE fun _ _ => ?_
  rw [wp_ite]
  split_ifs
  · refine wp_at hE fun h hh => wp_this hE fun x hx => ?_
    cases herr : x.errorCallback with
    | nil => exact hE _
    | cons e es =>
      simp only [front, pure_eq, bind_ret]
      rw [wp_bind]
      exact hexec h x e es hh hx herr
  · exact hempty

lemma wp_errorDelivered (hE : ∀ e, E e s)
    (hQ : ∀ h s', s.SQLHandle[i]? = some h →
      Effect .main (.assign .main h .errorCallback_pop) s s' → Q () s') :
    (errorDelivered i).wp M .main E Q s := by
  refine wp_at hE fun h hh => ?_
  rw [← bind_ret_right (assign h _)]
  exact wp_assign hE fun s' heff => hQ h s' hh heff

lemma wp_tickCallback (hE : ∀ e, E e s) (hempty : Q () s)
    (hexec : ∀ h x d ds, s.SQLHandle[i]? = some h → s.heap h = some x → x.callbackData = d :: ds →
      (execAll d.m_szCallback (onQueryFinish i d)).wp M .main E
        (fun _ => (callbackDelivered i).wp M .main E Q) s) :
    (tickCallback i).wp M .main E Q s := by
  refine wp_at hE fun _ _ => wp_this hE fun _ _ => ?_
  rw [wp_ite]
  split_ifs
  · refine wp_at hE fun h hh => wp_this hE fun x hx => ?_
    cases hcb : x.callbackData with
    | nil => exact hE _
    | cons d ds =>
      simp only [front, pure_eq, bind_ret]
      rw [wp_bind]
      exact hexec h x d ds hh hx hcb
  · exact hempty

lemma wp_callbackDelivered (hE : ∀ e, E e s)
    (hE₁ : ∀ e h s₁, Effect .main (.assign .main h .callbackData_pop) s s₁ → E e s₁)
    (hQ : ∀ h s₁ s₂, s.SQLHandle[i]? = some h →
      Effect .main (.assign .main h .callbackData_pop) s s₁ →
      Effect .main (.assign .main h (.m_bQueryProcessing false)) s₁ s₂ → Q () s₂) :
    (callbackDelivered i).wp M .main E Q s := by
  refine wp_at hE fun h hh => wp_assign hE fun s₁ heff₁ => ?_
  refine wp_at (fun e => hE₁ e h s₁ heff₁) fun h' hh' => ?_
  rw [heff₁.table] at hh'
  obtain rfl : h = h' := Option.some.inj (hh.symm.trans hh')
  rw [← bind_ret_right (assign h _)]
  exact wp_assign (fun e => hE₁ e h s₁ heff₁) fun s₂ heff₂ => hQ h s₁ s₂ hh heff₁ heff₂

end

/-! ### Natives and visits that keep an invariant -/

/-- The events of the main thread outside the natives. -/
def Event.OfServer : Event → Prop
  | .exec _ _ | .amxLoad _ | .amxUnload _ => True
  | .assign .main _ .errorCallback_pop | .assign .main _ .callbackData_pop
  | .assign .main _ (.m_bQueryProcessing false) => True
  | _ => False

section

variable {M : Machine Stmt Fault State ThreadId Reply} {b : Build} [IsPlugin M b]
  {N : Set NativeCall} {E : Fault → State → Prop} {I : State → Prop} {s : State}

include b

/-- A native is its body between two marks. -/
lemma wp_native {n : NativeCall} {Q : Cell → State → Prop}
    (hbody : ∀ r s', M.admits .main (.mark (.call n)) r s → Effect .main (.mark (.call n)) s s' →
      (Natives.body n).wp M .main E
        (fun v s₁ => ∀ s₂, Effect .main (.mark (.return n v)) s₁ s₂ → Q v s₂) s') :
    (native n).wp M .main E Q s := by
  refine wp_step (fun _ s₁ hst => ?_) fun _ _ hst => ?_
  · have heff := step_mark (IsPlugin.step hst)
    obtain ⟨r, hr, -⟩ := hst
    rw [wp_bind]
    exact wp_mono (hbody r s₁ hr heff) fun v s₂ h => wp_mark fun s₃ heff => h s₃ heff
  · obtain ⟨r, _, hrun⟩ := IsPlugin.step hst
    cases hrun

/-- A visit of `ProcessTick` keeps what its own statements and the natives of the callbacks keep. -/
lemma wp_tickVisit {i : Nat} (hN : Confined M N) (hE : ∀ e s, I s → E e s)
    (hserver : ∀ e s s', e.OfServer → I s → Effect .main e s s' → I s')
    (hnative : ∀ n s, n ∈ N → I s → (native n).wp M .main E (fun _ => I) s)
    (hs : I s) : (tickVisit i).wp M .main E (fun _ => I) s := by
  have hexec (name : CString) (p : Public) {s : State} (hs : I s) :
      (execAll name p).wp M .main E (fun _ => I) s :=
    wp_execAll hN (I := fun _ => I) (fun _ a s s' _ hI heff => hserver (.exec a p) s s' trivial hI heff)
      (fun _ _ _ _ hI => hI) (fun _ n s hn hI => hnative n s hn hI) hs
  rw [tickVisit, wp_bind]
  refine wp_mono (Q := fun _ => I) ?_ fun _ s₁ hs₁ => ?_
  · refine wp_tickError (fun e => hE e s hs) hs fun _ _ _ _ _ _ _ =>
      wp_mono (hexec _ _ hs) fun _ s₁ hs₁ => ?_
    exact wp_errorDelivered (fun e => hE e s₁ hs₁) fun h s₂ _ heff =>
      hserver (.assign .main h .errorCallback_pop) s₁ s₂ trivial hs₁ heff
  · refine wp_tickCallback (fun e => hE e s₁ hs₁) hs₁ fun _ _ _ _ _ _ _ =>
      wp_mono (hexec _ _ hs₁) fun _ s₂ hs₂ => ?_
    have hpop (h : HandlerPtr) (s₃ : State)
        (heff : Effect .main (.assign .main h .callbackData_pop) s₂ s₃) : I s₃ :=
      hserver (.assign .main h .callbackData_pop) s₂ s₃ trivial hs₂ heff
    refine wp_callbackDelivered (fun e => hE e s₂ hs₂) (fun e h s₃ heff => hE e s₃ (hpop h s₃ heff))
      fun h s₃ s₄ _ heff₃ heff₄ => ?_
    exact hserver (.assign .main h (.m_bQueryProcessing false)) s₃ s₄ trivial (hpop h s₃ heff₃) heff₄

end

/-! ### Steps of a run -/

/-- A step of a run: a native call, a visit of one handle, or a script that comes or goes. -/
inductive Action where
  | native (n : NativeCall)
  | visit (i : Nat)
  | tick (i : Nat)
  | amxLoad (a : Amx)
  | amxUnload (a : Amx)

def Action.thread : Action → ThreadId
  | .visit _ => .worker
  | _ => .main

def Action.code : Action → Code Unit
  | .native n => do
    let _ ← MySQLPlugin.native n
    pure ()
  | .visit i => workerVisit i
  | .tick i => tickVisit i
  | .amxLoad a => .lift (.amxLoad a)
  | .amxUnload a => .lift (.amxUnload a)

/-- The programs of the actions of `A`. -/
inductive Acts (A : Set Action) : ThreadId → Code Unit → Prop
  | act {a : Action} : a ∈ A → Acts A a.thread a.code

/-- The actions other than a call of a native outside `N`. -/
def Action.CallsOnly (N : Set NativeCall) : Set Action :=
  {a | ∀ n, a = .native n → n ∈ N}

/-- The states reached from `s` by actions in any order, when the scripts call only natives of
`N`. -/
abbrev Runs (b : Build) (N : Set NativeCall) : State → State → Prop :=
  Serial (allowing b N) (Acts (Action.CallsOnly N))

section

variable {M : Machine Stmt Fault State ThreadId Reply} {b : Build} [IsPlugin M b]
  {N : Set NativeCall} {I : State → Prop} {A : Set Action}

include b

/-- An action keeps what the natives, the visits of the worker and the statements of the server
keep. -/
lemma action_wp {E : Fault → State → Prop} (hN : Confined M N) (hA : ∀ n, .native n ∈ A → n ∈ N)
    (hE : ∀ e s, I s → E e s) (hserver : ∀ e s s', e.OfServer → I s → Effect .main e s s' → I s')
    (hnative : ∀ n s, n ∈ N → I s → (native n).wp M .main E (fun _ => I) s)
    (hvisit : ∀ i s, I s → (workerVisit i).wp M .worker E (fun _ => I) s) {a : Action} (ha : a ∈ A)
    {s : State} (hs : I s) : a.code.wp M a.thread E (fun _ => I) s := by
  cases a with
  | native n =>
    rw [Action.code, wp_bind]
    exact wp_mono (hnative n s (hA n ha) hs) fun _ _ h => h
  | visit i => exact hvisit i s hs
  | tick i => exact wp_tickVisit hN hE hserver hnative hs
  | amxLoad a =>
    exact wp_of_only IsPlugin.step (P := (· = .amxLoad a)) (p := .lift (.amxLoad a)) (by
      simp [Stmt.Only]) (fun e s s' he hI heff => hserver e s s' (by subst he; trivial) hI heff)
      hE hs
  | amxUnload a =>
    exact wp_of_only IsPlugin.step (P := (· = .amxUnload a)) (p := .lift (.amxUnload a)) (by
      simp [Stmt.Only]) (fun e s s' he hI heff => hserver e s s' (by subst he; trivial) hI heff)
      hE hs

/-- What the actions keep holds in every state of a run. -/
theorem serial_invariant (hN : Confined M N) (hA : ∀ n, .native n ∈ A → n ∈ N)
    (hserver : ∀ e s s', e.OfServer → I s → Effect .main e s s' → I s')
    (hnative : ∀ n s, n ∈ N → I s → (native n).wp M .main (fun _ _ => True) (fun _ => I) s)
    (hvisit : ∀ i s, I s → (workerVisit i).wp M .worker (fun _ _ => True) (fun _ => I) s)
    {s s' : State} (h : Serial M (Acts A) s s') (hs : I s) : I s' := by
  refine h.invariant (I := I) (fun t p s hp hI => ?_) hs
  obtain ⟨ha⟩ := hp
  exact action_wp hN hA (fun _ _ _ => trivial) hserver hnative hvisit ha hI

end

/-- The states in which a run can end: after whole actions, or where its last action has ended in a
fault. -/
inductive Ends (M : Machine Stmt Fault State ThreadId Reply) (A : Set Action) (s₀ : State) :
    State → Prop
  | returns {s : State} : Serial M (Acts A) s₀ s → Ends M A s₀ s
  | faults {s s' : State} {a : Action} {e : Fault} : Serial M (Acts A) s₀ s → a ∈ A →
      Run M a.thread a.code s (.error e) s' → Ends M A s₀ s'

/-- What the actions keep holds wherever a run ends. -/
theorem ends_invariant {M : Machine Stmt Fault State ThreadId Reply} {b : Build} [IsPlugin M b]
    {N : Set NativeCall} {I F : State → Prop} {A : Set Action} (hN : Confined M N)
    (hA : ∀ n, .native n ∈ A → n ∈ N) (hF : ∀ s, I s → F s)
    (hserver : ∀ e s s', e.OfServer → I s → Effect .main e s s' → I s')
    (hnative : ∀ n s, n ∈ N → I s → (native n).wp M .main (fun _ => F) (fun _ => I) s)
    (hvisit : ∀ i s, I s → (workerVisit i).wp M .worker (fun _ => F) (fun _ => I) s)
    {s₀ s : State} (h : Ends M A s₀ s) (hs : I s₀) : F s := by
  have haction {a : Action} (ha : a ∈ A) {s : State} (hs : I s) :
      a.code.wp M a.thread (fun _ => F) (fun _ => I) s :=
    action_wp hN hA (fun _ => hF) hserver hnative hvisit ha hs
  have hserial {s : State} (h : Serial M (Acts A) s₀ s) : I s := by
    refine h.invariant (I := I) (fun t p s hp hI => ?_) hs
    obtain ⟨ha⟩ := hp
    exact (wp_iff _ _ _).mpr ⟨((wp_iff _ _ _).mp (haction ha hI)).1, fun _ _ _ => trivial⟩
  cases h with
  | returns h => exact hF _ (hserial h)
  | faults h ha hrun => exact ((wp_iff _ _ _).mp (haction ha (hserial h))).2 _ _ hrun

/-- Carry out actions one after the other in an environment that replies as `env` says. -/
def play (M : Machine Stmt Fault State ThreadId Reply)
    (env : ∀ {β : Type}, Stmt β → State → Reply) : List Action → State → Option State
  | [], s => some s
  | a :: as, s => (a.code.eval M a.thread env s).bind fun r => play M env as r.2

lemma serial_of_play {M : Machine Stmt Fault State ThreadId Reply} {A : Set Action}
    {env : ∀ {β : Type}, Stmt β → State → Reply}
    (henv : ∀ {β : Type} t (a : Stmt β) s, M.admits t a (env a s) s) {as : List Action}
    (has : ∀ a ∈ as, a ∈ A) {s s' : State} (h : play M env as s = some s') :
    Serial M (Acts A) s s' := by
  induction as generalizing s with
  | nil =>
    cases h
    exact .refl _
  | cons a as ih =>
    obtain ⟨r, hrun, hplay⟩ := Option.bind_eq_some_iff.mp h
    have hact := run_of_eval (M := M) (henv a.thread) _ hrun
    exact ((Serial.refl _).tail (.act (has a (by simp))) hact).trans
      (ih (fun a' ha' => has a' (List.mem_cons_of_mem a ha')) hplay)

lemma runs_of_play {b : Build} {N : Set NativeCall} {env : ∀ {β : Type}, Stmt β → State → Reply}
    (henv : ∀ {β : Type} (a : Stmt β) s, a.Calls N (env a s)) {as : List Action}
    (has : ∀ a ∈ as, a ∈ Action.CallsOnly N) {s s' : State}
    (h : play (allowing b N) env as s = some s') : Runs b N s s' :=
  serial_of_play (M := allowing b N) (fun _ a s => ⟨trivial, henv a s⟩) has h

/-- A run in which every reply has been found to be admitted. -/
lemma serial_of_checked {b : Build} {R : ∀ {β : Type}, ThreadId → Stmt β → Reply → State → Prop}
    {ok : ∀ {β : Type}, ThreadId → Stmt β → Reply → State → Bool}
    (hok : ∀ {β : Type} t (a : Stmt β) r s, ok t a r s = true → R t a r s) {A : Set Action}
    {env : ∀ {β : Type}, Stmt β → State → Reply} {as : List Action} (has : ∀ a ∈ as, a ∈ A)
    {s s' : State} (h : play ((plugin b).checked ok) env as s = some s') :
    Serial ((plugin b).restrict R) (Acts A) s s' :=
  (serial_of_play (M := (plugin b).checked ok) (fun _ _ _ => trivial) has h).mono
    (Machine.Step.of_checked (fun _ _ _ _ => trivial) hok) fun _ _ hp => hp

/-- Every native may be called. -/
lemma runs_of_play_univ {b : Build} {env : ∀ {β : Type}, Stmt β → State → Reply} {as : List Action}
    {s s' : State} (h : play (allowing b Set.univ) env as s = some s') : Runs b Set.univ s s' := by
  refine runs_of_play (fun a s => ?_) (fun a _ n _ => Set.mem_univ n) h
  cases a <;> simp [Stmt.Calls]

/-! ### Points of a run -/

/-- A run comes to the program `p` of thread `t` in the state `s`: whole actions, and the beginning of
another one. -/
def Comes (M : Machine Stmt Fault State ThreadId Reply) (p_Amx : List Amx) (t : ThreadId) {α : Type}
    (p : Code α) (s : State) : Prop :=
  ∃ (s₀ : State) (a : Action) (k : α → Code Unit), Serial M (Acts Set.univ) (State.init p_Amx) s₀ ∧
    a.thread = t ∧ Gets M a.thread a.code s₀ (p >>= k) s

/-- What every statement preserves holds at every point of a run. -/
lemma Comes.invariant {M : Machine Stmt Fault State ThreadId Reply} {I : State → Prop}
    (hI : ∀ {β : Type} t (a : Stmt β) s o s', M.Step t a s o s' → I s → I s') {p_Amx : List Amx}
    (hinit : I (State.init p_Amx)) {t : ThreadId} {α : Type} {p : Code α} {s : State}
    (h : Comes M p_Amx t p s) : I s := by
  obtain ⟨s₀, a, k, hserial, -, hgets⟩ := h
  refine hgets.invariant (fun hst hs => hI _ _ _ _ _ hst hs) ?_
  refine hserial.invariant (fun t p s _ hs => ?_) hinit
  exact (wp_iff _ _ _).mpr ⟨fun _ _ hrun => hrun.invariant (P := fun _ => True)
    (fun a s o s' _ hs hst => hI t a s o s' hst hs) (all_true p) hs, fun _ _ _ => trivial⟩

end MySQLPlugin

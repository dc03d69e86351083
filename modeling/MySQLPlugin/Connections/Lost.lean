import MySQLPlugin.Logic.Runs

/-!
# Connections that are lost

A ping fails on a connection that is down, and on one with a result that is still to be read. The
worker takes both for a lost connection and connects again.
-/

namespace MySQLPlugin

open Threads Prog CMySQLHandler

/-- Whether the server answers on a connection, after the events so far. -/
abbrev Uptime := ConnPtr → List Event → Bool

/-- A ping fails when the connection is down or a result is unread. -/
def Stmt.PingsUp (up : Uptime) {β : Type} : Stmt β → Reply → State → Prop
  | .leave _ c .mysql_ping, r, s => r.ok = (up c s.trace && (s.lib.conn c).pending.isNone)
  | _, _, _ => True

/-- The plugin with connections that are up and down as `up` says. -/
def connected (b : Build) (up : Uptime) : Machine Stmt Fault State ThreadId Reply :=
  (plugin b).restrict fun _ a r s => a.PingsUp up r s

/-- The worker visits a handler only after its last result has been read. -/
def Stmt.VisitsRead {β : Type} : Stmt β → State → Prop
  | .guard h, s => ∀ x ∈ s.heap h, x.ready = true →
    ∀ c ∈ x.m_stConnectionPtr, (s.lib.conn c).pending = none
  | _, _ => True

/-- The same, with scripts that read the results before the worker goes on. -/
def connectedRead (b : Build) (up : Uptime) : Machine Stmt Fault State ThreadId Reply :=
  (plugin b).restrict fun _ a r s => a.PingsUp up r s ∧ a.VisitsRead s

instance (b : Build) (up : Uptime) : IsPlugin (connected b up) b := ⟨fun _ _ _ => rfl⟩

instance (b : Build) (up : Uptime) : IsPlugin (connectedRead b up) b := ⟨fun _ _ _ => rfl⟩

/-- A ping of the worker that fails. -/
def Event.pingFails (h : HandlerPtr) (c : ConnPtr) : Event := .leave .worker h .mysql_ping c false

/-- The reconnection branch of the worker begins. -/
def Event.dropsConnection (h : HandlerPtr) : Event := .assign .worker h (.m_bIsConnected false)

/-- The worker is in its reconnection branch for the handler `h`: it declares the connection dead, or
replaces it. -/
def Event.Replaces (h : HandlerPtr) : Event → Prop
  | .assign .worker p (.m_bIsConnected false) | .assign .worker p (.m_stConnectionPtr _)
  | .init .worker p _ => p = h
  | _ => False

/-- A visit of the worker begins or ends. -/
def Event.Turns : Event → Prop
  | .visit _ | .mark (.visitEnd _) => True
  | _ => False

/-- In the visit under way a ping of the connection of `h` has failed, and the connection was down. -/
def FoundDown (up : Uptime) (h : HandlerPtr) (es : List Event) : Prop :=
  ∃ before c after, es = before ++ .pingFails h c :: after ∧ (∀ e ∈ after, ¬e.Turns) ∧
    up c before = false

/-- After the events `es₀` the worker has been in its reconnection branch only for connections that it
had found down. -/
def OnlyDown (up : Uptime) (es₀ es : List Event) : Prop :=
  ∀ es' e h, es₀ <+: es' → es' ++ [e] <+: es → e.Replaces h → FoundDown up h es'

section

variable {up : Uptime} {es₀ : List Event} {s s' : State} {t : ThreadId} {e : Event} {h : HandlerPtr}

lemma OnlyDown.refl (up : Uptime) (s : State) : OnlyDown up s.trace s.trace := by
  intro es e h hpre hes
  have hlen := hpre.length_le
  have hlen' := hes.length_le
  rw [List.length_append, List.length_singleton] at hlen'
  omega

/-- In the reconnection branch for a connection that is down anything may follow. -/
lemma OnlyDown.step (hs : OnlyDown up es₀ s.trace) (heff : Effect t e s s')
    (he : ∀ h, e.Replaces h → FoundDown up h s.trace) : OnlyDown up es₀ s'.trace := by
  intro es e' h hpre hes hrep
  rcases heff.occurrence hes with hes | ⟨rfl, rfl⟩
  · exact hs es e' h hpre hes hrep
  · exact he h hrep

lemma FoundDown.step (hs : FoundDown up h s.trace) (heff : Effect t e s s') (he : ¬e.Turns) :
    FoundDown up h s'.trace := by
  obtain ⟨before, c, after, htrace, hafter, hup⟩ := hs
  refine ⟨before, c, after ++ [e], by simp [heff.trace, htrace], fun e' he' => ?_, hup⟩
  rcases List.mem_append.mp he' with he' | he'
  · exact hafter e' he'
  · exact List.mem_singleton.mp he' ▸ he

/-- A ping of a connection that is down fails. -/
lemma FoundDown.ping {c : ConnPtr} (heff : Effect .worker (.pingFails h c) s s')
    (hup : up c s.trace = false) : FoundDown up h s'.trace :=
  ⟨s.trace, c, [], heff.trace, by simp, hup⟩

/-- What a ping at the end of the trace has found. -/
lemma FoundDown.of_ping {es : List Event} {c c' : ConnPtr} {h' : HandlerPtr}
    (hs : FoundDown up h (es ++ [.visit h', .enter .worker h' .mysql_ping (some c'), .pingFails h' c])) :
    up c (es ++ [.visit h', .enter .worker h' .mysql_ping (some c')]) = false := by
  obtain ⟨before, d, after, heq, hafter, hup⟩ := hs
  rcases List.eq_nil_or_concat after with rfl | ⟨after, e, rfl⟩
  · have heq : (es ++ [.visit h', .enter .worker h' .mysql_ping (some c')]) ++ [.pingFails h' c] =
        before ++ [.pingFails h d] := by simpa using heq
    obtain ⟨rfl, heq⟩ := List.append_inj' heq rfl
    obtain ⟨-, rfl⟩ : h' = h ∧ c = d := by simpa [Event.pingFails] using heq
    exact hup
  -- otherwise the ping is older than this visit
  exfalso
  have heq : (es ++ [.visit h', .enter .worker h' .mysql_ping (some c')]) ++ [.pingFails h' c] =
      (before ++ .pingFails h d :: after) ++ [e] := by simpa using heq
  have heq := (List.append_inj' heq rfl).1
  have hmem : Event.visit h' ∈ after := by
    rcases List.eq_nil_or_concat after with rfl | ⟨after, e, rfl⟩
    · have heq : (es ++ [.visit h']) ++ [.enter .worker h' .mysql_ping (some c')] =
          before ++ [.pingFails h d] := by simpa using heq
      obtain ⟨-, heq⟩ := List.append_inj' heq rfl
      simp [Event.pingFails] at heq
    · have heq : (es ++ [.visit h']) ++ [.enter .worker h' .mysql_ping (some c')] =
          (before ++ .pingFails h d :: after) ++ [e] := by simpa using heq
      have heq := (List.append_inj' heq rfl).1
      rcases List.eq_nil_or_concat after with rfl | ⟨after, e, rfl⟩
      · obtain ⟨-, heq⟩ := List.append_inj' heq rfl
        simp [Event.pingFails] at heq
      · have heq : es ++ [.visit h'] = (before ++ .pingFails h d :: after) ++ [e] := by simpa using heq
        obtain ⟨-, heq⟩ := List.append_inj' heq rfl
        simp [List.singleton_injective heq]
  exact hafter (.visit h') (by simp [hmem]) trivial

end

/-! ### Programs -/

/-- The event is outside the reconnection branch of the worker. -/
def Event.Outside (e : Event) : Prop := ∀ h, ¬e.Replaces h

/-- The event is in the reconnection branch for `h`, or next to it. -/
def Event.Within (h : HandlerPtr) (e : Event) : Prop := ¬e.Turns ∧ ∀ p, e.Replaces p → p = h

section

variable {M : Machine Stmt Fault State ThreadId Reply} {b : Build} [IsPlugin M b] {up : Uptime}
  {es₀ : List Event} {s : State} {t : ThreadId} {α : Type}

include b

lemma wp_outside {p : Code α} (hp : p.All (Stmt.Only t Event.Outside)) (hs : OnlyDown up es₀ s.trace) :
    p.wp M t (fun _ s' => OnlyDown up es₀ s'.trace) (fun _ s' => OnlyDown up es₀ s'.trace) s :=
  wp_of_only IsPlugin.step hp (fun _ _ _ he hI heff => hI.step heff fun h hrep => absurd hrep (he h))
    (fun _ _ h => h) hs

/-- The reconnection branch for a connection that has been found down. -/
lemma wp_within {h : HandlerPtr} {p : Code α} (hp : p.All (Stmt.Only t (Event.Within h)))
    (hs : OnlyDown up es₀ s.trace) (hdown : FoundDown up h s.trace) :
    p.wp M t (fun _ s' => OnlyDown up es₀ s'.trace) (fun _ s' => OnlyDown up es₀ s'.trace) s := by
  have hwp : p.wp M t (fun _ s' => OnlyDown up es₀ s'.trace)
      (fun _ s' => OnlyDown up es₀ s'.trace ∧ FoundDown up h s'.trace) s :=
    wp_of_only (I := fun s => OnlyDown up es₀ s.trace ∧ FoundDown up h s.trace) IsPlugin.step hp
      (fun _ _ _ he hI heff => ⟨hI.1.step heff fun p hrep => he.2 p hrep ▸ hI.2,
        hI.2.step heff he.1⟩) (fun _ _ h => h.1) ⟨hs, hdown⟩
  exact wp_mono hwp fun _ _ h => h.1

attribute [local simp] Stmt.Only Event.Outside Event.Within Event.Replaces Event.Turns this call access assign
  onResult bind_bind ite_bind all_lift_bind all_ite

/-- A visit of the worker is in order if every ping that fails is one of a connection that is down. -/
lemma workerVisit_onlyDown {i : Nat} (hs : OnlyDown up es₀ s.trace)
    (hdown : ∀ h x c r₀ r (s₂ : State), s.SQLHandle[i]? = some h → s.heap h = some x →
      x.ready = true → x.m_stConnectionPtr = some c → M.admits .worker (.guard h) r₀ s →
      s₂.trace = s.trace ++ [.visit h, .enter .worker h .mysql_ping (some c)] → s₂.lib = s.lib →
      M.admits .worker (.leave h c .mysql_ping) r s₂ → r.ok = false → up c s₂.trace = false) :
    (workerVisit i).wp M .worker (fun _ s' => OnlyDown up es₀ s'.trace)
      (fun _ s' => OnlyDown up es₀ s'.trace) s := by
  refine wp_at (fun _ => hs) fun h hh => wp_guard_lib (fun _ => hs) (fun _ _ _ => hs)
    fun x r₀ s₁ hr₀ hx hready heff₁ hlib₁ => ?_
  have hs₁ := hs.step heff₁ fun _ => False.elim
  rw [if_pos rfl, call, bind_bind]
  refine wp_enter_lib (fun _ => hs₁) (fun _ _ heff => hs₁.step heff fun _ => False.elim)
    fun c s₂ heff₂ hlib₂ => ?_
  have hs₂ := hs₁.step heff₂ fun _ => False.elim
  refine wp_leave_reply fun r s₃ hr heff₃ => ?_
  have hs₃ := hs₂.step heff₃ fun _ => False.elim
  cases hok : r.ok with
  | true =>
    simp only [Libmysql.answer, hok, if_true]
    have hall : (executeFront h).All (Stmt.Only .worker Event.Outside) := by
      simp only [executeFront, this, all_lift_bind]
      refine ⟨trivial, fun x => ?_⟩
      cases x.queueData with
      | nil => trivial
      | cons q qs => simp [front, queryFailed]
    exact wp_outside (hall.bind fun _ => by simp) hs₃
  | false =>
    have hup : up c s₂.trace = false := by
      obtain ⟨y, hy, hc⟩ := heff₂.occurs
      obtain rfl := Option.some.inj (hy.symm.trans ((heff₁.heap h).trans hx))
      refine hdown h _ c r₀ r s₂ hh hx hready hc hr₀ ?_ ?_ hr hok
      · rw [heff₂.trace, heff₁.trace, List.append_assoc, List.singleton_append]
      · rw [hlib₂, ← hlib₁]
        rfl
    rw [hok] at heff₃
    simp only [Libmysql.answer, hok, Bool.false_eq_true, if_false]
    rw [wp_bind]
    refine wp_mono (wp_within (h := h) ?_ hs₃ (.ping heff₃ hup)) fun _ s₄ hs₄ => wp_outside ?_ hs₄
    · simp [reconnectInBackground, connect]
    · simp

end

/-! ### Runs -/

lemma main_outside {α : Type} (p : Code α) : p.All (Stmt.Only .main Event.Outside) := by
  induction p with
  | ret x => trivial
  | fail e => trivial
  | act a k ih =>
    refine ⟨?_, ih⟩
    cases a <;> simp [Stmt.Only, Event.Outside, Event.Replaces]

/-- In every run in which the results are read before the worker goes on, it takes no connection for
lost that is up. -/
lemma ends_onlyDown {b : Build} {up : Uptime} {p_Amx : List Amx} {s : State}
    (hs : Ends (connectedRead b up) Set.univ (State.init p_Amx) s) : OnlyDown up [] s.trace := by
  refine ends_invariant (I := fun s => OnlyDown up [] s.trace) (F := fun s => OnlyDown up [] s.trace)
    (confined_univ _) (fun n _ => Set.mem_univ n) (fun s hs => hs) (fun e s s' he hs heff => ?_)
    (fun n s _ hs => wp_outside (main_outside _) hs) (fun i s hs => ?_) hs
    (OnlyDown.refl up (State.init p_Amx))
  · refine hs.step heff fun h hrep => ?_
    cases e with
    | assign u p a =>
      cases u with
      | main => exact hrep.elim
      | worker => exact he.elim
    | _ => first | exact he.elim | exact hrep.elim
  · refine workerVisit_onlyDown hs fun h x c r₀ r s₂ _ hx hready hc hr₀ _ hlib hr hok => ?_
    have hping : r.ok = (up c s₂.trace && (s₂.lib.conn c).pending.isNone) := hr.2.1
    have hread : (s.lib.conn c).pending = none := hr₀.2.2 x hx hready c hc
    rw [hok, hlib, hread] at hping
    simpa using hping.symm

/-- The trace when the worker has pinged. -/
def pingedTrace (h : HandlerPtr) (c : ConnPtr) (s : State) : List Event :=
  s.trace ++ [.visit h, .enter .worker h .mysql_ping (some c)]

/-- On a connection with an unread result the worker enters its reconnection branch. -/
lemma exists_drop (b : Build) (up : Uptime) {s : State} {i : Nat} {h : HandlerPtr} {x : CMySQLHandler}
    {c : ConnPtr} (hh : s.SQLHandle[i]? = some h) (hx : s.heap h = some x) (hready : x.ready = true)
    (hc : x.m_stConnectionPtr = some c) (hpending : (s.lib.conn c).pending ≠ none) :
    ∃ o s', Run (connected b up) .worker (workerVisit i) s o s' ∧
      (pingedTrace h c s ++ [.pingFails h c]) ++ [.dropsConnection h] <+: s'.trace := by
  let s₁ := s.record (.visit h)
  let s₂ := ({ s₁ with lib := s₁.lib.begin c .mysql_ping }.setInCall .worker (some c)).record
    (.enter .worker h .mysql_ping (some c))
  let l₃ := (s₂.lib.answer c s₂.trace.length { ok := false } .mysql_ping).2
  let s₃ := ({ s₂ with lib := l₃ }.setInCall .worker none).record (.pingFails h c)
  let s₄ := (s₃.setHandler h (Assign.apply (.m_bIsConnected false) x)).record (.dropsConnection h)
  have hadmits : ∀ {β : Type} (a : Stmt β) s, ∃ r, (connected b up).admits .worker a r s := by
    intro β a s
    cases a with
    | leave h c f =>
      cases f with
      | mysql_ping =>
        exact ⟨{ ok := up c s.trace && (s.lib.conn c).pending.isNone }, trivial, rfl⟩
      | _ => exact ⟨{}, trivial, trivial⟩
    | _ => exact ⟨{}, trivial, trivial⟩
  have hat : (connected b up).Step .worker (.at i) s (.ok h) s :=
    ⟨{}, ⟨trivial, trivial⟩, by simp [IsPlugin.exec_eq, Stmt.run, hh]⟩
  have hguard : (connected b up).Step .worker (.guard h) s (.ok true) s₁ :=
    ⟨{}, ⟨trivial, trivial⟩, by simp [IsPlugin.exec_eq, Stmt.run, hx, hready, s₁]⟩
  have henter : (connected b up).Step .worker (.enter h .mysql_ping) s₁ (.ok c) s₂ :=
    ⟨{}, ⟨trivial, trivial⟩, by simp [IsPlugin.exec_eq, Stmt.run, hx, hc, s₁, s₂]⟩
  have hleave : (connected b up).Step .worker (.leave h c .mysql_ping) s₂ (.ok false) s₃ := by
    refine ⟨{ ok := false }, ⟨trivial, ?_⟩, rfl⟩
    have hunread : (s₂.lib.conn c).pending.isNone = false :=
      Option.isNone_eq_false_iff.mpr (Option.isSome_iff_ne_none.mpr hpending)
    change false = (up c s₂.trace && (s₂.lib.conn c).pending.isNone)
    rw [hunread, Bool.and_false]
  have hassign : (connected b up).Step .worker (.assign h (.m_bIsConnected false)) s₃ (.ok ()) s₄ := by
    refine ⟨{}, ⟨trivial, trivial⟩, ?_⟩
    have hx₃ : s₃.heap h = some x := hx
    simp [IsPlugin.exec_eq, Stmt.run, hx₃, Assign.defined, s₄, Event.dropsConnection]
  have hall := ((((((workerVisit_ofVisit .worker i).2 h).2 true).2 c).2 false).2 ())
  obtain ⟨o, s', hrun⟩ := IsPlugin.exists_run_admitted (t := .worker) hadmits (P := Event.OfVisit) id hall s₄
  refine ⟨o, s', .act hat (.act hguard (.act henter (.act hleave (.act hassign hrun)))), ?_⟩
  have htrace : s₄.trace = (pingedTrace h c s ++ [.pingFails h c]) ++ [.dropsConnection h] := by
    simp [s₄, s₃, s₂, s₁, State.record, State.setInCall, State.setHandler, pingedTrace]
  rw [← htrace]
  refine hrun.invariant (I := fun s => s₄.trace <+: s.trace) (fun a s₁ o s₂ ha hs hst => ?_) hall
    (List.prefix_refl _)
  obtain ⟨r, _, hr⟩ := IsPlugin.step hst
  rcases Stmt.run_effect ha hr with rfl | ⟨e, _, heff⟩
  · exact hs
  · exact hs.trans heff.prefix

/-- The visit of a handler with a connection takes it for lost only when it is down, exactly if its
last result has been read or it is down. -/
lemma visit_onlyDown_iff (b : Build) (up : Uptime) {s : State} {i : Nat} {h : HandlerPtr}
    {x : CMySQLHandler} {c : ConnPtr} (hh : s.SQLHandle[i]? = some h) (hx : s.heap h = some x)
    (hready : x.ready = true) (hc : x.m_stConnectionPtr = some c) :
    (∀ o s', Run (connected b up) .worker (workerVisit i) s o s' → OnlyDown up s.trace s'.trace) ↔
      (s.lib.conn c).pending = none ∨ up c (pingedTrace h c s) = false := by
  constructor
  · intro hall
    by_contra hor
    obtain ⟨hpending, hup⟩ := not_or.mp hor
    obtain ⟨o, s', hrun, hpre⟩ := exists_drop b up hh hx hready hc hpending
    have hfound := hall o s' hrun _ _ h ((List.prefix_append _ _).trans (List.prefix_append _ _)) hpre rfl
    exact hup (FoundDown.of_ping (by simpa [pingedTrace] using hfound))
  · intro hor
    have hwp : (workerVisit i).wp (connected b up) .worker (fun _ s' => OnlyDown up s.trace s'.trace)
        (fun _ s' => OnlyDown up s.trace s'.trace) s := by
      refine workerVisit_onlyDown (.refl up s) fun p y d r₀ r s₂ hp hy _ hd _ htrace hlib hr hok => ?_
      obtain rfl : h = p := Option.some.inj (hh.symm.trans hp)
      obtain rfl : x = y := Option.some.inj (hx.symm.trans hy)
      obtain rfl : c = d := Option.some.inj (hc.symm.trans hd)
      have hping : r.ok = (up c s₂.trace && (s₂.lib.conn c).pending.isNone) := hr.2
      rw [hok, hlib, htrace] at hping
      rw [htrace]
      rcases hor with hread | hup
      · rw [hread] at hping
        simpa using hping.symm
      · exact hup
    intro o s' hrun
    obtain ⟨hok, herr⟩ := (wp_iff _ _ _).mp hwp
    cases o with
    | ok u => exact hok u s' hrun
    | error e => exact herr e s' hrun

/-- In a run in which the worker visits only handlers whose last result has been read, it replaces
only connections that are down. A single visit does, exactly if the result has been read or the
connection is down. -/
theorem reconnects_only_down (b : Build) (up : Uptime) (p_Amx : List Amx) :
    (∀ s, Ends (connectedRead b up) Set.univ (State.init p_Amx) s → OnlyDown up [] s.trace) ∧
    ∀ s i h x c, s.SQLHandle[i]? = some h → s.heap h = some x → x.ready = true →
      x.m_stConnectionPtr = some c →
      ((∀ o s', Run (connected b up) .worker (workerVisit i) s o s' → OnlyDown up s.trace s'.trace) ↔
        (s.lib.conn c).pending = none ∨ up c (pingedTrace h c s) = false) :=
  ⟨fun _ hs => ends_onlyDown hs, fun _ _ _ _ _ hh hx hready hc => visit_onlyDown_iff b up hh hx hready hc⟩

/-- A result that nobody reads. -/
def unreadResult : List Action :=
  [.native (.mysql_connect [] [] [] [] 0), .native (.mysql_query ['q'] 7 3 1),
    .native (.mysql_query ['q'] 7 3 1), .visit 0, .tick 0, .visit 0]

/-- A server that is up and sends rows. -/
def sendsRows : ∀ {β : Type}, Stmt β → State → Reply
  | _, .leave _ c .mysql_ping, s => { ok := (s.lib.conn c).pending.isNone }
  | _, .leave _ _ (.mysql_real_query _), _ => { rows := some ⟨[], []⟩ }
  | _, _, _ => {}

/-- The second visit replaces a connection that is up. -/
theorem reconnects_up :
    ¬ ∀ (b : Build) (up : Uptime) (p_Amx : List Amx) (s : State),
      Ends (connected b up) Set.univ (State.init p_Amx) s → OnlyDown up [] s.trace := by
  intro hall
  have hrun : (play (connected .win32 fun _ _ => true) sendsRows unreadResult (State.init [])).map
      (fun s => (s.trace.drop 38).take 2) = some [.pingFails 0 0, .dropsConnection 0] := by decide
  obtain ⟨s, hs, hlast⟩ := Option.map_eq_some_iff.mp hrun
  have hserial : Serial (connected .win32 fun _ _ => true) (Acts Set.univ) (State.init []) s := by
    refine serial_of_play (M := connected .win32 fun _ _ => true) (fun t a s => ⟨trivial, ?_⟩)
      (fun _ _ => Set.mem_univ _) hs
    cases a with
    | leave h c f => cases f <;> simp [Stmt.PingsUp, sendsRows]
    | _ => trivial
  have hpre : (s.trace.take 38 ++ [.pingFails 0 0]) ++ [.dropsConnection 0] <+: s.trace := by
    rw [List.append_assoc, List.singleton_append, ← hlast, ← List.take_add]
    exact List.take_prefix _ _
  obtain ⟨_, _, _, _, _, hdown⟩ := hall .win32 _ [] s (.returns hserial) _ _ 0 List.nil_prefix hpre rfl
  cases hdown

/-- What `connectedRead` asks of a reply, as a test. -/
def Stmt.upAndRead (up : Uptime) {β : Type} : Stmt β → Reply → State → Bool
  | .leave _ c .mysql_ping, r, s => r.ok == (up c s.trace && (s.lib.conn c).pending.isNone)
  | .guard h, _, s => (s.heap h).all fun x =>
    !x.ready || x.m_stConnectionPtr.all fun c => (s.lib.conn c).pending.isNone
  | _, _, _ => true

lemma Stmt.upAndRead_spec {up : Uptime} {β : Type} {a : Stmt β} {r : Reply} {s : State}
    (h : a.upAndRead up r s = true) : a.PingsUp up r s ∧ a.VisitsRead s := by
  cases a with
  | leave p c f => cases f <;> first | exact ⟨trivial, trivial⟩ | exact ⟨beq_iff_eq.mp h, trivial⟩
  | guard p =>
    refine ⟨trivial, fun x hx hready c hc => ?_⟩
    have hx : s.heap p = some x := hx
    have hc : x.m_stConnectionPtr = some c := hc
    simpa [Stmt.upAndRead, hx, hready, hc] using h
  | _ => exact ⟨trivial, trivial⟩

/-- The first connection is down once an outcome has been handed out; every other one is up. -/
def downAfter : Uptime := fun c es => c != 0 || !es.contains (.assign .main 0 .callbackData_pop)

/-- A server that sends rows on connections that are up and down as `downAfter` says, and a script that
stores the results it is called back for. -/
def storesRows : ∀ {β : Type}, Stmt β → State → Reply
  | _, .leave _ c .mysql_ping, s => { ok := downAfter c s.trace && (s.lib.conn c).pending.isNone }
  | _, .leave _ _ (.mysql_real_query _), _ => { rows := some ⟨[], [[]]⟩ }
  | _, .leave _ c .mysql_store_result, s => { rows := (s.lib.conn c).pending }
  | _, .exec _ _, _ => { natives := [.mysql_store_result 1] }
  | _, _, _ => {}

/-- A result is stored, then the connection is lost; a later query is executed on the new one. -/
def reconnectedAgain : List Action :=
  [.native (.mysql_connect [] [] [] [] 0), .native (.mysql_query ['q'] 7 3 1),
    .native (.mysql_query ['r'] 7 3 1), .visit 0, .tick 0, .visit 0, .visit 0]

/-- The connection that has been lost is replaced, after one that is up has been kept. -/
theorem reconnects_down :
    ∃ s, Ends (connectedRead .win32 downAfter) Set.univ
        (State.init [{ id := 0, publics := [OnQueryFinish] }]) s ∧
      .dropsConnection 0 ∈ s.trace ∧ .leave .worker 0 (.mysql_real_query ['r']) 1 true ∈ s.trace ∧
      OnlyDown downAfter [] s.trace := by
  have hrun : (play ((plugin .win32).checked fun _ a r s => a.upAndRead downAfter r s) storesRows
      reconnectedAgain (State.init [{ id := 0, publics := [OnQueryFinish] }])).map (fun s =>
        (decide (.dropsConnection 0 ∈ s.trace),
          decide (.leave .worker 0 (.mysql_real_query ['r']) 1 true ∈ s.trace))) = some (true, true) := by
    decide +kernel
  obtain ⟨s, hs, hevents⟩ := Option.map_eq_some_iff.mp hrun
  obtain ⟨hdrop, hquery⟩ := Prod.mk.inj hevents
  have hserial : Serial (connectedRead .win32 downAfter) (Acts Set.univ)
      (State.init [{ id := 0, publics := [OnQueryFinish] }]) s :=
    serial_of_checked (fun _ _ _ _ => Stmt.upAndRead_spec) (by simp) hs
  exact ⟨s, .returns hserial, of_decide_eq_true hdrop, of_decide_eq_true hquery,
    (reconnects_only_down .win32 downAfter _).1 s (.returns hserial)⟩

end MySQLPlugin

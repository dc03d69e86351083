import MySQLPlugin.Connections.Holders
import MySQLPlugin.Interplay.Exclusive
import MySQLPlugin.Interplay.Sweeping

/-!
# Connections that the worker uses

`Disconnect` empties the queue of a handler under the mutex, so that no visit of the handler is in
progress when it closes the connection, and none begins before the handler has a new one.
-/

namespace MySQLPlugin

open Threads Prog CMySQLHandler

/-! ### Handlers between their connections -/

section

variable (h : HandlerPtr) (s : State)

/-- The handler holds a connection that has not been closed. -/
def Live : Prop := ∃ c, s.connection h = some c ∧ c ∉ closings s.trace

/-- No query waits. -/
def Emptied : Prop := ∀ x, s.heap h = some x → x.queueData = []

/-- No visit of the handler is in progress, and none can begin. -/
def Shut : Prop := Emptied h s ∧ visiting s.trace ≠ some h

/-- The handler is live, or it is shut, and not connected if it is to be `dead` then. -/
def Stands (dead : Bool) : Prop := ∀ x, s.heap h = some x →
  Live h s ∨ x.queueData = [] ∧ (dead = true → x.m_bIsConnected = false) ∧ visiting s.trace ≠ some h

end

/-- What the worker passes to libmysql as a connection. -/
def Event.passes : Event → Option (Option ConnPtr)
  | .enter .worker _ _ c | .access .worker _ _ c => some c
  | _ => none

/-- The worker has passed to libmysql only connections that were not closed. -/
def Safe (tr : List Event) : Prop :=
  ∀ es e c, es ++ [e] <+: tr → e.passes = some c → ∃ d, c = some d ∧ d ∉ closings es

/-- What both threads keep. -/
structure Sound (s : State) : Prop where
  served : ∀ h, Stands h s false
  closed : ∀ c ∈ closings s.trace, c < s.lib.nextConn
  heap : ∀ h, s.nextHandler ≤ h → s.heap h = none
  visits : ∀ h, s.nextHandler ≤ h → visiting s.trace ≠ some h
  safe : Safe s.trace

/-- Handlers that are not live are shut and not connected. -/
def Steady (s : State) : Prop := Sound s ∧ ∀ h, Stands h s true

/-- The connection of `h` is being closed. -/
def Closing (h : HandlerPtr) (s : State) : Prop :=
  Sound s ∧ (∀ p, p ≠ h → Stands p s true) ∧ Shut h s

/-- The worker has made the connection `c` for the handler that it visits. -/
def Made (h : HandlerPtr) (c : ConnPtr) (s : State) : Prop :=
  visiting s.trace = some h ∧ .init .worker h (some c) ∈ s.trace ∧ c ∉ closings s.trace

/-- The main thread relies on the handlers that the worker does not visit, the worker on its visit. -/
def lifeRely : ThreadId → Set (State → Prop)
  | .main => {f | f = Sound ∨
      (∃ h, (∃ dead, f = fun s => Stands h s dead) ∨ f = Live h ∨ f = Shut h ∨ f = Emptied h) ∨
      f = (fun s => s.locked .main ≠ none) ∨ ∃ c, f = fun s => c ∉ closings s.trace}
  | .worker => {f | f = Sound ∨ (∃ R : Option HandlerPtr → Prop, f = fun s => R (visiting s.trace)) ∨
      ∃ h c, f = Made h c}

lemma stable_sound (t : ThreadId) : Stable (lifeRely t) Sound := by
  cases t <;> exact .of_mem (.inl rfl)

lemma stable_stands (h : HandlerPtr) (dead : Bool) :
    Stable (lifeRely .main) fun s => Stands h s dead :=
  .of_mem (.inr (.inl ⟨h, .inl ⟨dead, rfl⟩⟩))

lemma stable_live (h : HandlerPtr) : Stable (lifeRely .main) (Live h) :=
  .of_mem (.inr (.inl ⟨h, .inr (.inl rfl)⟩))

lemma stable_shut (h : HandlerPtr) : Stable (lifeRely .main) (Shut h) :=
  .of_mem (.inr (.inl ⟨h, .inr (.inr (.inl rfl))⟩))

lemma stable_emptied (h : HandlerPtr) : Stable (lifeRely .main) (Emptied h) :=
  .of_mem (.inr (.inl ⟨h, .inr (.inr (.inr rfl))⟩))

lemma stable_holding : Stable (lifeRely .main) fun s => s.locked .main ≠ none :=
  .of_mem (.inr (.inr (.inl rfl)))

lemma stable_unclosed (c : ConnPtr) : Stable (lifeRely .main) fun s => c ∉ closings s.trace :=
  .of_mem (.inr (.inr (.inr ⟨c, rfl⟩)))

lemma stable_steady : Stable (lifeRely .main) Steady :=
  (stable_sound .main).and (.forall fun h => stable_stands h true)

lemma stable_closing (h : HandlerPtr) : Stable (lifeRely .main) (Closing h) :=
  (stable_sound .main).and
    ((Stable.forall fun p => .forall fun (_ : p ≠ h) => stable_stands p true).and (stable_shut h))

lemma stable_visiting (v : Option HandlerPtr) :
    Stable (lifeRely .worker) fun s => Sound s ∧ visiting s.trace = v :=
  (stable_sound .worker).and (.of_mem (.inr (.inl ⟨fun w => w = v, rfl⟩)))

lemma stable_made (h : HandlerPtr) (c : ConnPtr) :
    Stable (lifeRely .worker) fun s => Sound s ∧ Made h c s :=
  (stable_sound .worker).and (.of_mem (.inr (.inr ⟨h, c, rfl⟩)))

/-! ### Events -/

section

variable {t : ThreadId} {e : Event} {s s' : State} {h : HandlerPtr} {c : ConnPtr} {dead : Bool}

lemma Safe.concat {es : List Event} (hs : Safe es)
    (he : ∀ c, e.passes = some c → ∃ d, c = some d ∧ d ∉ closings es) : Safe (es ++ [e]) := by
  intro es' e' c hpre hc
  rcases List.prefix_concat_iff.mp hpre with heq | hpre
  · obtain ⟨rfl, heq⟩ := List.append_inj' heq rfl
    obtain rfl : e' = e := by simpa using heq
    exact he c hc
  · exact hs es' e' c hpre hc

/-- A handler that the worker visits, or for which a query waits, has a live connection. -/
lemma Sound.live (hs : Sound s) {x : CMySQLHandler} (hx : s.heap h = some x)
    (hopen : visiting s.trace = some h ∨ x.queueData ≠ []) : Live h s := by
  rcases hs.served h x hx with hlive | ⟨hempty, -, hvisit⟩
  · exact hlive
  · rcases hopen with hopen | hopen
    · exact absurd hopen hvisit
    · exact absurd hempty hopen

lemma Stands.live (hs : Stands h s true) {x : CMySQLHandler} (hx : s.heap h = some x)
    (hconn : x.m_bIsConnected = true) : Live h s := by
  rcases hs x hx with hlive | ⟨-, hdead, -⟩
  · exact hlive
  · rw [hdead rfl] at hconn
    cases hconn

lemma State.connection_congr (hheap : s'.heap h = s.heap h) : s'.connection h = s.connection h := by
  rw [State.connection, hheap, State.connection]

/-- An event that closes nothing, and gives only open connections to handlers. -/
structure Event.Opening (e : Event) (s : State) : Prop where
  closes : e.closes = none
  delete : ∀ h, e ≠ .delete h
  pointer : ∀ t h o, e = .assign t h (.m_stConnectionPtr o) → ∃ c, o = some c ∧ c ∉ closings s.trace

lemma Event.Opening.closings (he : e.Opening s) (heff : Effect t e s s') :
    closings s'.trace = closings s.trace := by
  rw [heff.closings, he.closes]
  simp

/-- Live handlers stay live. -/
lemma Live.step (hs : Live h s) (hsound : Sound s) (heff : Effect t e s s') (he : e.Opening s) :
    Live h s' := by
  obtain ⟨c, hc, hopen⟩ := hs
  have hkeep (hconn : s'.connection h = s.connection h) : Live h s' :=
    ⟨c, hconn.trans hc, by rwa [he.closings heff]⟩
  cases e with
  | assign u p a =>
    obtain rfl : u = t := heff.by_
    cases a with
    | m_stConnectionPtr o =>
      by_cases hp : p = h
      · subst hp
        obtain ⟨d, rfl, hd⟩ := he.pointer u p o rfl
        refine ⟨d, ?_, by rwa [he.closings heff]⟩
        rw [heff.connection_assign, Function.update_self]
      · refine hkeep ?_
        rw [heff.connection_assign, Function.update_of_ne (Ne.symm hp)]
    | _ => exact hkeep (by rw [heff.connection trivial])
  | new p =>
    refine hkeep (State.connection_congr ?_)
    rw [heff.heap h, Event.onObject, if_neg]
    -- a handler that holds a connection is not new
    rintro rfl
    rw [State.connection, hsound.heap h (Nat.le_of_eq heff.occurs.1.symm)] at hc
    cases hc
  | delete p => exact absurd rfl (he.delete p)
  | _ => exact hkeep (State.connection_congr (heff.heap h))

lemma visiting_ne (hs : visiting s.trace ≠ some h) (heff : Effect t e s s') (he : e ≠ .visit h) :
    visiting s'.trace ≠ some h := by
  rw [heff.trace, visiting_concat]
  cases e with
  | visit p =>
    intro heq
    cases heq
    exact he rfl
  | mark m => cases m <;> first | exact hs | simp [Event.onVisiting]
  | _ => exact hs

/-- A visit begins only at a handler for which a query waits. -/
lemma Emptied.not_visit (hs : Emptied h s) (heff : Effect t e s s') : e ≠ .visit h := by
  rintro rfl
  obtain ⟨x, hx, hready⟩ := heff.occurs
  simp [CMySQLHandler.ready, hs x hx] at hready

/-- The assignment brings a handler back to work. -/
def Assign.Wakes : Assign → Prop
  | .queueData_push _ | .m_bIsConnected true => True
  | _ => False

lemma Emptied.step (hs : Emptied h s) (heff : Effect t e s s') (hpush : ∀ u d,
    e ≠ .assign u h (.queueData_push d)) : Emptied h s' := by
  intro x' hx'
  rw [heff.heap h] at hx'
  cases e with
  | assign u p a =>
    simp only [Event.onObject] at hx'
    split_ifs at hx' with hp
    · obtain ⟨x, hx, rfl⟩ := Option.map_eq_some_iff.mp hx'
      subst hp
      cases a with
      | queueData_push d => exact absurd rfl (hpush u d)
      | queueData_pop => simp [Assign.apply, hs x hx]
      | queueData_popAll => simp [Assign.apply]
      | _ => exact hs x hx
    · exact hs x' hx'
  | new p =>
    simp only [Event.onObject] at hx'
    split_ifs at hx'
    · cases hx'
      rfl
    · exact hs x' hx'
  | delete p =>
    simp only [Event.onObject] at hx'
    split_ifs at hx'
    exact hs x' hx'
  | _ => exact hs x' hx'

lemma Shut.step (hs : Shut h s) (heff : Effect t e s s') (hpush : ∀ u d,
    e ≠ .assign u h (.queueData_push d)) : Shut h s' :=
  ⟨hs.1.step heff hpush, visiting_ne hs.2 heff (hs.1.not_visit heff)⟩

/-- A handler comes back to work only when it is live. -/
lemma Stands.step (hs : Stands h s dead) (hsound : Sound s) (heff : Effect t e s s')
    (he : e.Opening s) (hwake : ∀ u a, e = .assign u h a → a.Wakes → Live h s) :
    Stands h s' dead := by
  intro x' hx'
  by_cases hlive : Live h s
  · exact .inl (hlive.step hsound heff he)
  refine .inr ?_
  -- the handler before the event, if it is not a new one
  have hold {x : CMySQLHandler} (hx : s.heap h = some x) : x.queueData = [] ∧
      (dead = true → x.m_bIsConnected = false) ∧ visiting s'.trace ≠ some h := by
    obtain ⟨hempty, hdead, hvisit⟩ := (hs x hx).resolve_left hlive
    refine ⟨hempty, hdead, visiting_ne hvisit heff ?_⟩
    refine Emptied.not_visit (fun y hy => ?_) heff
    obtain rfl : x = y := Option.some.inj (hx.symm.trans hy)
    exact hempty
  rw [heff.heap h] at hx'
  cases e with
  | assign u p a =>
    simp only [Event.onObject] at hx'
    split_ifs at hx' with hp
    · obtain ⟨x, hx, rfl⟩ := Option.map_eq_some_iff.mp hx'
      subst hp
      obtain ⟨hempty, hdead, hvisit⟩ := hold hx
      cases a with
      | queueData_push d => exact absurd (hwake u _ rfl trivial) hlive
      | queueData_pop => exact ⟨by simp [Assign.apply, hempty], hdead, hvisit⟩
      | queueData_popAll => exact ⟨by simp [Assign.apply], hdead, hvisit⟩
      | m_bIsConnected v =>
        cases v with
        | true => exact absurd (hwake u _ rfl trivial) hlive
        | false => exact ⟨hempty, fun _ => rfl, hvisit⟩
      | _ => exact ⟨hempty, hdead, hvisit⟩
    · exact hold hx'
  | new p =>
    simp only [Event.onObject] at hx'
    split_ifs at hx' with hp
    · cases hx'
      subst hp
      exact ⟨rfl, fun _ => rfl,
        visiting_ne (hsound.visits _ (Nat.le_of_eq heff.occurs.1.symm)) heff (by simp)⟩
    · exact hold hx'
  | delete p => exact absurd rfl (he.delete p)
  | _ => exact hold hx'

/-- What the events keep that close no connection. -/
lemma Sound.step (hs : Sound s) (heff : Effect t e s s') (he : e.Opening s)
    (hwake : ∀ u h a, e = .assign u h a → a.Wakes → Live h s)
    (hpass : ∀ c, e.passes = some c → ∃ d, c = some d ∧ d ∉ closings s.trace) : Sound s' where
  served h := (hs.served h).step hs heff he fun u a => hwake u h a
  closed c hc := by
    rw [he.closings heff] at hc
    have hle : s.lib.nextConn ≤ s'.lib.nextConn := by
      rw [heff.nextConn]
      unfold Event.onNextConn
      split <;> omega
    exact Nat.lt_of_lt_of_le (hs.closed c hc) hle
  heap := heff.fresh hs.heap
  visits h hh := by
    have hle : s.nextHandler ≤ h := by
      refine Nat.le_trans ?_ hh
      rw [heff.nextHandler]
      cases e <;> simp [Event.onNextHandler]
    refine visiting_ne (hs.visits h hle) heff ?_
    rintro rfl
    obtain ⟨x, hx, -⟩ := heff.occurs
    rw [hs.heap h hle] at hx
    cases hx
  safe := by
    rw [heff.trace]
    exact hs.safe.concat hpass

/-! ### What the threads guarantee -/

lemma locked_main (heff : Effect .worker e s s') (hs : s.locked .main ≠ none) :
    s'.locked .main ≠ none := by
  obtain ⟨⟨u, n⟩, hm, hu⟩ : ∃ m, s.mutex = some m ∧ m.1 = .main := by
    obtain ⟨k, hk⟩ := Option.ne_none_iff_exists'.mp hs
    obtain ⟨m, hm, hown⟩ := Option.bind_eq_some_iff.mp hk
    refine ⟨m, hm, ?_⟩
    by_contra hne
    simp [hne] at hown
  obtain rfl : u = .main := hu
  cases e with
  | lock u =>
    have hfree : s.mutex = none := heff.occurs
    rw [hm] at hfree
    cases hfree
  | relock u =>
    obtain rfl : u = .worker := heff.by_
    obtain ⟨k, hk⟩ := heff.occurs
    rw [hm] at hk
    cases hk
  | unlock u =>
    obtain rfl : u = .worker := heff.by_
    simp [State.locked, heff.mutex (by simp), Event.onMutex, hm]
  | _ => rwa [heff.locked trivial]

lemma worker_lives (hs : Sound s) (heff : Effect .worker e s s') (he : e.Opening s)
    (hwake : ∀ u h a, e = .assign u h a → a.Wakes → Live h s)
    (hpush : ∀ u h d, e ≠ .assign u h (.queueData_push d))
    (hpass : ∀ c, e.passes = some c → ∃ d, c = some d ∧ d ∉ closings s.trace) :
    Guarantees lifeRely .worker s s' ∧ Sound s' := by
  have hs' : Sound s' := hs.step heff he hwake hpass
  refine ⟨fun u hu f hf hfs => ?_, hs'⟩
  cases u with
  | worker => exact absurd rfl hu
  | main =>
    rcases hf with rfl | ⟨h, ⟨dead, rfl⟩ | rfl | rfl | rfl⟩ | rfl | ⟨c, rfl⟩
    · exact hs'
    · exact Stands.step hfs hs heff he fun u a => hwake u h a
    · exact Live.step hfs hs heff he
    · exact Shut.step hfs heff fun u => hpush u h
    · exact Emptied.step hfs heff fun u => hpush u h
    · exact locked_main heff hfs
    · show c ∉ closings s'.trace
      rwa [he.closings heff]

lemma main_lives (heff : Effect .main e s s') (hv : e.NoVisit) (hs' : Sound s')
    (hmade : ∀ h c, Made h c s → c ∉ closings s'.trace) : Guarantees lifeRely .main s s' := by
  intro u hu f hf hfs
  cases u with
  | main => exact absurd rfl hu
  | worker =>
    rcases hf with rfl | ⟨R, rfl⟩ | ⟨h, c, rfl⟩
    · exact hs'
    · show R (visiting s'.trace)
      rwa [heff.visiting hv]
    · exact ⟨(heff.visiting hv).trans hfs.1, heff.prefix.subset hfs.2.1, hmade h c hfs⟩

lemma passes_main (heff : Effect .main e s s') {c : Option ConnPtr} (hc : e.passes = some c) :
    ∃ d, c = some d ∧ d ∉ closings s.trace := by
  cases e with
  | enter u =>
    obtain rfl : u = .main := heff.by_
    cases hc
  | access u =>
    obtain rfl : u = .main := heff.by_
    cases hc
  | _ => cases hc

lemma Steady.step (hs : Steady s) (heff : Effect .main e s s') (hv : e.NoVisit) (he : e.Opening s)
    (hwake : ∀ u h a, e = .assign u h a → a.Wakes → Live h s) :
    Guarantees lifeRely .main s s' ∧ Steady s' := by
  have hs' : Sound s' := hs.1.step heff he hwake fun c hc => passes_main heff hc
  refine ⟨main_lives heff hv hs' fun h c hmade => ?_, hs', fun h => ?_⟩
  · rw [he.closings heff]
    exact hmade.2.2
  · exact (hs.2 h).step hs.1 heff he fun u a => hwake u h a

/-- The event brings at most the handlers of `H` back to work. -/
def Event.Awake (H : HandlerPtr → Prop) : Event → Prop
  | .visit _ | .mark (.visitEnd _) | .delete _ | .enter _ _ .mysql_close (some _)
  | .assign _ _ (.m_stConnectionPtr _) => False
  | .assign _ p a => a.Wakes → H p
  | _ => True

lemma Event.Awake.opening {H : HandlerPtr → Prop} (he : e.Awake H) : e.Opening s where
  closes := by
    cases e with
    | enter u p f c => cases f <;> cases c <;> first | rfl | exact he.elim
    | _ => rfl
  delete h := by
    rintro rfl
    exact he
  pointer u p o := by
    rintro rfl
    exact he.elim

lemma Event.Awake.noVisit {H : HandlerPtr → Prop} (he : e.Awake H) : e.NoVisit := by
  cases e with
  | visit => exact he.elim
  | mark m => cases m <;> trivial
  | _ => trivial

lemma Steady.awake {H : HandlerPtr → Prop} (hs : Steady s ∧ ∀ p, H p → Live p s)
    (heff : Effect .main e s s') (he : e.Awake H) :
    Guarantees lifeRely .main s s' ∧ Steady s' ∧ ∀ p, H p → Live p s' := by
  obtain ⟨hg, hs'⟩ := hs.1.step heff he.noVisit he.opening fun u h a heq ha => by
    subst heq
    refine hs.2 h ?_
    cases a with
    | m_stConnectionPtr o => exact he.elim
    | _ => exact he ha
  exact ⟨hg, hs', fun p hp => (hs.2 p hp).step hs.1.1 heff he.opening⟩

/-- An event of the main thread that brings no handler back to work. -/
lemma Steady.kept (hs : Steady s) (heff : Effect .main e s s') (he : e.Awake fun _ => False) :
    Guarantees lifeRely .main s s' ∧ Steady s' := by
  obtain ⟨hg, hs', -⟩ := Steady.awake ⟨hs, fun _ => False.elim⟩ heff he
  exact ⟨hg, hs'⟩

/-! ### Closing a connection -/

/-- The section under the mutex is over: no visit of the emptied handler is in progress. -/
lemma Steady.closing (hs : Steady s) (hempty : Emptied h s) (hheld : s.locked .main ≠ none)
    (hsheltered : Sheltered s) : Closing h s := by
  refine ⟨hs.1, fun p _ => hs.2 p, hempty, fun hvisit => ?_⟩
  have hworker : s.locked .worker ≠ none := hsheltered (by simp [hvisit])
  obtain ⟨n, hn⟩ := Option.ne_none_iff_exists'.mp hheld
  obtain ⟨m, hm, hown⟩ := Option.bind_eq_some_iff.mp hn
  have hmain : m.1 = .main := by
    by_contra hne
    simp [hne] at hown
  simp [State.locked, hm, hmain] at hworker

/-- An event that closes nothing, and brings no handler back to work. -/
lemma Closing.kept (hs : Closing h s) (heff : Effect .main e s s') (he : e.Awake fun _ => False) :
    Guarantees lifeRely .main s s' ∧ Closing h s' := by
  have hwake : ∀ u p a, e = .assign u p a → a.Wakes → Live p s := by
    rintro u p a rfl ha
    cases a with
    | m_stConnectionPtr o => exact he.elim
    | _ => exact (he ha).elim
  have hs' : Sound s' := hs.1.step heff he.opening hwake fun c hc => passes_main heff hc
  refine ⟨main_lives heff he.noVisit hs' fun p c hmade => ?_, hs', fun p hp => ?_, ?_⟩
  · rw [he.opening.closings heff]
    exact hmade.2.2
  · exact (hs.2.1 p hp).step hs.1 heff he.opening fun u a => hwake u p a
  · refine hs.2.2.step heff ?_
    rintro u d rfl
    exact he trivial

/-- The connection is closed: no other handler holds it. -/
lemma Closing.close (hs : Closing h s) (hissued : Issued s)
    (heff : Effect .main (.enter .main h .mysql_close (some c)) s s') :
    Guarantees lifeRely .main s s' ∧ Closing h s' := by
  obtain ⟨x, hx, hptr⟩ := heff.occurs
  have hconn : s.connection h = some c := by rw [State.connection, hx, Option.bind_some, hptr]
  have hmem (d : ConnPtr) : d ∈ closings s'.trace ↔ d ∈ closings s.trace ∨ d = c := by
    rw [heff.closings]
    simp [Event.closes]
  have hvisiting : visiting s'.trace = visiting s.trace := heff.visiting trivial
  have hshut : Shut h s' := hs.2.2.step heff (by simp)
  have hlive (p : HandlerPtr) (hp : p ≠ h) (hl : Live p s) : Live p s' := by
    obtain ⟨d, hd, hopen⟩ := hl
    refine ⟨d, (State.connection_congr (heff.heap p)).trans hd, ?_⟩
    rw [hmem]
    rintro (hd' | rfl)
    · exact hopen hd'
    · exact hp (hissued.held_unique hd hconn)
  have hstands (p : HandlerPtr) (hp : p ≠ h) (dead : Bool) (hst : Stands p s dead) :
      Stands p s' dead := by
    intro y hy
    rw [heff.heap p] at hy
    rcases hst y hy with hl | hdead
    · exact .inl (hlive p hp hl)
    · exact .inr (by rwa [hvisiting])
  have hs' : Sound s' := by
    constructor
    case served =>
      intro p
      by_cases hp : p = h
      · subst hp
        exact fun y hy => .inr ⟨hshut.1 y hy, by simp, hshut.2⟩
      · exact hstands p hp false (hs.1.served p)
    case closed =>
      intro d hd
      rw [heff.nextConn]
      rcases (hmem d).mp hd with hd | rfl
      · exact hs.1.closed d hd
      · exact hissued.held_lt hconn
    case heap => exact heff.fresh hs.1.heap
    case visits =>
      intro p hp
      rw [heff.nextHandler] at hp
      rw [hvisiting]
      exact hs.1.visits p hp
    case safe =>
      rw [heff.trace]
      exact hs.1.safe.concat fun d hd => passes_main heff hd
  refine ⟨main_lives heff trivial hs' fun p d hmade => ?_, hs', fun p hp => ?_, hshut⟩
  · rw [hmem]
    rintro (hd | rfl)
    · exact hmade.2.2 hd
    · -- the worker has made its connection for the handler that it visits
      obtain ⟨u, hu⟩ := hissued.holder h d hconn
      obtain rfl := (hissued.unique _ _ _ _ _ hu hmade.2.1).2
      exact hs.2.2.2 hmade.1
  · exact hstands p hp true (hs.2.1 p hp)

/-- The pointer to the closed connection is dropped. -/
lemma Closing.drop (hs : Closing h s)
    (heff : Effect .main (.assign .main h (.m_stConnectionPtr none)) s s') :
    Guarantees lifeRely .main s s' ∧ Closing h s' := by
  have hvisiting : visiting s'.trace = visiting s.trace := heff.visiting trivial
  have hclosings : closings s'.trace = closings s.trace := by
    rw [heff.closings]
    simp [Event.closes]
  have hshut : Shut h s' := hs.2.2.step heff (by simp)
  have hstands (p : HandlerPtr) (hp : p ≠ h) (dead : Bool) (hst : Stands p s dead) :
      Stands p s' dead := by
    have hheap : s'.heap p = s.heap p := by rw [heff.heap p, Event.onObject, if_neg hp]
    intro y hy
    rw [hheap] at hy
    rcases hst y hy with ⟨d, hd, hopen⟩ | hdead
    · exact .inl ⟨d, (State.connection_congr hheap).trans hd, by rwa [hclosings]⟩
    · exact .inr (by rwa [hvisiting])
  have hs' : Sound s' := by
    constructor
    case served =>
      intro p
      by_cases hp : p = h
      · subst hp
        exact fun y hy => .inr ⟨hshut.1 y hy, by simp, hshut.2⟩
      · exact hstands p hp false (hs.1.served p)
    case closed =>
      intro d hd
      rw [heff.nextConn]
      exact hs.1.closed d (hclosings ▸ hd)
    case heap => exact heff.fresh hs.1.heap
    case visits =>
      intro p hp
      rw [heff.nextHandler] at hp
      rw [hvisiting]
      exact hs.1.visits p hp
    case safe =>
      rw [heff.trace]
      exact hs.1.safe.concat fun d hd => passes_main heff hd
  refine ⟨main_lives heff trivial hs' fun p d hmade => ?_, hs', fun p hp => ?_, hshut⟩
  · rw [hclosings]
    exact hmade.2.2
  · exact hstands p hp true (hs.2.1 p hp)

/-- The handler is no longer connected: it is shut until it connects again. -/
lemma Closing.steady (hs : Closing h s)
    (heff : Effect .main (.assign .main h (.m_bIsConnected false)) s s') :
    Guarantees lifeRely .main s s' ∧ Steady s' := by
  obtain ⟨hg, hs'⟩ := hs.kept heff fun ha => by cases ha
  refine ⟨hg, hs'.1, fun p => ?_⟩
  by_cases hp : p = h
  · subst hp
    obtain ⟨x, -, hx⟩ := heff.assigned
    intro y hy
    rw [hx] at hy
    cases hy
    exact .inr ⟨hs'.2.2.1 _ hx, fun _ => rfl, hs'.2.2.2⟩
  · exact hs'.2.1 p hp

end

/-! ### The programs of the main thread -/

lemma awake_of_rest {e : Event} (he : e.OfRest) : e.Awake fun _ => False := by
  cases e with
  | assign u p a =>
    cases a with
    | m_bIsConnected v => cases v <;> first | exact he.elim | exact id
    | _ => first | exact he.elim | exact id
  | enter u p f c => cases f <;> first | exact he.elim | cases c <;> trivial
  | mark m => cases m <;> first | exact he.elim | trivial
  | visit => exact he.elim
  | delete => exact he.elim
  | _ => trivial

/-- `mysql_init` does not return NULL. -/
def Stmt.InitOk {β : Type} : Stmt β → Reply → Prop
  | .mysql_init _, r => r.ok = true
  | _, _ => True

section

variable {M : Machine Stmt Fault State ThreadId Reply} {b : Build} {s : State} {h : HandlerPtr}
  {α : Type}
  (hM : ∀ {t : ThreadId} {β : Type} {a : Stmt β} {s o s'}, M.Step t a s o s' →
    (plugin b).Step t a s o s')
  (hI : ∀ {t : ThreadId} {β : Type} {a : Stmt β} {s o s'}, M.Step t a s o s' →
    Issued s ∧ Sheltered s)
  (hinit : ∀ {t : ThreadId} {h : HandlerPtr} {s x s'}, M.Step t (.mysql_init h) s (.ok x) s' →
    ∃ c, x = some c)

section

include hM

lemma relies_awake {H : HandlerPtr → Prop} {p : Code α}
    (hp : p.All (Stmt.Only .main (Event.Awake H))) (hs : Steady s ∧ ∀ p, H p → Live p s) :
    p.Relies M lifeRely .main (fun _ s => Steady s ∧ ∀ p, H p → Live p s) s :=
  relies_of_only hM hp
    (stable_steady.and (.forall fun p => .forall fun (_ : H p) => stable_live p))
    (fun _ _ _ he hs heff => Steady.awake hs heff he) hs

/-- A program that brings only the handler `h` back to work. -/
lemma relies_awake_self {p : Code α} (hp : p.All (Stmt.Only .main (Event.Awake (· = h))))
    (hs : Steady s) (hlive : Live h s) :
    p.Relies M lifeRely .main (fun _ => Steady) s := by
  refine (relies_awake hM hp ⟨hs, ?_⟩).mono fun _ _ h => h.1
  rintro p rfl
  exact hlive

omit hM in
lemma Sound.init_unclosed {t : ThreadId} {s' : State} {c : ConnPtr} (hs : Sound s)
    (heff : Effect t (.init t h (some c)) s s') : c ∉ closings s'.trace := by
  have hc : c = s.lib.nextConn := heff.occurs
  rw [heff.closings]
  intro hmem
  have hlt : c < s.lib.nextConn := hs.closed c (by simpa [Event.closes] using hmem)
  exact absurd hc (Nat.ne_of_lt hlt)

omit hM in
/-- An open connection is given to a handler. -/
lemma opening_assign {t : ThreadId} {c : ConnPtr} (hc : c ∉ closings s.trace) :
    (Event.assign t h (.m_stConnectionPtr (some c))).Opening s where
  closes := rfl
  delete p heq := by cases heq
  pointer u p o heq := by
    cases heq
    exact ⟨c, rfl, hc⟩

omit hM in
lemma live_of_assign {t : ThreadId} {s' : State} {c : ConnPtr} (hc : c ∉ closings s.trace)
    (heff : Effect t (.assign t h (.m_stConnectionPtr (some c))) s s') : Live h s' := by
  refine ⟨c, ?_, ?_⟩
  · rw [heff.connection_assign, Function.update_self]
  · rwa [(opening_assign hc).closings heff]

include hinit in
/-- The handler gets its connection before it is connected. -/
lemma connect_steady (hs : Steady s) :
    (connect h).Relies M lifeRely .main (fun _ => Steady) s := by
  refine relies_this hM stable_steady hs fun x s hs hx => ?_
  split_ifs
  · exact relies_ret stable_steady hs
  refine relies_stmt (P := fun e => ∃ c, e = .init .main h c) hM (fun c => ⟨c, rfl⟩) stable_steady hs
    (fun e s₁ s₂ he hs₁ heff => ?_) fun o s₁ s₂ hs₁ hst => ?_
  · obtain ⟨c, rfl⟩ := he
    exact (hs₁.kept heff trivial).1
  obtain ⟨c, rfl⟩ := hinit hst
  have heff : Effect .main (.init .main h (some c)) s₁ s₂ := step_init (hM hst)
  have hs₂ : Steady s₂ := (hs₁.kept heff trivial).2
  refine relies_assign hM (stable_steady.and (stable_unclosed c)) ⟨hs₂, hs₁.1.init_unclosed heff⟩
    fun s₃ s₄ ⟨hs₃, hopen⟩ heff => ?_
  obtain ⟨hg, hs₄⟩ := hs₃.step heff trivial (opening_assign hopen) fun u p a heq ha => by
    cases heq
    cases ha
  refine ⟨hg, relies_awake_self hM ?_ hs₄ (live_of_assign hopen heff)⟩
  simp [this, call, access, assign, all_lift_bind, all_ite, bind_bind, Stmt.Only, Event.Awake,
    Assign.Wakes]

omit hM in
lemma step_lock_held {t : ThreadId} {u : Unit} {s' : State}
    (hst : (plugin b).Step t .lockMutex s (.ok u) s') : s'.locked t ≠ none := by
  obtain ⟨r, -, hrun⟩ := hst
  simp only [plugin, Stmt.run, Build.lock] at hrun
  split at hrun
  · cases hrun
    simp [State.locked]
  · split_ifs at hrun with hv
    cases b <;> cases hrun
    simp [State.locked]

lemma relies_lock {I : State → Prop} {f : Unit → Code α} {Q : α → State → Prop}
    (hI : Stable (lifeRely .main) I) (hs : I s)
    (hkept : ∀ e s s', e = .lock .main ∨ e = .relock .main → I s → Effect .main e s s' →
      Guarantees lifeRely .main s s' ∧ I s')
    (hok : ∀ s, I s → s.locked .main ≠ none → (f ()).Relies M lifeRely .main Q s) :
    (lockMutex >>= f).Relies M lifeRely .main Q s := by
  refine relies_stmt (P := fun e => e = .lock .main ∨ e = .relock .main) hM ⟨.inl rfl, .inr rfl⟩ hI hs
    (fun e s₁ s₂ he hs₁ heff => (hkept e s₁ s₂ he hs₁ heff).1) fun _ s₁ s₂ hs₁ hst => ?_
  obtain ⟨e, he, heff⟩ := Stmt.Records.effect (a := .lockMutex)
    (P := fun e => e = .lock .main ∨ e = .relock .main) trivial ⟨.inl rfl, .inr rfl⟩ (hM hst)
  exact hok s₂ (hkept e s₁ s₂ he hs₁ heff).2 (step_lock_held (hM hst))

/-- The section of `Disconnect` under the mutex empties the queue. -/
lemma clearQueue_empties (hs : Steady s) (hheld : s.locked .main ≠ none) :
    (clearQueue h).Relies M lifeRely .main
      (fun _ s => (Steady s ∧ s.locked .main ≠ none) ∧ Emptied h s) s := by
  have hstable := stable_steady.and stable_holding
  have hdone := hstable.and (stable_emptied h)
  refine relies_this hM hstable ⟨hs, hheld⟩ fun x s hs hx => ?_
  split_ifs with hlen
  · rw [← bind_ret_right (assign h _)]
    refine relies_assign hM hstable hs fun s₁ s₂ hs₁ heff => ?_
    obtain ⟨hg, hs₂⟩ := hs₁.1.kept heff fun ha => by cases ha
    have hheld₂ : s₂.locked .main ≠ none := by
      rw [heff.locked trivial]
      exact hs₁.2
    refine ⟨hg, relies_ret hdone ⟨⟨hs₂, hheld₂⟩, fun y hy => ?_⟩⟩
    obtain ⟨x, -, hx⟩ := heff.assigned
    rw [hx] at hy
    cases hy
    simp [Assign.apply]
  · refine relies_ret hdone ⟨hs, fun y hy => ?_⟩
    obtain rfl : x = y := Option.some.inj (hx.symm.trans hy)
    exact List.length_eq_zero_iff.mp (Nat.eq_zero_of_not_pos hlen)

include hI

/-- `Disconnect` closes the connection of a handler that is shut. -/
lemma closeConnection_closing (hs : Steady s) :
    (closeConnection h).Relies M lifeRely .main (fun _ s => Steady s ∨ Closing h s) s := by
  have hclosing := stable_closing h
  refine relies_this hM stable_steady hs fun x s hs _ => ?_
  split_ifs
  · exact relies_ret (stable_steady.or hclosing) (.inl hs)
  refine relies_lock hM stable_steady hs (fun e s s' he hs heff => ?_) fun s hs hheld => ?_
  · rcases he with rfl | rfl <;> exact hs.kept heff trivial
  refine .bind ((clearQueue_empties hM hs hheld).mono fun _ s ⟨hs, hempty⟩ => ?_)
  refine relies_stmt_within (P := (· = .unlock .main)) hM (fun hst => (hI hst).2) rfl
    ((stable_steady.and stable_holding).and (stable_emptied h)) ⟨hs, hempty⟩
    (fun e s₁ s₂ he hs₁ _ heff => (hs₁.1.1.kept heff (by rw [he]; trivial)).1)
    fun _ s₁ s₂ ⟨⟨hs₁, hheld⟩, hempty⟩ hsheltered hst => ?_
  have hs₂ : Closing h s₂ :=
    ((hs₁.closing hempty hheld hsheltered).kept (step_unlock (hM hst)) trivial).2
  -- the connection is closed
  rw [call, bind_bind]
  refine relies_stmt_within (P := fun e => ∃ c, e = .enter .main h .mysql_close c) hM
    (fun hst => (hI hst).1) (fun c => ⟨c, rfl⟩) hclosing hs₂ (fun e s₁ s₂ he hs₁ hissued heff => ?_)
    fun c s₁ s₂ hs₁ hissued hst => ?_
  · obtain ⟨c, rfl⟩ := he
    cases c with
    | none => exact (hs₁.kept heff trivial).1
    | some c => exact (hs₁.close hissued heff).1
  have hs₂ : Closing h s₂ := (hs₁.close hissued (step_enter (hM hst))).2
  refine relies_records (P := fun e => ∃ ok, e = .leave .main h .mysql_close c ok) hM trivial
    (fun ok => ⟨ok, rfl⟩) hclosing hs₂ fun e s₁ s₂ he hs₁ heff => ?_
  obtain ⟨ok, rfl⟩ := he
  obtain ⟨hg, hs₂⟩ := hs₁.kept heff trivial
  refine ⟨hg, fun _ => ?_⟩
  rw [← bind_ret_right (assign h _)]
  refine relies_assign hM hclosing hs₂ fun s₁ s₂ hs₁ heff => ?_
  obtain ⟨hg, hs₂⟩ := hs₁.drop heff
  exact ⟨hg, relies_ret (stable_steady.or hclosing) (.inr hs₂)⟩

lemma disconnect_steady (hs : Steady s) :
    (disconnect h).Relies M lifeRely .main (fun _ => Steady) s := by
  refine relies_this hM stable_steady hs fun x s hs _ => ?_
  split_ifs
  · exact relies_ret stable_steady hs
  refine .bind ((closeConnection_closing hM hI hs).mono fun _ s hs => ?_)
  rw [← bind_ret_right (assign h _)]
  rcases hs with hs | hs
  · refine relies_assign hM stable_steady hs fun s₁ s₂ hs₁ heff => ?_
    obtain ⟨hg, hs₂⟩ := hs₁.kept heff fun ha => by cases ha
    exact ⟨hg, relies_ret stable_steady hs₂⟩
  · refine relies_assign hM (stable_closing h) hs fun s₁ s₂ hs₁ heff => ?_
    obtain ⟨hg, hs₂⟩ := hs₁.steady heff
    exact ⟨hg, relies_ret stable_steady hs₂⟩

omit hI in
/-- A query is accepted only by a handler that is connected. -/
lemma connected_steady {p q : Code α} (hs : Steady s)
    (hp : p.All (Stmt.Only .main (Event.Awake fun _ => False)))
    (hq : q.All (Stmt.Only .main (Event.Awake (· = h)))) :
    (this h >>= fun x => if !x.m_bIsConnected then p else q).Relies M lifeRely .main
      (fun _ => Steady) s := by
  refine relies_this hM stable_steady hs fun x s hs hx => ?_
  split_ifs with hconn
  · exact (relies_awake hM hp ⟨hs, fun _ => False.elim⟩).mono fun _ _ h => h.1
  · exact relies_awake_self hM hq hs ((hs.2 h).live hx (by simpa using hconn))

include hinit in
lemma native_steady {n : NativeCall} (hn : n.Open) (hs : Steady s) :
    (native n).Relies M lifeRely .main (fun _ => Steady) s := by
  refine native_relies hM stable_steady (fun e s s' he hs heff => hs.kept heff (awake_of_rest he))
    (fun h s hs => connect_steady hM hinit hs) (fun h s hs => disconnect_steady hM hI hs)
    (fun h q callback indexID extraID s hs => ?_) (fun h q resultID extraID s hs => ?_) hn hs
  · refine connected_steady hM hs trivial ?_
    simp [enqueue, lockMutex, unlockMutex, assign, all_lift_bind, bind_bind, Stmt.Only, Event.Awake,
      Assign.Wakes]
  · refine relies_mark hM stable_steady hs fun s₁ s₂ hs₁ heff => ?_
    obtain ⟨hg, hs₂⟩ := hs₁.kept heff trivial
    refine ⟨hg, .bind (Relies.mono (Q := fun _ => Steady) ?_ fun r s hs => ?_)⟩
    · refine connected_steady hM hs₂ trivial ?_
      simp [enqueue, nonThreadedQuery, lockMutex, unlockMutex, assign, call, access, all_lift_bind,
        all_ite, bind_bind, Stmt.Only, Event.Awake, Assign.Wakes]
    · refine relies_mark hM stable_steady hs fun s₁ s₂ hs₁ heff => ?_
      obtain ⟨hg, hs₂⟩ := hs₁.kept heff trivial
      exact ⟨hg, relies_ret stable_steady hs₂⟩

end

/-! ### The visits of the worker -/

/-- The worker has no visit in progress. -/
def Resting (s : State) : Prop := Sound s ∧ visiting s.trace = none

/-- The worker visits `h`. -/
def Visiting (h : HandlerPtr) (s : State) : Prop := Sound s ∧ visiting s.trace = some h

/-- The events of a visit of `h` other than the one that gives it another connection. -/
def Event.During (h : HandlerPtr) : Event → Prop
  | .enter .worker p f _ => p = h ∧ f.Open
  | .leave .worker _ f _ _ => f.Open
  | .access .worker p _ _ => p = h
  | .init .worker p _ => p = h
  | .onResult _ _ _ => True
  | .assign _ _ (.m_stConnectionPtr _) => False
  | .assign _ p a => p = h ∧ a.OfVisit
  | _ => False

lemma Event.During.noVisit {e : Event} (he : e.During h) : e.NoVisit := by
  cases e with
  | visit => exact he.elim
  | mark => exact he.elim
  | _ => trivial

lemma Event.During.opening {e : Event} (he : e.During h) : e.Opening s where
  closes := by
    cases e with
    | enter u p f c =>
      cases u with
      | main => exact he.elim
      | worker => cases f <;> first | rfl | exact he.2.elim
    | _ => rfl
  delete p := by
    rintro rfl
    exact he
  pointer u p o := by
    rintro rfl
    exact he.elim

/-- The handler that is visited has a live connection. -/
lemma Visiting.during {e : Event} {s' : State} (hs : Visiting h s) (heff : Effect .worker e s s')
    (he : e.During h) : Guarantees lifeRely .worker s s' ∧ Visiting h s' := by
  have hlive {x : CMySQLHandler} (hx : s.heap h = some x) : Live h s := hs.1.live hx (.inl hs.2)
  have hpass (x : CMySQLHandler) (hx : s.heap h = some x) :
      ∃ d, x.m_stConnectionPtr = some d ∧ d ∉ closings s.trace := by
    obtain ⟨d, hd, hopen⟩ := hlive hx
    refine ⟨d, ?_, hopen⟩
    rwa [State.connection, hx] at hd
  obtain ⟨hg, hs'⟩ := worker_lives hs.1 heff he.opening
    (fun u p a heq ha => by
      subst heq
      obtain ⟨x, hx, -⟩ := heff.occurs
      cases a with
      | m_stConnectionPtr => exact he.elim
      | _ =>
        obtain rfl := he.1
        exact hlive hx)
    (fun u p d heq => by
      subst heq
      exact he.2)
    fun c hc => by
      cases e with
      | enter u p f o =>
        cases u with
        | main => cases hc
        | worker =>
          cases hc
          obtain rfl := he.1
          obtain ⟨x, hx, rfl⟩ := heff.occurs
          exact hpass x hx
      | access u p f o =>
        cases u with
        | main => cases hc
        | worker =>
          cases hc
          obtain rfl : p = h := he
          obtain ⟨x, hx, rfl⟩ := heff.occurs
          exact hpass x hx
      | _ => cases hc
  refine ⟨hg, hs', ?_⟩
  rw [heff.visiting he.noVisit]
  exact hs.2

lemma stable_visit (h : HandlerPtr) : Stable (lifeRely .worker) (Visiting h) :=
  stable_visiting (some h)

lemma stable_resting : Stable (lifeRely .worker) Resting := stable_visiting none

include hM

lemma relies_during {p : Code α} (hp : p.All (Stmt.Only .worker (Event.During h)))
    (hs : Visiting h s) : p.Relies M lifeRely .worker (fun _ => Visiting h) s :=
  relies_of_only hM hp (stable_visit h) (fun _ _ _ he hs heff => hs.during heff he) hs

include hinit in
/-- The worker gives the handler that it visits a connection of its own. -/
lemma connect_visiting (hs : Visiting h s) :
    (connect h).Relies M lifeRely .worker (fun _ => Visiting h) s := by
  refine relies_this hM (stable_visit h) hs fun x s hs hx => ?_
  split_ifs
  · exact relies_ret (stable_visit h) hs
  refine relies_stmt (P := fun e => ∃ c, e = .init .worker h c) hM (fun c => ⟨c, rfl⟩)
    (stable_visit h) hs (fun e s₁ s₂ he hs₁ heff => ?_) fun o s₁ s₂ hs₁ hst => ?_
  · obtain ⟨c, rfl⟩ := he
    exact (hs₁.during heff rfl).1
  obtain ⟨c, rfl⟩ := hinit hst
  have heff : Effect .worker (.init .worker h (some c)) s₁ s₂ := step_init (hM hst)
  have hs₂ : Visiting h s₂ := (hs₁.during heff rfl).2
  have hmade : Made h c s₂ := by
    refine ⟨hs₂.2, ?_, hs₁.1.init_unclosed heff⟩
    rw [heff.trace]
    simp
  refine relies_assign hM (stable_made h c) ⟨hs₂.1, hmade⟩ fun s₃ s₄ ⟨hs₃, hmade⟩ heff => ?_
  obtain ⟨hg, hs₄⟩ := worker_lives hs₃ heff (opening_assign hmade.2.2)
    (fun u p a heq ha => by cases heq; cases ha) (by simp) (by simp [Event.passes])
  have hvisit : Visiting h s₄ := ⟨hs₄, (heff.visiting trivial).trans hmade.1⟩
  refine ⟨hg, relies_during hM ?_ hvisit⟩
  simp [this, call, access, assign, all_lift_bind, all_ite, bind_bind, Stmt.Only, Event.During,
    Assign.OfVisit, LibCall.Open]

omit hM in
lemma executeFront_during : (executeFront h).All (Stmt.Only .worker (Event.During h)) := by
  simp only [executeFront, this, all_lift_bind]
  refine ⟨trivial, fun x => ?_⟩
  cases x.queueData with
  | nil => trivial
  | cons q qs =>
    simp [front, queryFailed, call, access, assign, bind_bind, ite_bind, all_lift_bind, all_ite,
      Stmt.Only, Event.During, Assign.OfVisit, LibCall.Open]

include hinit in
lemma reconnect_visiting (hs : Visiting h s) :
    (reconnectInBackground h).Relies M lifeRely .worker (fun _ => Visiting h) s := by
  rw [reconnectInBackground_eq]
  refine .bind ((relies_during hM ?_ hs).mono fun _ s hs => .bind ?_)
  · simp [dropPending, call, assign, onResult, bind_bind, all_lift_bind, all_ite, Stmt.Only,
      Event.During, Assign.OfVisit, LibCall.Open]
  · exact (connect_visiting hM hinit hs).mono fun _ s hs => relies_ret (stable_visit h) hs

include hinit in
/-- A visit begins only at a handler with a live connection. -/
lemma workerVisit_lives (i : Nat) (hs : Resting s) :
    (workerVisit i).Relies M lifeRely .worker (fun _ => Resting) s := by
  refine relies_at hM stable_resting hs fun h s hs _ => ?_
  refine relies_guard hM stable_resting hs (fun x s₁ s₂ hs₁ _ _ heff => ?_)
    fun s hs => relies_ret stable_resting hs
  obtain ⟨hg, hs₂⟩ := worker_lives hs₁.1 heff ⟨rfl, by simp, by simp⟩ (by simp) (by simp)
    (by simp [Event.passes])
  have hvisit : Visiting h s₂ := by
    refine ⟨hs₂, ?_⟩
    rw [heff.trace, visiting_concat]
    rfl
  refine ⟨hg, ?_⟩
  rw [if_pos rfl]
  refine .bind ((relies_during hM (p := call h .mysql_ping) ?_ hvisit).mono fun ok s hs => .bind ?_)
  · simp [call, all_lift_bind, Stmt.Only, Event.During, LibCall.Open]
  refine Relies.mono (Q := fun _ => Visiting h) ?_ fun _ s hs => ?_
  · cases ok with
    | true => exact relies_during hM (p := executeFront h) executeFront_during hs
    | false => exact reconnect_visiting hM hinit hs
  · rw [← bind_ret_right (Prog.lift _)]
    refine relies_mark hM (stable_visit h) hs fun s₁ s₂ hs₁ heff => ?_
    obtain ⟨hg, hs₂⟩ := worker_lives hs₁.1 heff ⟨rfl, by simp, by simp⟩ (by simp) (by simp)
      (by simp [Event.passes])
    refine ⟨hg, relies_ret stable_resting ⟨hs₂, ?_⟩⟩
    rw [heff.trace, visiting_concat]
    rfl

end

/-! ### Every interleaving -/

section

variable {M : Machine Stmt Fault State ThreadId Reply} {b : Build} {N : Set NativeCall}
  (hM : ∀ {t : ThreadId} {β : Type} {a : Stmt β} {s o s'}, M.Step t a s o s' →
    (plugin b).Step t a s o s')
  (hI : ∀ {t : ThreadId} {β : Type} {a : Stmt β} {s o s'}, M.Step t a s o s' →
    Issued s ∧ Sheltered s)
  (hinit : ∀ {t : ThreadId} {h : HandlerPtr} {s x s'}, M.Step t (.mysql_init h) s (.ok x) s' →
    ∃ c, x = some c)

include hM hI hinit

lemma life_duties (hN : Confined M N) (hopen : ∀ n ∈ N, n.Open) :
    Duties M N lifeRely Steady Steady Resting Resting where
  stable_idle := stable_steady
  stable_ticking := stable_steady
  stable_asleep := stable_resting
  stable_sweeping := stable_resting
  native n s hn hs := native_steady hM hI hinit (hopen n hn) hs
  amx e s s' he hs heff := by
    obtain ⟨a, rfl | rfl⟩ := he <;> exact hs.kept heff trivial
  tick s s' hs heff := hs.kept heff trivial
  visit i s hs := relies_tickVisit hM hN stable_steady
    (fun a p s s' hs heff => hs.kept heff trivial)
    (fun n s hn hs => native_steady hM hI hinit (hopen n hn) hs)
    (fun h a s s' ha hs heff => by
      refine hs.kept heff ?_
      rcases ha with rfl | rfl | rfl <;> exact id) hs
  tickEnd s s' hs heff := hs.kept heff trivial
  wake e s s' he hs heff := by
    have hopening : e.Opening s := by
      rcases he with rfl | rfl <;> exact ⟨rfl, by simp, by simp⟩
    have hvisiting : visiting s'.trace = visiting s.trace := by
      rcases he with rfl | rfl <;> exact heff.visiting trivial
    obtain ⟨hg, hs'⟩ := worker_lives hs.1 heff hopening (by rcases he with rfl | rfl <;> simp)
      (by rcases he with rfl | rfl <;> simp) (by rcases he with rfl | rfl <;> simp [Event.passes])
    exact ⟨hg, hs', hvisiting.trans hs.2⟩
  sweep i s hs := workerVisit_lives hM hinit i hs
  sleep s s' hs heff := by
    obtain ⟨hg, hs'⟩ := worker_lives hs.1 heff ⟨rfl, by simp, by simp⟩ (by simp) (by simp)
      (by simp [Event.passes])
    exact ⟨hg, hs', (heff.visiting trivial).trans hs.2⟩

end

lemma sound_init (p_Amx : List Amx) : Sound (State.init p_Amx) where
  served h x hx := by cases hx
  closed c hc := by cases hc
  heap h _ := rfl
  visits h _ := by simp [State.init, visiting]
  safe es e c hpre := by simp [State.init] at hpre

/-- The plugin with a `mysql_init` that never returns NULL, and scripts that call only natives of
`N`. -/
abbrev initialising (b : Build) (N : Set NativeCall) : Machine Stmt Fault State ThreadId Reply :=
  (allowing b N).restrict fun _ a r _ => a.InitOk r

lemma step_of_initialising {b : Build} {N : Set NativeCall} {t : ThreadId} {β : Type} {a : Stmt β}
    {s s' : State} {o : Except Fault β} (hst : (initialising b N).Step t a s o s') :
    (plugin b).Step t a s o s' := step_of_allowing hst.of_restrict

lemma init_of_initialising {b : Build} {N : Set NativeCall} {t : ThreadId} {h : HandlerPtr}
    {s s' : State} {x : Option ConnPtr}
    (hst : (initialising b N).Step t (.mysql_init h) s (.ok x) s') : ∃ c, x = some c := by
  obtain ⟨r, ⟨-, hok⟩, hrun⟩ := hst
  replace hok : r.ok = true := hok
  replace hrun : Stmt.run b t (.mysql_init h) r s = some (.ok x, s') := hrun
  rw [Stmt.run, if_pos hok] at hrun
  cases hrun
  exact ⟨_, rfl⟩

/-- In every interleaving of the worker with `ProcessTick` and the natives other than `mysql_close`,
if `mysql_init` never returns NULL, the worker passes to libmysql only connections on which
`mysql_close` has not been called. -/
theorem worker_passes_open (b : Build) (p_Amx : List Amx)
    {c : Config Stmt Fault State ThreadId Point}
    (hc : Config.Reachable (initialising b Opens) (Starts (MainCall.Only Opens)) (loaded p_Amx) c)
    {es : List Event} {e : Event} {conn : Option ConnPtr} (hes : es ++ [e] <+: c.shared.trace)
    (he : e.passes = some conn) : ∃ d, conn = some d ∧ d ∉ closings es := by
  have hopen : ∀ n ∈ Opens, n.Open := fun _ hn => hn
  have hconfined : Confined (initialising b Opens) Opens := fun a p s natives s' hst =>
    confined_allowing b Opens a p s natives s' hst.of_restrict
  have hguarded (c : Config Stmt Fault State ThreadId Point)
      (hc : Config.Reachable (initialising b Opens) (Starts (MainCall.Only Opens)) (loaded p_Amx) c) :
      Issued c.shared ∧ Sheltered c.shared :=
    ⟨reachable_issued step_of_initialising hconfined hc,
      reachable_sheltered step_of_initialising hconfined hopen hc⟩
  have hsound := sound_init p_Amx
  have hsteady : Steady (State.init p_Amx) := ⟨hsound, fun h x hx => by cases hx⟩
  have hduties := life_duties
    (M := (initialising b Opens).restrict fun _ _ _ s => Issued s ∧ Sheltered s)
    (fun hst => step_of_initialising hst.of_restrict)
    (fun hst => by
      obtain ⟨r, ⟨-, hI⟩, -⟩ := hst
      exact hI)
    (fun hst => init_of_initialising hst.of_restrict)
    (fun a p s natives s' hst => hconfined a p s natives s' hst.of_restrict) hopen
  have hreached : Sound c.shared := hduties.invariant (fun hst => step_of_initialising hst.of_restrict)
    hsteady ⟨hsound, rfl⟩ (fun t => by cases t <;> exact .inl rfl) hsound (hc.restrict hguarded)
  exact hreached.safe es e conn hes he

/-- `mysql_reconnect` waits for the worker to finish its visit before it closes the connection; the
next visit uses the new one. -/
def reconnected : List Turn :=
  [.call (.native (.mysql_connect ['h'] ['u'] ['d'] ['p'] 3306)), .go .main 15 {},
    .call (.native (.mysql_query ['q'] 1 0 1)), .go .main 11 {}, .go .worker 9 {},
    .call (.native (.mysql_reconnect 1)), .go .main 5 {}, .go .worker 14 {}, .go .main 18 {},
    .call .processTick, .go .main 21 {}, .call (.native (.mysql_query ['r'] 1 0 1)), .go .main 11 {},
    .go .worker 9 {}]

lemma reconnected_admitted (b : Build) :
    ∀ turn ∈ reconnected, turn.Admitted (initialising b Opens) Opens := by
  have hgo {β : Type} (a : Stmt β) (s : State) (t : ThreadId) :
      (initialising b Opens).admits t a {} s := by
    refine ⟨admits_of_silent rfl, ?_⟩
    cases a <;> trivial
  simp only [reconnected, List.forall_mem_cons, Turn.Admitted]
  refine ⟨by simp [MainCall.Only, NativeCall.Open], fun a s => hgo a s _,
    by simp [MainCall.Only, NativeCall.Open], fun a s => hgo a s _, fun a s => hgo a s _,
    by simp [MainCall.Only, NativeCall.Open], fun a s => hgo a s _, fun a s => hgo a s _,
    fun a s => hgo a s _, by simp [MainCall.Only], fun a s => hgo a s _,
    by simp [MainCall.Only, NativeCall.Open], fun a s => hgo a s _, fun a s => hgo a s _, by simp⟩

/-- The first connection has been closed when the worker pings the second. -/
theorem worker_passes_open_reconnected :
    ∃ es c, es ++ [.enter .worker 0 .mysql_ping (some 1)] = c.shared.trace ∧
      Config.Reachable (initialising .pthread Opens) (Starts (MainCall.Only Opens)) (loaded []) c ∧
      closings es = [0] ∧ ∃ d, some 1 = some d ∧ d ∉ closings es := by
  have hrun : (schedule (initialising .pthread Opens) reconnected (loaded [])).map (fun c =>
      (c.shared.trace.getLast?, closings c.shared.trace.dropLast)) =
      some (some (.enter .worker 0 .mysql_ping (some 1)), [0]) := by decide +kernel
  obtain ⟨c, hc, hx⟩ := Option.map_eq_some_iff.mp hrun
  obtain ⟨hlast, hclosings⟩ := Prod.ext_iff.mp hx
  have htrace := List.dropLast_append_getLast? _ hlast
  have hreach := reachable_of_schedule (reconnected_admitted .pthread) .start hc
  exact ⟨_, c, htrace, hreach, hclosings,
    worker_passes_open .pthread [] hreach ⟨[], (List.append_nil _).trans htrace⟩ rfl⟩

end MySQLPlugin

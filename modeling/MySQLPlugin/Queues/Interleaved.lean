import MySQLPlugin.Interplay.Outcomes
import MySQLPlugin.Queues.Delivery
import MySQLPlugin.Safety.Traces

/-!
# The books in every interleaving

Whatever natives the scripts call, `mysql_close` included, and however the two threads interleave,
the queues of a handler that lives are those of its ledger; only the query that the worker has
executed and not yet taken from `queueData` is ahead of it. So every accepted query is in one place,
the worker executes the queries once and in the order of acceptance, and every outcome is told once
to every script that has the public.
-/

namespace MySQLPlugin

open Threads Dispatch Prog CMySQLHandler

/-! ### The queues of one handler -/

/-- The queues of the handler `x` are those of the ledger `L`; in `queueData` the queries `pre`, which
have been executed, come first. -/
structure Mirrors (pre : List MainInfo) (x : CMySQLHandler) (L : Ledger MainInfo ErrorInfo) :
    Prop where
  queueData : x.queueData = pre ++ L.waiting.map Prod.fst
  callbackData : x.callbackData = L.done.map Prod.fst
  errorCallback : x.errorCallback = L.failed.map Prod.snd
  reports : ∀ f ∈ L.handedErr ++ L.failed, Reported f

namespace Mirrors

variable {pre : List MainInfo} {x : CMySQLHandler} {L : Ledger MainInfo ErrorInfo}

/-- A handler without queries. -/
lemma new (hq : x.queueData = []) (hc : x.callbackData = []) (he : x.errorCallback = []) :
    Mirrors [] x {} where
  queueData := hq
  callbackData := hc
  errorCallback := he
  reports := by simp

/-- A job that has succeeded or failed comes from the front of the waiting ones. -/
lemma waiting (h : Mirrors [] x L) {d : MainInfo} (hd : x.queueData.head? = some d) :
    ∃ w ws, L.waiting = w :: ws ∧ w.1 = d := by
  rw [h.queueData, List.nil_append] at hd
  cases hw : L.waiting with
  | nil => simp [hw] at hd
  | cons w ws => exact ⟨w, ws, rfl, by simpa [hw] using hd⟩

lemma succeed (h : Mirrors [] x L) {d : MainInfo} (hd : x.queueData.head? = some d) :
    Mirrors [d] ((Assign.callbackData_push d).apply x) (L.step .succeed) := by
  obtain ⟨w, ws, hw, rfl⟩ := h.waiting hd
  have hqueue : x.queueData = w.1 :: ws.map Prod.fst := by rw [h.queueData, hw]; rfl
  simp only [Ledger.step, hw]
  exact
    { h with
      queueData := hqueue
      callbackData := by simp [Assign.apply, h.callbackData] }

lemma fail (h : Mirrors [] x L) {d : MainInfo} (hd : x.queueData.head? = some d) {e : ErrorInfo}
    (he : e.Reports d) : Mirrors [d] ((Assign.errorCallback_push e).apply x) (L.step (.fail e)) := by
  obtain ⟨w, ws, hw, rfl⟩ := h.waiting hd
  have hqueue : x.queueData = w.1 :: ws.map Prod.fst := by rw [h.queueData, hw]; rfl
  simp only [Ledger.step, hw]
  exact
    { h with
      queueData := hqueue
      errorCallback := by simp [Assign.apply, h.errorCallback]
      reports := by
        intro f hf
        rw [← List.append_assoc, List.mem_append, List.mem_singleton] at hf
        rcases hf with hf | rfl
        · exact h.reports f hf
        · exact he }

/-- An error of a query that is executed at once. -/
lemma foreign (h : Mirrors pre x L) {e : ErrorInfo} (he : e.Synchronous) :
    Mirrors pre ((Assign.errorCallback_push e).apply x) (L.step (.foreign e)) :=
  { h with
    errorCallback := by simp [Assign.apply, Ledger.step, h.errorCallback]
    reports := by
      intro f hf
      rw [Ledger.step, ← List.append_assoc, List.mem_append, List.mem_singleton] at hf
      rcases hf with hf | rfl
      · exact h.reports f hf
      · exact he }

lemma handOk (h : Mirrors pre x L) :
    Mirrors pre (Assign.callbackData_pop.apply x) (L.step .handOk) := by
  have hpop : x.callbackData.tail = L.done.tail.map Prod.fst := by
    rw [h.callbackData, List.map_tail]
  cases hd : L.done with
  | nil =>
    simp only [Ledger.step, hd]
    exact { h with callbackData := by simpa [Assign.apply, hd] using hpop }
  | cons d ds =>
    simp only [Ledger.step, hd]
    exact { h with callbackData := by simpa [Assign.apply, hd] using hpop }

lemma handErr (h : Mirrors pre x L) :
    Mirrors pre (Assign.errorCallback_pop.apply x) (L.step .handErr) := by
  have hpop : x.errorCallback.tail = L.failed.tail.map Prod.snd := by
    rw [h.errorCallback, List.map_tail]
  cases hf : L.failed with
  | nil =>
    simp only [Ledger.step, hf]
    exact { h with errorCallback := by simpa [Assign.apply, hf] using hpop }
  | cons f fs =>
    simp only [Ledger.step, hf]
    exact
      { h with
        errorCallback := by simpa [Assign.apply, hf] using hpop
        reports := by
          intro g hg
          exact h.reports g (by simpa [hf] using hg) }

/-- The executed query leaves `queueData`. -/
lemma dequeue {d : MainInfo} (h : Mirrors [d] x L) :
    Mirrors [] (Assign.queueData_pop.apply x) L :=
  { h with queueData := by simp [Assign.apply, h.queueData] }

end Mirrors

/-! ### The invariant -/

/-- How many queries of `h` have been executed and are still in `queueData`. -/
def ahead (h : HandlerPtr) (es : List Event) : ℕ := if inHand es = some (h, true) then 1 else 0

lemma ahead_eq_zero {h : HandlerPtr} {es : List Event} (he : inHand es ≠ some (h, true)) :
    ahead h es = 0 := if_neg he

/-- The books of the handlers that live, in a state with the scripts `p_Amx` at the beginning. -/
structure Booked (p_Amx : List Amx) (s : State) : Prop where
  fresh : ∀ h, s.nextHandler ≤ h → s.heap h = none ∧ ops h s.trace = []
  sheltered : Sheltered s
  inHand : ∀ h f, inHand s.trace = some (h, f) → visiting s.trace = some h ∧ h < s.nextHandler
  mirrors : ∀ h x, s.heap h = some x → ∃ pre : List MainInfo, pre.length = ahead h s.trace ∧
    Mirrors pre x (books h s.trace)
  loaded : s.p_Amx = scripts p_Amx s.trace
  replayed : Replayed s

lemma booked_init (p_Amx : List Amx) : Booked p_Amx (State.init p_Amx) where
  fresh _ _ := ⟨rfl, rfl⟩
  sheltered hv := absurd rfl hv
  inHand _ _ hw := by cases hw
  mirrors _ _ hx := by cases hx
  loaded := rfl
  replayed := replayed_init p_Amx

/-- The event neither begins nor ends the execution of a query at the front. -/
def Event.NoHand : Event → Prop
  | .enter .worker _ (.mysql_real_query _) _ | .assign .worker _ (.callbackData_push _)
  | .assign .worker _ (.errorCallback_push _) | .assign .worker _ .queueData_pop => False
  | _ => True

section

variable {p_Amx : List Amx} {D : Scope} {t : ThreadId} {e : Event} {s s' : State} {h : HandlerPtr}

lemma Effect.inHand_same (heff : Effect t e s s') (he : e.NoHand) :
    inHand s'.trace = inHand s.trace := by
  rw [heff.trace, inHand_concat]
  cases e with
  | enter u p f c =>
    cases u with
    | main => rfl
    | worker => cases f <;> first | rfl | exact he.elim
  | assign u p a =>
    cases u with
    | main => rfl
    | worker => cases a <;> first | rfl | exact he.elim
  | _ => rfl

/-- The worker is ahead of the books of `h` only by events on `h`. -/
lemma Permits.ahead_same (hp : Permits D t e s s') (he : ∀ a, e ≠ .assign t h a) :
    ahead h s'.trace = ahead h s.trace := by
  have hzero (hold : inHand s.trace ≠ some (h, true))
      (hnew : inHand s'.trace ≠ some (h, true)) : ahead h s'.trace = ahead h s.trace := by
    rw [ahead_eq_zero hold, ahead_eq_zero hnew]
  have hsame (hno : e.NoHand) : ahead h s'.trace = ahead h s.trace := by
    rw [ahead, ahead, hp.toEffect.inHand_same hno]
  have hafter : inHand s'.trace = e.onInHand (inHand s.trace) := by
    rw [hp.trace, inHand_concat]
  cases e with
  | enter u p g c =>
    obtain rfl : u = t := hp.by_
    cases u with
    | main => exact hsame trivial
    | worker =>
      cases g with
      | mysql_real_query q =>
        obtain ⟨hnone, -⟩ := hp.permitted rfl q rfl
        exact hzero (by simp [hnone]) (by simp [hafter, Event.onInHand])
      | _ => exact hsame trivial
  | assign u p a =>
    obtain rfl : u = t := hp.by_
    have hne : p ≠ h := by
      rintro rfl
      exact he a rfl
    cases u with
    | main => exact hsame trivial
    | worker =>
      have hallowed := hp.permitted.2.1
      cases a with
      | callbackData_push d =>
        exact hzero (by simp [hallowed.2.1]) (by simp [hafter, Event.onInHand, hne])
      | errorCallback_push e =>
        exact hzero (by simp [hallowed.1]) (by simp [hafter, Event.onInHand, hne])
      | queueData_pop => exact hzero (by simp [hallowed.2, hne]) (by simp [hafter, Event.onInHand])
      | _ => exact hsame trivial
  | _ => exact hsame trivial

namespace Booked

variable (hs : Booked p_Amx s)

include hs

lemma lt_nextHandler {x : CMySQLHandler} (hx : s.heap h = some x) : h < s.nextHandler := by
  by_contra hle
  rw [(hs.fresh h (Nat.le_of_not_lt hle)).1] at hx
  cases hx

/-- While the main thread holds the mutex the worker executes no query. -/
lemma inHand_of_main (hlocked : s.locked .main ≠ none) : MySQLPlugin.inHand s.trace = none := by
  have hworker : s.locked .worker = none := by
    cases hm : s.mutex with
    | none => simp [State.locked, hm]
    | some m =>
      obtain ⟨u, n⟩ := m
      cases u with
      | main => simp [State.locked, hm]
      | worker => simp [State.locked, hm] at hlocked
  cases hw : MySQLPlugin.inHand s.trace with
  | none => rfl
  | some w =>
    obtain ⟨p, f⟩ := w
    have hvisiting := (hs.inHand p f hw).1
    exact absurd hworker (hs.sheltered (by simp [hvisiting]))

lemma fresh_step (heff : Effect t e s s') {h : HandlerPtr} (hh : s'.nextHandler ≤ h) :
    s'.heap h = none ∧ ops h s'.trace = [] := by
  obtain ⟨hheap, hops⟩ := hs.fresh h (heff.nextHandler_le.trans hh)
  have hbook : e.bookOp h = none := by
    cases e with
    | assign u p a =>
      obtain ⟨x, hx, -⟩ := heff.occurs
      refine bookOp_of_ne u a ?_
      rintro rfl
      rw [hheap] at hx
      cases hx
    | _ => rfl
  refine ⟨?_, by rw [heff.trace, ops_concat_none hbook, hops]⟩
  rw [heff.heap h]
  cases e with
  | new p =>
    have hp : p = s.nextHandler := heff.occurs.1
    have hnext : s'.nextHandler = s.nextHandler + 1 := heff.nextHandler
    have hne : h ≠ p := by
      rintro rfl
      rw [hnext, hp] at hh
      exact Nat.not_succ_le_self _ hh
    rw [Event.onObject, if_neg hne, hheap]
  | assign u p a => simp [Event.onObject, hheap]
  | delete p => simp [Event.onObject, hheap]
  | _ => exact hheap

lemma sheltered_step (hp : Permits D t e s s') : Sheltered s' := by
  intro hv
  have hlocked (he : e.KeepsMutex) (hn : e.NoVisit) : s'.locked .worker ≠ none := by
    rw [hp.toEffect.locked he]
    exact hs.sheltered (by rwa [hp.toEffect.visiting hn] at hv)
  cases e with
  | lock u =>
    obtain rfl : u = t := hp.by_
    have hmutex : s'.mutex = some (u, 1) := hp.mutex (by simp)
    cases u with
    | main =>
      rw [hp.others .worker (by simp)]
      exact hs.sheltered (by rwa [hp.toEffect.visiting trivial] at hv)
    | worker => simp [State.locked, hmutex]
  | relock u =>
    obtain rfl : u = t := hp.by_
    cases u with
    | main =>
      rw [hp.others .worker (by simp)]
      exact hs.sheltered (by rwa [hp.toEffect.visiting trivial] at hv)
    | worker =>
      obtain ⟨n, hn⟩ := hp.occurs
      have hfree : s.locked .worker = none := hp.permitted rfl
      simp [State.locked, hn] at hfree
  | unlock u =>
    obtain rfl : u = t := hp.by_
    cases u with
    | main =>
      rw [hp.others .worker (by simp)]
      exact hs.sheltered (by rwa [hp.toEffect.visiting trivial] at hv)
    | worker =>
      rw [hp.toEffect.visiting trivial] at hv
      exact absurd (hp.permitted rfl) hv
  | visit p =>
    obtain ⟨rfl, hheld, -⟩ := hp.permitted
    rwa [hp.toEffect.locked trivial]
  | mark m =>
    cases m with
    | visitEnd p =>
      rw [hp.trace, visiting_concat] at hv
      exact absurd rfl hv
    | _ => exact hlocked trivial trivial
  | _ => exact hlocked trivial trivial

lemma inHand_step (hp : Permits D t e s s') {h : HandlerPtr} {f : Bool}
    (hw : MySQLPlugin.inHand s'.trace = some (h, f)) :
    visiting s'.trace = some h ∧ h < s'.nextHandler := by
  have hsame (hv : e.NoVisit) (hold : ∃ g, MySQLPlugin.inHand s.trace = some (h, g)) :
      visiting s'.trace = some h ∧ h < s'.nextHandler := by
    obtain ⟨g, hg⟩ := hold
    obtain ⟨hvisiting, hlt⟩ := hs.inHand h g hg
    exact ⟨(hp.toEffect.visiting hv).trans hvisiting, hlt.trans_le hp.toEffect.nextHandler_le⟩
  have hplain (hv : e.NoVisit) (he : e.NoHand) :
      visiting s'.trace = some h ∧ h < s'.nextHandler :=
    hsame hv ⟨f, by rwa [hp.toEffect.inHand_same he] at hw⟩
  have hafter := hw
  rw [hp.trace, inHand_concat] at hafter
  cases e with
  | visit p =>
    have hnone : MySQLPlugin.inHand s.trace = none := hp.permitted.2.2.2
    simp [Event.onInHand, hnone] at hafter
  | mark m =>
    cases m with
    | visitEnd p =>
      have hnone : MySQLPlugin.inHand s.trace = none := hp.permitted.2.2
      simp [Event.onInHand, hnone] at hafter
    | _ => exact hplain trivial trivial
  | enter u p g c =>
    obtain rfl : u = t := hp.by_
    cases u with
    | main => exact hplain trivial trivial
    | worker =>
      cases g with
      | mysql_real_query q =>
        obtain ⟨rfl, rfl⟩ : p = h ∧ false = f := by simpa [Event.onInHand] using hafter
        obtain ⟨-, d, hserves, -⟩ := hp.permitted rfl q rfl
        obtain ⟨x, hx, -⟩ := hserves.front
        refine ⟨(hp.toEffect.visiting trivial).trans hserves.visiting, ?_⟩
        exact (hs.lt_nextHandler hx).trans_le hp.toEffect.nextHandler_le
      | _ => exact hplain trivial trivial
  | assign u p a =>
    obtain rfl : u = t := hp.by_
    cases u with
    | main => exact hplain trivial trivial
    | worker =>
      have hallowed := hp.permitted.2.1
      cases a with
      | callbackData_push d =>
        obtain ⟨rfl, -⟩ : p = h ∧ true = f := by simpa [Event.onInHand] using hafter
        exact hsame trivial ⟨false, hallowed.2.1⟩
      | errorCallback_push e =>
        obtain ⟨rfl, -⟩ : p = h ∧ true = f := by simpa [Event.onInHand] using hafter
        exact hsame trivial ⟨false, hallowed.1⟩
      | queueData_pop => simp [Event.onInHand] at hafter
      | _ => exact hplain trivial trivial
  | _ => exact hplain trivial trivial

/-- The main thread changes the queues of `h`. -/
lemma mirrors_main {a : Assign} (hp : Permits D .main (.assign .main h a) s s')
    {x : CMySQLHandler} (hx : s.heap h = some x) :
    ∃ pre : List MainInfo, pre.length = ahead h s'.trace ∧
      Mirrors pre (a.apply x) (books h s'.trace) := by
  obtain ⟨pre, hlen, hm⟩ := hs.mirrors h x hx
  have hhand : MySQLPlugin.inHand s'.trace = MySQLPlugin.inHand s.trace :=
    hp.toEffect.inHand_same trivial
  have hahead : pre.length = ahead h s'.trace := by rw [hlen, ahead, ahead, hhand]
  have hallowed := hp.permitted.2.1
  cases a with
  | queueData_push q =>
    rw [hp.toEffect.books_eq (o := .accept q) (by simp [Event.bookOp])]
    exact ⟨pre, hahead, { hm with queueData := by simp [Assign.apply, Ledger.step, hm.queueData] }⟩
  | queueData_popAll =>
    have hnone := hs.inHand_of_main (hp.permitted.1 trivial)
    obtain rfl : pre = [] := List.length_eq_zero_iff.mp (by rw [hlen, ahead, hnone]; rfl)
    rw [hp.toEffect.books_eq (o := .discard) (by simp [Event.bookOp])]
    exact ⟨[], hahead, { hm with queueData := by simp [Assign.apply, Ledger.step] }⟩
  | callbackData_pop =>
    rw [hp.toEffect.books_eq (o := .handOk) (by simp [Event.bookOp])]
    exact ⟨pre, hahead, hm.handOk⟩
  | errorCallback_pop =>
    rw [hp.toEffect.books_eq (o := .handErr) (by simp [Event.bookOp])]
    exact ⟨pre, hahead, hm.handErr⟩
  | errorCallback_push e =>
    rw [hp.toEffect.books_eq (o := .foreign e) (by simp [Event.bookOp])]
    exact ⟨pre, hahead, hm.foreign hallowed⟩
  | queueData_pop => cases hallowed.1
  | callbackData_push d => cases hallowed.1
  | _ =>
    rw [hp.toEffect.books_eq_self rfl]
    exact ⟨pre, hahead, hm.queueData, hm.callbackData, hm.errorCallback, hm.reports⟩

/-- The worker changes the queues of `h`. -/
lemma mirrors_worker {a : Assign} (hp : Permits D .worker (.assign .worker h a) s s')
    {x : CMySQLHandler} (hx : s.heap h = some x) :
    ∃ pre : List MainInfo, pre.length = ahead h s'.trace ∧
      Mirrors pre (a.apply x) (books h s'.trace) := by
  obtain ⟨pre, hlen, hm⟩ := hs.mirrors h x hx
  have hafter : MySQLPlugin.inHand s'.trace =
      (Event.assign .worker h a).onInHand (MySQLPlugin.inHand s.trace) := by
    rw [hp.trace, inHand_concat]
  have hidle {f : Bool} (hw : MySQLPlugin.inHand s.trace = some (h, f)) (hf : f = false) :
      pre = [] := by
    rw [← List.length_eq_zero_iff, hlen, ahead_eq_zero]
    simp [hw, hf]
  have hfront {d : MainInfo} (hserves : Serves h d s) : x.queueData.head? = some d := by
    obtain ⟨y, hy, hd⟩ := hserves.front
    obtain rfl : y = x := Option.some.inj (hy.symm.trans hx)
    exact hd
  have hallowed := hp.permitted.2.1
  cases a with
  | callbackData_push d =>
    obtain ⟨-, hw, hserves⟩ := hallowed
    obtain rfl := hidle hw rfl
    rw [hp.toEffect.books_eq (o := .succeed) (by simp [Event.bookOp])]
    exact ⟨[d], by simp [ahead, hafter, Event.onInHand], hm.succeed (hfront hserves)⟩
  | errorCallback_push e =>
    obtain ⟨hw, d, hserves, he⟩ := hallowed
    obtain rfl := hidle hw rfl
    rw [hp.toEffect.books_eq (o := .fail e) (by simp [Event.bookOp])]
    exact ⟨[d], by simp [ahead, hafter, Event.onInHand], hm.fail (hfront hserves) he⟩
  | queueData_pop =>
    have hone : pre.length = 1 := by rw [hlen, ahead, if_pos hallowed.2]
    obtain ⟨d, rfl⟩ := List.length_eq_one_iff.mp hone
    rw [hp.toEffect.books_eq_self rfl]
    exact ⟨[], by simp [ahead, hafter, Event.onInHand], hm.dequeue⟩
  | queueData_push q => cases hallowed
  | queueData_popAll => cases hallowed
  | callbackData_pop => cases hallowed
  | errorCallback_pop => cases hallowed
  | _ =>
    have hahead : pre.length = ahead h s'.trace := by
      rw [hlen, ahead, ahead, hp.toEffect.inHand_same trivial]
    rw [hp.toEffect.books_eq_self rfl]
    exact ⟨pre, hahead, hm.queueData, hm.callbackData, hm.errorCallback, hm.reports⟩

lemma mirrors_step (hp : Permits D t e s s') {x' : CMySQLHandler} (hx' : s'.heap h = some x') :
    ∃ pre : List MainInfo, pre.length = ahead h s'.trace ∧ Mirrors pre x' (books h s'.trace) := by
  have hkeep (he : ∀ a, e ≠ .assign t h a) (hbook : e.bookOp h = none)
      (hheap : s'.heap h = s.heap h) : ∃ pre : List MainInfo, pre.length = ahead h s'.trace ∧
        Mirrors pre x' (books h s'.trace) := by
    rw [hp.ahead_same he, hp.toEffect.books_eq_self hbook]
    exact hs.mirrors h x' (hheap ▸ hx')
  have hheap := hp.heap h
  cases e with
  | assign u p a =>
    obtain rfl : u = t := hp.by_
    by_cases hph : p = h
    · subst hph
      obtain ⟨x, hx, hx''⟩ := hp.toEffect.assigned
      obtain rfl : a.apply x = x' := Option.some.inj (hx''.symm.trans hx')
      cases u with
      | main => exact hs.mirrors_main hp hx
      | worker => exact hs.mirrors_worker hp hx
    · refine hkeep (fun a' heq => hph ?_) (bookOp_of_ne u a hph) ?_
      · cases heq
        rfl
      · rw [hheap, Event.onObject, if_neg (Ne.symm hph)]
  | new p host user passw db port =>
    by_cases hph : h = p
    · obtain rfl : p = s.nextHandler := hp.occurs.1
      subst hph
      rw [Event.onObject, if_pos rfl, hx'] at hheap
      obtain rfl := Option.some.inj hheap
      have hops : ops s.nextHandler s'.trace = [] := by
        rw [hp.trace, ops_concat_none rfl, (hs.fresh s.nextHandler le_rfl).2]
      have hidle : MySQLPlugin.inHand s.trace ≠ some (s.nextHandler, true) := fun hw =>
        Nat.lt_irrefl _ (hs.inHand _ _ hw).2
      refine ⟨[], ?_, ?_⟩
      · rw [hp.ahead_same (by simp), ahead_eq_zero hidle]
        rfl
      · rw [books, hops]
        exact .new rfl rfl rfl
    · exact hkeep (by simp) rfl (by rw [hheap, Event.onObject, if_neg hph])
  | delete p =>
    rw [Event.onObject] at hheap
    split_ifs at hheap with hph
    · rw [hheap] at hx'
      cases hx'
    · exact hkeep (by simp) rfl hheap
  | _ => exact hkeep (by simp) rfl hheap

/-- Every permitted event keeps the books. -/
lemma step (hp : Permits D t e s s') : Booked p_Amx s' where
  fresh _ hh := hs.fresh_step hp.toEffect hh
  sheltered := hs.sheltered_step hp
  inHand _ _ hw := hs.inHand_step hp hw
  mirrors _ _ hx := hs.mirrors_step hp hx
  loaded := by rw [hp.p_Amx, hp.trace, hs.loaded, scripts, scripts, List.foldl_concat]
  replayed := hs.replayed.step hp.toEffect

end Booked

/-- What the books say of the execution of the query at the front. -/
lemma Permits.executes (hp : Permits D t e s s') (hs : Booked p_Amx s) {o : Op MainInfo ErrorInfo}
    (ho : e.bookOp h = some o) :
    (Ledger.Executes o ∧ inHand s.trace = some (h, false) ∧ inHand s'.trace = some (h, true)) ∨
      (¬ Ledger.Executes o ∧ inHand s'.trace = inHand s.trace ∧
        (o = .discard → inHand s.trace = none)) := by
  cases e with
  | assign u p a =>
    obtain rfl : p = h := by
      by_contra hph
      rw [bookOp_of_ne u a hph] at ho
      cases ho
    obtain rfl : u = t := hp.by_
    have hallowed := hp.permitted.2.1
    have hafter : inHand s'.trace = (Event.assign u p a).onInHand (inHand s.trace) := by
      rw [hp.trace, inHand_concat]
    cases u with
    | main =>
      right
      refine ⟨?_, hafter, ?_⟩
      · cases a <;> simp only [Event.bookOp, if_true, Option.some.injEq, reduceCtorEq] at ho <;>
          (subst ho; exact id)
      · rintro rfl
        refine hs.inHand_of_main (hp.permitted.1 ?_)
        cases a <;> simp [Event.bookOp] at ho
        trivial
    | worker =>
      left
      cases a with
      | callbackData_push d =>
        obtain rfl : .succeed = o := by simpa [Event.bookOp] using ho
        exact ⟨trivial, hallowed.2.1, hafter⟩
      | errorCallback_push err =>
        obtain rfl : .fail err = o := by simpa [Event.bookOp] using ho
        exact ⟨trivial, hallowed.1, hafter⟩
      | _ => cases ho
  | _ => cases ho

end

/-! ### The books of a run -/

section

variable {b : Build} {D : Scope} {p_Amx : List Amx} {c : Config Stmt Fault State ThreadId Point}

lemma Reaches.booked (hc : Reaches b D p_Amx c) : Booked p_Amx c.shared :=
  hc.keeps (fun _ _ _ _ hs hp => hs.step hp) (booked_init p_Amx)

/-- The books of `h` say where the queries of the handler `x` are; a query is handed out when it leaves
the channel of its outcome. -/
structure Accounted (h : HandlerPtr) (x : CMySQLHandler) (s : State) : Prop where
  /-- Every accepted query is in one place, and in the order of acceptance there. -/
  sound : (books h s.trace).Sound
  /-- The accepted queries are those that the calls of the scripts have put into the queue, in the
  order of the calls; the last call may still be running. -/
  accepted : (books h s.trace).accepted =
    entries h (callLog s.trace).done ++ queriesFor h (callLog s.trace).queued
  /-- A call puts only its own query into a queue, once, and returns its id then. -/
  calls : ∀ a ∈ (callLog s.trace).done, a.Receipted
  /-- Queries are discarded only when a call closes the connection of the handler. -/
  discards : Discards s.trace
  /-- A query that has been executed is in `queueData` only while the worker, which holds the mutex,
  visits the handler. -/
  queueData : ∃ pre, x.queueData = pre ++ (books h s.trace).waiting.map Prod.fst ∧ pre.length ≤ 1 ∧
    (pre ≠ [] → visiting s.trace = some h ∧ ∃ n, s.mutex = some (.worker, n))
  callbackData : x.callbackData = (books h s.trace).done.map Prod.fst
  errorCallback : x.errorCallback = (books h s.trace).failed.map Prod.snd
  reports : ∀ f ∈ (books h s.trace).handedErr ++ (books h s.trace).failed, Reported f

/-- The queues of every handler that lives are what the books of the run say. -/
theorem queues_booked (hc : Reaches b D p_Amx c) {h : HandlerPtr} {x : CMySQLHandler}
    (hx : c.shared.heap h = some x) : Accounted h x c.shared := by
  have hbooked := hc.booked
  have hanswers : Answers ∅ c.shared := reachable_answers step_of_allowing (confined_allowing b _)
    (fun _ _ _ h => h.elim) hc
  obtain ⟨pre, hlen, hm⟩ := hbooked.mirrors h x hx
  refine ⟨Ledger.sound_run _, books_accepted h _, fun a ha => (hanswers.receipted a ha).1,
    hanswers.discards, ⟨pre, hm.queueData, ?_, fun hpre => ?_⟩, hm.callbackData, hm.errorCallback,
    hm.reports⟩
  · rw [hlen, ahead]
    split_ifs <;> simp
  · have hhand : inHand c.shared.trace = some (h, true) := by
      by_contra hno
      rw [ahead_eq_zero hno] at hlen
      exact hpre (List.length_eq_zero_iff.mp hlen)
    have hvisiting := (hbooked.inHand h true hhand).1
    have hlocked := hbooked.sheltered (by simp [hvisiting])
    refine ⟨hvisiting, ?_⟩
    cases hm : c.shared.mutex with
    | none => simp [State.locked, hm] at hlocked
    | some m =>
      obtain ⟨u, n⟩ := m
      cases u with
      | worker => exact ⟨n, rfl⟩
      | main => simp [State.locked, hm] at hlocked

/-- The worker has executed the query and filed its outcome. -/
def filed : List Turn := queued ++ [.go .worker 15 {}]

theorem queues_booked_filed :
    ∃ c x, schedule (allowing .pthread openCallbacks.callbacks) filed (loaded []) = some c ∧
      c.shared.heap 0 = some x ∧ x.queueData.length = 1 ∧ x.callbackData.length = 1 ∧
      Accounted 0 x c.shared := by
  have hrun : (schedule (allowing .pthread openCallbacks.callbacks) filed (loaded [])).map
      (fun c => (c.shared.heap 0).map fun x => (x.queueData.length, x.callbackData.length))
        = some (some (1, 1)) := by decide
  obtain ⟨c, hc, hqueues⟩ := Option.map_eq_some_iff.mp hrun
  obtain ⟨x, hx, hlengths⟩ := Option.map_eq_some_iff.mp hqueues
  obtain ⟨hwaiting, hdone⟩ := Prod.mk.inj hlengths
  have hreach : Reaches .pthread openCallbacks [] c := reaches_of_within
    (by simp [filed, queued, Turn.Within, MainCall.Only, openCallbacks]) hc
  exact ⟨c, x, hc, hx, hwaiting, hdone, queues_booked hreach hx⟩

/-! ### The publics -/

/-- The public tells of the outcome that the assignment takes from its channel, when the handler is at
position `i` and its books are `L`. -/
def Assign.Announces (i : ℕ) (L : Ledger MainInfo ErrorInfo) (p : Public) : Assign → Prop
  | .callbackData_pop => ∃ d, L.done.head? = some d ∧ p = onQueryFinish i d.1
  | .errorCallback_pop => ∃ f, L.failed.head? = some f ∧ p = onQueryError i f.2
  | _ => False

lemma Booked.announces_success {s : State} (hs : Booked p_Amx s) {p : Public} {h : HandlerPtr}
    (hp : p.TellsSuccess h s) : ∃ i, (tableAt s.trace)[i]? = some h ∧
      Assign.callbackData_pop.Announces i (books h s.trace) p := by
  obtain ⟨i, x, d, hi, hx, hd, rfl⟩ := hp
  obtain ⟨pre, -, hm⟩ := hs.mirrors h x hx
  rw [hm.callbackData, List.head?_map, Option.map_eq_some_iff] at hd
  obtain ⟨w, hw, rfl⟩ := hd
  exact ⟨i, hs.replayed.table ▸ hi, w, hw, rfl⟩

lemma Booked.announces_error {s : State} (hs : Booked p_Amx s) {p : Public} {h : HandlerPtr}
    (hp : p.TellsError h s) : ∃ i, (tableAt s.trace)[i]? = some h ∧
      Assign.errorCallback_pop.Announces i (books h s.trace) p := by
  obtain ⟨i, x, e, hi, hx, he, rfl⟩ := hp
  obtain ⟨pre, -, hm⟩ := hs.mirrors h x hx
  rw [hm.errorCallback, List.head?_map, Option.map_eq_some_iff] at he
  obtain ⟨f, hf, rfl⟩ := he
  exact ⟨i, hs.replayed.table ▸ hi, f, hf, rfl⟩

/-- What the trace shows of the publics before the event: since the last outcome was taken away, at
most one public has been called, and at most once in every script that has it; it tells of the
outcome at the front of a channel, and that outcome leaves the channel when every script has been
called. -/
def Event.Told (D : Scope) (p_Amx : List Amx) (es : List Event) : Event → Prop
  | .exec a p => told es ++ [(a, p)] <+: p.calls (scripts p_Amx es) ∧
      (D.CallbacksOpen → ∃ i h pop, (tableAt es)[i]? = some h ∧
        Assign.Announces i (books h es) p pop)
  | .assign .main h pop => pop.Pops → ∃ p : Public, told es = p.calls (scripts p_Amx es) ∧
      (D.CallbacksOpen → ∃ i, (tableAt es)[i]? = some h ∧ pop.Announces i (books h es) p)
  | _ => True

lemma Permits.told {t : ThreadId} {e : Event} {s s' : State} (hp : Permits D t e s s')
    (hs : Booked p_Amx s) : e.Told D p_Amx s.trace := by
  cases e with
  | exec a p =>
    refine ⟨hs.loaded ▸ hp.permitted.1, fun hD => ?_⟩
    obtain ⟨h, htells | htells⟩ := hp.permitted.2 hD
    · obtain ⟨i, hi, hann⟩ := hs.announces_success htells
      exact ⟨i, h, .callbackData_pop, hi, hann⟩
    · obtain ⟨i, hi, hann⟩ := hs.announces_error htells
      exact ⟨i, h, .errorCallback_pop, hi, hann⟩
  | assign u h a =>
    cases u with
    | worker => trivial
    | main =>
      intro ha
      have hfollows := hp.permitted.2.2
      cases a with
      | callbackData_pop =>
        obtain ⟨p, htold, htells⟩ := hfollows
        exact ⟨p, hs.loaded ▸ htold, fun hD => hs.announces_success (htells hD)⟩
      | errorCallback_pop =>
        obtain ⟨p, htold, htells⟩ := hfollows
        exact ⟨p, hs.loaded ▸ htold, fun hD => hs.announces_error (htells hD)⟩
      | _ => exact ha.elim
  | _ => trivial

/-- In every interleaving every script is called once for every outcome that leaves its channel, and
for no other. -/
theorem outcomes_told_once (hc : Reaches b D p_Amx c) :
    (∀ es e, es ++ [e] <+: c.shared.trace → e.Told D p_Amx es) ∧
      ∀ x, c.place .main = .at x → told c.shared.trace = [] := by
  constructor
  · intro es e he
    exact hc.always (fun _ _ _ _ hs hp => Booked.step hs hp) (fun _ _ _ _ hs hp => hp.told hs)
      (booked_init p_Amx) he
  · intro x hat
    have harrived := hc.arrived hat
    cases x <;> first | exact harrived.2 | exact harrived.elim

/-- The query has been executed, and `ProcessTick` calls the public of the script. -/
def telling : List Turn := queued ++ [.go .worker 24 {}, .call .processTick, .go .main 14 {}]

theorem outcomes_told_once_telling :
    ∃ c, schedule (allowing .pthread openCallbacks.callbacks) telling (loaded [finisher]) = some c ∧
      told c.shared.trace = [(finisher, onQueryFinish 0 ⟨['q'], 1, 0, OnQueryFinish⟩)] ∧
      (∀ es e, es ++ [e] <+: c.shared.trace → e.Told openCallbacks [finisher] es) ∧
        ∀ x, c.place .main = .at x → told c.shared.trace = [] := by
  have hrun : (schedule (allowing .pthread openCallbacks.callbacks) telling (loaded [finisher])).map
      (fun c => told c.shared.trace)
        = some [(finisher, onQueryFinish 0 ⟨['q'], 1, 0, OnQueryFinish⟩)] := by decide
  obtain ⟨c, hc, htold⟩ := Option.map_eq_some_iff.mp hrun
  have hreach : Reaches .pthread openCallbacks [finisher] c := reaches_of_within
    (by simp [telling, queued, Turn.Within, MainCall.Only, openCallbacks]) hc
  exact ⟨c, hc, htold, outcomes_told_once hreach⟩

end

end MySQLPlugin

import MySQLPlugin.Interplay.Schedule
import MySQLPlugin.Queues.Calls

/-!
# What a call of a query returns

`mysql_query` and `mysql_query_callback` return the id of a query that they have put into the queue,
`1` for one that they have executed, and `0` for one that they have not accepted. The id is the
script's own, so it can be `0` as well.
-/

namespace MySQLPlugin

open Threads Prog CMySQLHandler Natives

/-- The queries that the call has queued or executed. -/
def CallRecord.accepted (a : CallRecord) : List CString :=
  a.queued.map (·.2.m_szQuery) ++ a.executed.map (·.2)

/-- The script repeats the call until it returns something other than `0`. -/
def Repeats (n : NativeCall) (as : List CallRecord) : Prop :=
  ∃ tries last, as = tries ++ [last] ∧ (∀ a ∈ tries, a.call = n ∧ a.result = 0) ∧ last.call = n ∧
    last.result ≠ 0

/-! ### The id of a query -/

lemma NativeCall.id_of_job {n : NativeCall} {d : MainInfo} (h : n.job = some d) :
    n.id = some d.m_uiResult ∧ n.query = some d.m_szQuery := by
  cases n with
  | mysql_query q resultid extraid c =>
    simp only [NativeCall.job, Option.ite_none_left_eq_some, Option.some.injEq] at h
    obtain ⟨-, rfl⟩ := h
    exact ⟨rfl, rfl⟩
  | mysql_query_callback index q callback extraid c =>
    obtain rfl := Option.some.inj h
    exact ⟨rfl, rfl⟩
  | _ => cases h

/-- A call of a query that has accepted it returns `0` only if the script has given the id `0`. -/
lemma CallRecord.Receipted.zero_iff {a : CallRecord} (ha : a.Receipted) {q : CString}
    (hq : q ∈ a.call.query) :
    (a.result = 0 ↔ a.accepted = []) ↔ (a.call.id = some 0 → a.queued = []) := by
  cases ha with
  | refused hqueued hexecuted hzero =>
    simp [CallRecord.accepted, hqueued, hexecuted, hzero fun hnone => by simp [hnone] at hq]
  | queued _ hjob hqueued hexecuted hresult =>
    simp [CallRecord.accepted, hqueued, hexecuted, hresult, (NativeCall.id_of_job hjob).1]
  | executed _ _ _ hqueued hexecuted hresult =>
    simp [CallRecord.accepted, hqueued, hexecuted, hresult]

/-- All queries that have been accepted, in order. -/
def acceptedIn (as : List CallRecord) : List CString := as.flatMap CallRecord.accepted

/-- A call that returns something other than `0` has accepted its query, once. -/
lemma CallRecord.Receipted.accepted_eq {a : CallRecord} (ha : a.Receipted) {q : CString}
    (hq : q ∈ a.call.query) (hres : a.result ≠ 0) : a.accepted = [q] := by
  cases ha with
  | refused _ _ hzero => exact absurd (hzero fun hnone => by simp [hnone] at hq) hres
  | queued _ hjob hqueued hexecuted =>
    have hd := Option.some.inj ((NativeCall.id_of_job hjob).2.symm.trans hq)
    simp [CallRecord.accepted, hqueued, hexecuted, hd]
  | executed _ hquery _ hqueued hexecuted =>
    have hq' := Option.some.inj (hquery.symm.trans hq)
    simp [CallRecord.accepted, hqueued, hexecuted, hq']

/-- A script that repeats a call until it returns something other than `0`, when `0` tells that
nothing has been accepted. -/
lemma Repeats.accepted {n : NativeCall} {as : List CallRecord} {q : CString} (h : Repeats n as)
    (hq : q ∈ n.query) (has : ∀ a ∈ as, a.Receipted)
    (hzero : ∀ a ∈ as, a.call = n → (a.result = 0 ↔ a.accepted = [])) : acceptedIn as = [q] := by
  obtain ⟨tries, last, rfl, htries, hlast, hres⟩ := h
  have hnothing : acceptedIn tries = [] := by
    refine List.flatMap_eq_nil_iff.mpr fun a ha => ?_
    obtain ⟨hcall, h0⟩ := htries a ha
    exact (hzero a (List.mem_append_left _ ha) hcall).mp h0
  have honce : last.accepted = [q] := (has last (by simp)).accepted_eq (hlast ▸ hq) hres
  have happend : acceptedIn (tries ++ [last]) = acceptedIn tries ++ last.accepted := by
    simp [acceptedIn]
  rw [happend, hnothing, honce, List.nil_append]

/-! ### Runs -/

/-- The handler whose members are read. -/
def Stmt.object {β : Type} : Stmt β → Option HandlerPtr
  | .this h => some h
  | _ => none

/-- In a call with the id `0` the main thread finds no handler that is connected. -/
def Stmt.FindsDead (t : ThreadId) {β : Type} (a : Stmt β) (s : State) : Prop :=
  t = .main → ∀ n ∈ (callLog s.trace).asked, n.id = some 0 →
    ∀ h ∈ a.object, ∀ x ∈ s.heap h, x.m_bIsConnected = false

instance (t : ThreadId) {β : Type} (a : Stmt β) (s : State) : Decidable (a.FindsDead t s) :=
  inferInstanceAs (Decidable (t = .main → ∀ n ∈ (callLog s.trace).asked, n.id = some 0 →
    ∀ h ∈ a.object, ∀ x ∈ s.heap h, x.m_bIsConnected = false))

/-- The plugin, when no call with the id `0` gets past the tests for a valid handle and for a live
connection. -/
def refusing (b : Build) : Machine Stmt Fault State ThreadId Reply :=
  (plugin b).restrict fun t a _ s => a.FindsDead t s

lemma refusing_finds {b : Build} {h : HandlerPtr} {s s' : State} {x : CMySQLHandler}
    (hst : (refusing b).Step .main (.this h) s (.ok x) s') :
    ∀ n ∈ (callLog s.trace).asked, n ∈ {n : NativeCall | n.id = some 0} → x.m_bIsConnected = false := by
  have hx := (step_this hst.of_restrict).2
  obtain ⟨r, ⟨-, hdead⟩, -⟩ := hst
  exact fun n hn hid => hdead rfl n hn hid h rfl x hx

/-- `0` tells the script that its query has not been accepted, and a script that repeats its calls
until they return something else has every query accepted once, in every run in which the calls with
the id `0` find an invalid handle or a dead connection. Where the other thread does not interrupt a
call, it returns `0` exactly for a query that has not been accepted, if and only if it does not have
the id `0` and a handle that denotes a connected handler. -/
theorem zero_means_refused_iff (b : Build) (p_Amx : List Amx)
    (c : Config Stmt Fault State ThreadId Point) :
    (Config.Reachable (refusing b) (Starts (MainCall.Only Set.univ)) (loaded p_Amx) c →
      (∀ a ∈ (callLog c.shared.trace).done, ∀ q ∈ a.call.query, a.result = 0 ↔ a.accepted = []) ∧
      ∀ n as, ∀ q ∈ n.query, as.Sublist (callLog c.shared.trace).done → Repeats n as →
        acceptedIn as = [q]) ∧
    (Config.Reachable (plugin b) (Starts (MainCall.Only Set.univ)) (loaded p_Amx) c →
      c.place .main = .at .idle → ∀ n, ∀ q ∈ n.query, ∀ r s,
        Run (plugin b) .main (native n) c.shared (.ok r) s →
        ∃ a, (callLog s.trace).done = (callLog c.shared.trace).done ++ [a] ∧ a.call = n ∧ a.result = r ∧
          ((a.result = 0 ↔ a.accepted = []) ↔ ¬(n.id = some 0 ∧ n.Live c.shared))) := by
  constructor
  · intro hc
    have hanswers := (reachable_answers (fun hst => hst.of_restrict) (confined_univ _)
      refusing_finds hc).receipted
    have hzero (a) (ha : a ∈ (callLog c.shared.trace).done) (q) (hq : q ∈ a.call.query) :
        a.result = 0 ↔ a.accepted = [] := ((hanswers a ha).1.zero_iff hq).mpr (hanswers a ha).2
    refine ⟨hzero, fun n as q hq hsub hrep => ?_⟩
    exact hrep.accepted hq (fun a ha => (hanswers a (hsub.subset ha)).1) fun a ha hcall =>
      hzero a (hsub.subset ha) q (hcall ▸ hq)
  · intro hc hat n q hq r s hrun
    have hnone {h : HandlerPtr} {s : State} {x : CMySQLHandler} {s' : State}
        (_ : (plugin b).Step .main (.this h) s (.ok x) s') :
        ∀ n ∈ (callLog s.trace).asked, n ∈ (∅ : Set NativeCall) → x.m_bIsConnected = false :=
      fun _ _ h => h.elim
    have hidle := reachable_idle id (confined_univ _) hnone hc hat
    have hrecorded := ((wp_iff _ _ _).mp (native_recorded n c.shared)).1 _ _ hrun
    obtain ⟨a, hlog, hcall, hresult⟩ := hrecorded
    have hanswers := ((wp_iff _ _ _).mp (native_answers id hnone n hidle).wp).1 _ _ hrun
    have ha : a.Receipted := (hanswers.1.receipted a (by simp [hlog])).1
    refine ⟨a, hlog, hcall, hresult, (ha.zero_iff (hcall ▸ hq)).trans ?_⟩
    rw [hcall, not_and]
    refine forall_congr' fun hid => ?_
    have hjob : ∃ d, n.job = some d := by
      cases n with
      | mysql_query q resultid extraid c =>
        obtain rfl : resultid = 0 := Option.some.inj hid
        exact ⟨⟨q, 0, extraid, OnQueryFinish⟩, by simp [NativeCall.job]⟩
      | mysql_query_callback index q callback extraid c => exact ⟨_, rfl⟩
      | _ => cases hid
    obtain ⟨d, hd⟩ := hjob
    obtain ⟨qs, hlog', hqs⟩ := ((wp_iff _ _ _).mp (native_queues hd c.shared)).1 _ _ hrun
    obtain rfl := List.singleton_inj.mp (List.append_cancel_left (hlog.symm.trans hlog'))
    have hqueued : (callLog c.shared.trace).queued = [] := hidle.2.1
    simpa [hqueued] using hqs

/-- A connection is opened, and a threaded query is sent with the id `resultid`. -/
def sendWith (resultid : Cell) : List Turn :=
  [.call (.native (.mysql_connect ['h'] ['u'] ['d'] ['p'] 3306)), .go .main 15 {},
    .call (.native (.mysql_query ['q'] resultid 0 1)), .go .main 11 {}]

lemma sendWith_admitted (b : Build) (resultid : Cell) :
    ∀ turn ∈ sendWith resultid, turn.Admitted (plugin b) Set.univ := by
  simp only [sendWith, List.forall_mem_cons, Turn.Admitted]
  exact ⟨fun _ _ => trivial, fun _ _ => trivial, fun _ _ => trivial, fun _ _ => trivial, by simp⟩

/-- A query with the id `0` meets an invalid handle; a query is executed at the second try; another one
is queued. -/
def tryAgain : List Turn :=
  [.call (.native (.mysql_connect ['h'] ['u'] ['d'] ['p'] 3306)), .go .main 15 {},
    .call (.native (.mysql_query ['q'] 0 0 2)), .go .main 4 {},
    .call (.native (.mysql_query ['s'] (-1) 0 1)), .go .main 18 { ok := false },
    .call (.native (.mysql_query ['s'] (-1) 0 1)), .go .main 13 {},
    .call (.native (.mysql_query_callback 7 ['q'] ['f'] 0 1)), .go .main 9 {}]

/-- Every `0` in the run is a refusal; a query with the id `0` that is queued next is not. -/
theorem zero_means_refused_iff_tryAgain :
    ∃ c, schedule ((plugin .pthread).checked fun t a _ s => decide (a.FindsDead t s)) tryAgain
        (loaded []) = some c ∧
      (callLog c.shared.trace).done.map (fun a => (a.result, a.accepted))
        = [(1, []), (0, []), (0, []), (1, [['s']]), (7, [['q']])] ∧
      ((∀ a ∈ (callLog c.shared.trace).done, ∀ q ∈ a.call.query, a.result = 0 ↔ a.accepted = []) ∧
        ∀ n as, ∀ q ∈ n.query, as.Sublist (callLog c.shared.trace).done → Repeats n as →
          acceptedIn as = [q]) ∧
      ∃ s a, Run (plugin .pthread) .main (native (.mysql_query ['r'] 0 0 1)) c.shared (.ok 0) s ∧
        (callLog s.trace).done = (callLog c.shared.trace).done ++ [a] ∧ a.accepted = [['r']] ∧
        ((a.result = 0 ↔ a.accepted = []) ↔
          ¬((NativeCall.mysql_query ['r'] 0 0 1).id = some 0 ∧
            (NativeCall.mysql_query ['r'] 0 0 1).Live c.shared)) := by
  have hrun : (schedule ((plugin .pthread).checked fun t a _ s => decide (a.FindsDead t s)) tryAgain
      (loaded [])).map (fun c => (pointOf (c.place .main),
        (callLog c.shared.trace).done.map fun a => (a.result, a.accepted)))
      = some (some .idle, [(1, []), (0, []), (0, []), (1, [['s']]), (7, [['q']])]) := by decide +kernel
  obtain ⟨c, hc, h⟩ := Option.map_eq_some_iff.mp hrun
  obtain ⟨hat, hdone⟩ := Prod.mk.inj h
  have hnext : (schedule ((plugin .pthread).checked fun t a _ s => decide (a.FindsDead t s)) tryAgain
      (loaded [])).bind (fun c => ((native (.mysql_query ['r'] 0 0 1)).eval (plugin .pthread) .main
        (fun _ _ => {}) c.shared).map fun o =>
          (o.1, (callLog o.2.trace).done.getLast?.map CallRecord.accepted)) = some (0, some [['r']]) := by
    decide +kernel
  rw [hc, Option.bind_some] at hnext
  have hturns : ∀ turn ∈ tryAgain, turn.Admitted (plugin .pthread) Set.univ := by
    intro turn hturn
    simp only [tryAgain, List.mem_cons, List.not_mem_nil, or_false] at hturn
    rcases hturn with rfl | rfl | rfl | rfl | rfl | rfl | rfl | rfl | rfl | rfl <;>
      exact fun _ _ => trivial
  have hreach := reachable_of_checked (R := fun t a _ s => a.FindsDead t s)
    (fun _ _ _ _ => of_decide_eq_true) hturns hc
  obtain ⟨⟨r, s⟩, heval, hlast⟩ := Option.map_eq_some_iff.mp hnext
  obtain ⟨rfl, haccepted⟩ := Prod.mk.inj hlast
  have hnative := run_of_eval (M := plugin .pthread) (fun _ _ => trivial) _ heval
  obtain ⟨a, hlog, -, -, hiff⟩ := (zero_means_refused_iff .pthread [] c).2
    (hreach.mono Machine.Step.of_restrict id) (pointOf_eq_some.mp hat) _ ['r'] rfl _ _ hnative
  rw [hlog, List.getLast?_concat, Option.map_some, Option.some.injEq] at haccepted
  exact ⟨c, hc, hdone, (zero_means_refused_iff .pthread [] c).1 hreach, s, a, hnative, hlog, haccepted,
    hiff⟩

/-- A query with the id `0` is put into the queue, and the script is told that it is not. -/
theorem zero_for_accepted :
    ∃ c, Config.Reachable (plugin .pthread) (Starts (MainCall.Only Set.univ)) (loaded []) c ∧
      ∃ a ∈ (callLog c.shared.trace).done, a.call = .mysql_query ['q'] 0 0 1 ∧
        a.accepted = [['q']] ∧ a.result = 0 ∧
        (c.shared.heap 0).map (fun x => x.queueData.map (·.m_szQuery)) = some [['q']] := by
  have hrun : (schedule (plugin .pthread) (sendWith 0) (loaded [])).map (fun c =>
      ((callLog c.shared.trace).done.getLast?,
        (c.shared.heap 0).map fun x => x.queueData.map (·.m_szQuery)))
      = some (some ⟨.mysql_query ['q'] 0 0 1, some 0, true, [(0, ⟨['q'], 0, 0, OnQueryFinish⟩)], [], 0⟩,
        some [['q']]) := by decide +kernel
  obtain ⟨c, hc, h⟩ := Option.map_eq_some_iff.mp hrun
  obtain ⟨hlast, hqueue⟩ := Prod.mk.inj h
  exact ⟨c, reachable_of_schedule (sendWith_admitted .pthread 0) .start hc, _,
    List.mem_of_getLast? hlast, rfl, rfl, rfl, hqueue⟩

end MySQLPlugin

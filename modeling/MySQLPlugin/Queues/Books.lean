import MySQLPlugin.Dispatch.Ledger
import MySQLPlugin.Logic.Runs

/-!
# The books of a handler

Every event on the queues of a handler is an operation on the books of a dispatcher, so the trace
of a run determines the ledger of each handler. `Tracks` couples the ledger with the three queues
and the flag `m_bQueryProcessing` of the handler; the single assignments of the plugin keep it.
-/

namespace MySQLPlugin

open Threads Dispatch

/-! ### Events as operations -/

/-- What an event means for the queries of the handler `h`. -/
def Event.bookOp (h : HandlerPtr) : Event → Option (Op MainInfo ErrorInfo)
  | .assign .main p (.queueData_push q) => if p = h then some (.accept q) else none
  | .assign .main p .queueData_popAll => if p = h then some .discard else none
  | .assign .main p .callbackData_pop => if p = h then some .handOk else none
  | .assign .main p .errorCallback_pop => if p = h then some .handErr else none
  | .assign .main p (.errorCallback_push e) => if p = h then some (.foreign e) else none
  | .assign .worker p (.callbackData_push _) => if p = h then some .succeed else none
  | .assign .worker p (.errorCallback_push e) => if p = h then some (.fail e) else none
  | _ => none

def ops (h : HandlerPtr) (es : List Event) : List (Op MainInfo ErrorInfo) :=
  es.filterMap (Event.bookOp h)

/-- The ledger of the handler `h` after the events `es`. -/
def books (h : HandlerPtr) (es : List Event) : Ledger MainInfo ErrorInfo := Ledger.run (ops h es)

@[simp] lemma ops_nil (h : HandlerPtr) : ops h [] = [] := rfl

lemma ops_append (h : HandlerPtr) (es es' : List Event) : ops h (es ++ es') = ops h es ++ ops h es' :=
  List.filterMap_append

lemma ops_concat_none {h : HandlerPtr} {es : List Event} {e : Event} (he : e.bookOp h = none) :
    ops h (es ++ [e]) = ops h es := by
  simp [ops, he]

lemma ops_concat_some {h : HandlerPtr} {es : List Event} {e : Event} {o : Op MainInfo ErrorInfo}
    (he : e.bookOp h = some o) : ops h (es ++ [e]) = ops h es ++ [o] := by
  simp [ops, he]

lemma books_concat_none {h : HandlerPtr} {es : List Event} {e : Event} (he : e.bookOp h = none) :
    books h (es ++ [e]) = books h es := by
  rw [books, ops_concat_none he, books]

lemma books_concat_some {h : HandlerPtr} {es : List Event} {e : Event} {o : Op MainInfo ErrorInfo}
    (he : e.bookOp h = some o) : books h (es ++ [e]) = (books h es).step o := by
  rw [books, ops_concat_some he, Ledger.run_concat, books]

lemma bookOp_of_ne {h p : HandlerPtr} (t : ThreadId) (a : Assign) (hp : p ≠ h) :
    (Event.assign t p a).bookOp h = none := by
  cases t <;> cases a <;> simp [Event.bookOp, hp]

/-! ### The ledger and the queues -/

/-- The report `f.2` belongs to the query `f.1`, or to none when `OldQuery` has executed it. -/
def Reported (f : Option (MainInfo × ℕ) × ErrorInfo) : Prop :=
  match f.1 with
  | some (q, _) =>
    f.2.m_szQuery = q.m_szQuery ∧ f.2.m_uiResult = q.m_uiResult ∧ f.2.m_szCallback = q.m_szCallback
  | none => f.2.Synchronous

/-- The queues of the handler `x` are those of the ledger `L`. The query `pre` has been executed
and is still at the front of `queueData`; the worker is `busy` while a query is being executed. -/
structure Tracks (pre : List MainInfo) (busy : Prop) (x : CMySQLHandler)
    (L : Ledger MainInfo ErrorInfo) : Prop where
  queueData : x.queueData = pre ++ L.waiting.map Prod.fst
  callbackData : x.callbackData = L.done.map Prod.fst
  errorCallback : x.errorCallback = L.failed.map Prod.snd
  reports : ∀ f ∈ L.handedErr ++ L.failed, Reported f
  processing : x.m_bQueryProcessing = true ↔ x.callbackData ≠ [] ∨ busy
  idle : busy → x.callbackData = []
  single : x.callbackData.length ≤ 1

/-- The assignment leaves the queues and `m_bQueryProcessing` alone. -/
def Assign.Untracked : Assign → Prop
  | .m_bQueryProcessing _ | .queueData_push _ | .queueData_pop | .queueData_popAll
  | .callbackData_push _ | .callbackData_pop | .errorCallback_push _ | .errorCallback_pop => False
  | _ => True

lemma Assign.Untracked.bookOp {a : Assign} (ha : a.Untracked) (t : ThreadId) (p h : HandlerPtr) :
    (Event.assign t p a).bookOp h = none := by
  cases t <;> cases a <;> first | rfl | exact ha.elim

namespace Tracks

variable {pre : List MainInfo} {busy : Prop} {x : CMySQLHandler} {L : Ledger MainInfo ErrorInfo}

lemma untracked (h : Tracks pre busy x L) {a : Assign} (ha : a.Untracked) :
    Tracks pre busy (a.apply x) L := by
  obtain ⟨hq, hc, he, hr, hp, hi, hs⟩ := h
  cases a <;> first | exact ha.elim | exact ⟨hq, hc, he, hr, hp, hi, hs⟩

/-- A handler without queries. -/
lemma new (hq : x.queueData = []) (hc : x.callbackData = []) (he : x.errorCallback = [])
    (hp : x.m_bQueryProcessing = false) : Tracks [] False x {} where
  queueData := by simpa using hq
  callbackData := by simpa using hc
  errorCallback := by simpa using he
  reports := by simp
  processing := by simp [hc, hp]
  idle := False.elim
  single := by simp [hc]

lemma accept (h : Tracks pre busy x L) (q : MainInfo) :
    Tracks pre busy ((Assign.queueData_push q).apply x) (L.step (.accept q)) :=
  { h with queueData := by simp [Assign.apply, Ledger.step, h.queueData] }

lemma discard (h : Tracks [] busy x L) :
    Tracks [] busy (Assign.queueData_popAll.apply x) (L.step .discard) :=
  { h with queueData := by simp [Assign.apply, Ledger.step] }

lemma foreign (h : Tracks pre busy x L) {e : ErrorInfo} (he : e.Synchronous) :
    Tracks pre busy ((Assign.errorCallback_push e).apply x) (L.step (.foreign e)) :=
  { h with
    errorCallback := by simp [Assign.apply, Ledger.step, h.errorCallback]
    reports := by
      intro f hf
      simp only [Ledger.step, ← List.append_assoc, List.mem_append, List.mem_singleton] at hf
      rcases hf with hf | rfl
      · exact h.reports f (by simpa using hf)
      · exact he }

lemma handErr (h : Tracks pre busy x L) :
    Tracks pre busy (Assign.errorCallback_pop.apply x) (L.step .handErr) := by
  cases hf : L.failed with
  | nil =>
    have hx : x.errorCallback = [] := by simp [h.errorCallback, hf]
    simpa [Assign.apply, Ledger.step, hf, hx] using
      ({ h with errorCallback := by simp [hf] } :
        Tracks pre busy { x with errorCallback := [] } L)
  | cons f fs =>
    simp only [Ledger.step, hf]
    exact
      { h with
        errorCallback := by simp [Assign.apply, h.errorCallback, hf]
        reports := by
          intro g hg
          exact h.reports g (by simpa [hf] using hg) }

/-- A success is handed out; the flag is still to be reset. -/
lemma handOk (h : Tracks pre False x L) (hne : x.callbackData ≠ []) :
    Tracks pre True (Assign.callbackData_pop.apply x) (L.step .handOk) := by
  cases hd : L.done with
  | nil => exact absurd (by simp [h.callbackData, hd]) hne
  | cons d ds =>
    have htail : x.callbackData.tail = [] := by
      have := h.single
      rw [← List.length_eq_zero_iff, List.length_tail]
      omega
    have hds : ds = [] := by simpa [h.callbackData, hd] using htail
    simp only [Ledger.step, hd]
    exact
      { h with
        callbackData := by simp [Assign.apply, htail, hds]
        processing := by simpa [Assign.apply] using h.processing.mpr (.inl hne)
        idle := fun _ => htail
        single := by simp [Assign.apply, htail] }

/-- The flag is reset. -/
lemma release (h : Tracks pre True x L) :
    Tracks pre False ((Assign.m_bQueryProcessing false).apply x) L :=
  { h with
    processing := by simp [Assign.apply, h.idle trivial]
    idle := False.elim }

/-- The flag is set for a query that is going to be executed. -/
lemma take (h : Tracks pre False x L) (hx : x.m_bQueryProcessing = false) :
    Tracks pre True ((Assign.m_bQueryProcessing true).apply x) L :=
  { h with
    processing := by simp [Assign.apply]
    idle := fun _ => by simpa [Assign.apply, hx] using h.processing }

/-- The query at the front succeeds. -/
lemma succeed (h : Tracks [] True x L) {q : MainInfo} {qs : List MainInfo}
    (hq : x.queueData = q :: qs) :
    Tracks [q] False ((Assign.callbackData_push q).apply x) (L.step .succeed) := by
  have hw := h.queueData
  rw [hq, List.nil_append] at hw
  obtain ⟨w, ws, hws, rfl, rfl⟩ := List.map_eq_cons_iff.mp hw.symm
  simp only [Ledger.step, hws]
  exact
    { h with
      queueData := by simp [Assign.apply, hq]
      callbackData := by simp [Assign.apply, h.callbackData]
      processing := by simpa [Assign.apply] using h.processing
      idle := False.elim
      single := by simp [Assign.apply, h.idle trivial] }

/-- The query at the front fails and is reported. -/
lemma fail (h : Tracks [] True x L) {q : MainInfo} {qs : List MainInfo} (hq : x.queueData = q :: qs)
    {e : ErrorInfo} (he : e.m_szQuery = q.m_szQuery ∧ e.m_uiResult = q.m_uiResult ∧
      e.m_szCallback = q.m_szCallback) :
    Tracks [q] True ((Assign.errorCallback_push e).apply x) (L.step (.fail e)) := by
  have hw := h.queueData
  rw [hq, List.nil_append] at hw
  obtain ⟨w, ws, hws, rfl, rfl⟩ := List.map_eq_cons_iff.mp hw.symm
  simp only [Ledger.step, hws]
  exact
    { h with
      queueData := by simp [Assign.apply, hq]
      errorCallback := by simp [Assign.apply, h.errorCallback]
      reports := by
        intro f hf
        rw [← List.append_assoc, List.mem_append, List.mem_singleton] at hf
        rcases hf with hf | rfl
        · exact h.reports f hf
        · exact he }

/-- The executed query leaves `queueData`. -/
lemma dequeue {q : MainInfo} (h : Tracks [q] busy x L) :
    Tracks [] busy (Assign.queueData_pop.apply x) L :=
  { h with queueData := by simp [Assign.apply, h.queueData] }

end Tracks

end MySQLPlugin

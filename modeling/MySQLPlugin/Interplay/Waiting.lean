import MySQLPlugin.Connections.Holders
import MySQLPlugin.Interplay.Seats
import MySQLPlugin.Interplay.Sweeping

/-!
# Outcomes that wait for their callback

From the execution of a threaded query until `ProcessTick` has called its callback the worker leaves
the connection of the handler alone. The main thread need not: `OldQuery` executes its statements
whether an outcome waits or not.
-/

namespace MySQLPlugin

open Threads Prog CMySQLHandler

/-! ### The execution of a threaded query -/

/-- The event belongs to the execution of a threaded query of `h`. -/
def Event.Executes (h : HandlerPtr) : Event → Prop
  | .enter .worker p (.mysql_real_query _) _ | .leave .worker p (.mysql_real_query _) _ _ => p = h
  | _ => False

/-- The main thread gives the handler `h` another connection. -/
def Event.Reconnects (h : HandlerPtr) : Event → Prop
  | .assign .main p (.m_stConnectionPtr _) => p = h
  | _ => False

/-- The main thread has executed a statement on the connection `c`. -/
def Event.Queries (c : ConnPtr) : Event → Prop
  | .leave .main _ (.mysql_real_query _) d ok => d = c ∧ ok = true
  | _ => False

/-- The connection of the handler, while it lives, is `c`. -/
def Joined (h : HandlerPtr) (c : ConnPtr) (s : State) : Prop :=
  ∀ x, s.heap h = some x → x.m_stConnectionPtr = some c

/-- The last threaded query of `h` is being executed on `c`, and `es₂` has happened since. -/
structure Executing (h : HandlerPtr) (query : CString) (c : ConnPtr) (es₁ es₂ : List Event)
    (s : State) : Prop where
  trace : s.trace = es₁ ++ .enter .worker h (.mysql_real_query query) (some c) :: es₂
  last : ∀ e ∈ es₂, ¬e.Executes h
  minted : ∃ u, .init u h (some c) ∈ s.trace
  lt : h < s.nextHandler
  connection : (∀ e ∈ es₂, ¬e.Reconnects h) → Joined h c s

/-- The last threaded query of `h` has been executed on `c`; `es₂` happened meanwhile, and `es₃` has
happened since. -/
structure Execution (h : HandlerPtr) (query : CString) (c : ConnPtr) (es₁ es₂ es₃ tr : List Event) :
    Prop where
  trace : tr = es₁ ++ .enter .worker h (.mysql_real_query query) (some c) ::
    (es₂ ++ .leave .worker h (.mysql_real_query query) c true :: es₃)
  last : ∀ e ∈ es₂ ++ es₃, ¬e.Executes h

/-- The query has been executed on `c`. Unless the main thread has given the handler another
connection, it still has that one; unless the main thread has executed a statement there, the query
is the last one. -/
structure OwnOn (h : HandlerPtr) (query : CString) (c : ConnPtr) (es₁ es₂ es₃ : List Event)
    (s : State) : Prop where
  executed : Execution h query c es₁ es₂ es₃ s.trace
  minted : ∃ u, .init u h (some c) ∈ s.trace
  lt : h < s.nextHandler
  connection : (∀ e ∈ es₂ ++ es₃, ¬e.Reconnects h) → Joined h c s
  statement : (∀ e ∈ es₃, ¬e.Queries c) →
    (s.lib.conn c).last = some (es₁.length + 1 + es₂.length)

/-- The last threaded query that the worker has executed for `h` is `d`. -/
def Own (h : HandlerPtr) (d : MainInfo) (s : State) : Prop :=
  ∃ c es₁ es₂ es₃, OwnOn h d.m_szQuery c es₁ es₂ es₃ s

/-- What the event does with the connections of handlers other than `h`, or by the main thread. -/
structure Event.Foreign (h : HandlerPtr) (s : State) (e : Event) : Prop where
  executes : ¬e.Executes h
  pointer : ∀ o, e ≠ .assign .worker h (.m_stConnectionPtr o)
  minted : ∀ p q c ok, e = .leave .worker p (.mysql_real_query q) c ok →
    ∃ u, .init u p (some c) ∈ s.trace

section

variable {t : ThreadId} {e : Event} {s s' : State} {h : HandlerPtr} {c : ConnPtr} {d : MainInfo}
  {query : CString} {es₁ es₂ es₃ : List Event}

lemma Execution.returned {tr : List Event} (hs : Execution h query c es₁ es₂ es₃ tr) :
    tr[es₁.length + 1 + es₂.length]? = some (.leave .worker h (.mysql_real_query query) c true) := by
  have htrace : tr = (es₁ ++ [.enter .worker h (.mysql_real_query query) (some c)] ++ es₂) ++
      .leave .worker h (.mysql_real_query query) c true :: es₃ := by
    simp [hs.trace]
  rw [htrace, List.getElem?_append_right (by simp; omega)]
  simp [Nat.add_assoc, Nat.add_comm 1]

lemma Effect.nextHandler_le (heff : Effect t e s s') : s.nextHandler ≤ s'.nextHandler := by
  rw [heff.nextHandler]
  cases e <;> simp [Event.onNextHandler]

/-- A handler keeps its connection unless it gets another one. -/
lemma Joined.keep (hs : Joined h c s) (heff : Effect t e s s') (hlt : h < s.nextHandler)
    (hptr : ∀ u o, e ≠ .assign u h (.m_stConnectionPtr o)) : Joined h c s' := by
  intro x hx
  rw [heff.heap h] at hx
  cases e with
  | new p =>
    have hp : h ≠ p := by
      rintro rfl
      exact Nat.ne_of_lt hlt heff.occurs.1
    rw [Event.onObject, if_neg hp] at hx
    exact hs x hx
  | delete p =>
    simp only [Event.onObject] at hx
    split_ifs at hx
    exact hs x hx
  | assign u p a =>
    by_cases hp : h = p
    · rw [Event.onObject, if_pos hp] at hx
      obtain ⟨y, hy, rfl⟩ := Option.map_eq_some_iff.mp hx
      cases a with
      | m_stConnectionPtr o => exact absurd (by rw [hp]) (hptr u o)
      | _ => exact hs y hy
    · rw [Event.onObject, if_neg hp] at hx
      exact hs x hx
  | _ => exact hs x hx

lemma Event.Foreign.joined (he : e.Foreign h s) (heff : Effect t e s s') (hlt : h < s.nextHandler)
    (hquiet : ¬e.Reconnects h) (hs : Joined h c s) : Joined h c s' := by
  refine hs.keep heff hlt fun u o heq => ?_
  subst heq
  cases u with
  | main => exact hquiet rfl
  | worker => exact he.pointer o rfl

/-- Another statement is executed on the connection only by the main thread. -/
lemma Event.Foreign.last (he : e.Foreign h s) (heff : Effect t e s s') (hs : Minted s)
    (hquiet : ¬e.Queries c) (hc : ∃ u, .init u h (some c) ∈ s.trace) :
    (s'.lib.conn c).last = (s.lib.conn c).last := by
  obtain ⟨u, hu⟩ := hc
  rw [heff.last c]
  cases e with
  | init v p o =>
    cases o with
    | none => rfl
    | some d =>
      have hd : d = s.lib.nextConn := heff.occurs
      have hlt : c < s.lib.nextConn := hs.lt u h c hu
      exact if_neg (Nat.ne_of_lt (hd ▸ hlt))
  | leave v p f d ok =>
    cases f with
    | mysql_real_query q =>
      cases ok with
      | false => rfl
      | true =>
        refine if_neg ?_
        rintro rfl
        cases v with
        | main => exact hquiet ⟨rfl, rfl⟩
        | worker =>
          obtain ⟨w, hw⟩ := he.minted p _ c true rfl
          exact he.executes (hs.unique _ _ _ _ _ hw hu).2
    | _ => rfl
  | _ => rfl

lemma Own.step (hs : Own h d s) (hm : Minted s) (heff : Effect t e s s') (he : e.Foreign h s) :
    Own h d s' := by
  obtain ⟨c, es₁, es₂, es₃, hs⟩ := hs
  have hmem : e ∈ es₃ ++ [e] := List.mem_append_right _ (List.mem_singleton_self e)
  refine ⟨c, es₁, es₂, es₃ ++ [e], ⟨?_, ?_⟩, ?_, ?_, fun hquiet => ?_, fun hquiet => ?_⟩
  · rw [heff.trace, hs.executed.trace]
    simp
  · intro e' he'
    rw [← List.append_assoc, List.mem_append, List.mem_singleton] at he'
    rcases he' with he' | rfl
    · exact hs.executed.last e' he'
    · exact he.executes
  · obtain ⟨u, hu⟩ := hs.minted
    exact ⟨u, heff.prefix.subset hu⟩
  · exact Nat.lt_of_lt_of_le hs.lt heff.nextHandler_le
  · refine he.joined heff hs.lt (hquiet e (List.mem_append_right _ hmem)) (hs.connection fun e' he' => ?_)
    refine hquiet e' ?_
    rw [← List.append_assoc]
    exact List.mem_append_left _ he'
  · rw [he.last heff hm (hquiet e hmem) hs.minted]
    exact hs.statement fun e' he' => hquiet e' (List.mem_append_left _ he')

lemma Executing.step (hs : Executing h query c es₁ es₂ s) (heff : Effect t e s s')
    (he : e.Foreign h s) : Executing h query c es₁ (es₂ ++ [e]) s' := by
  constructor
  case trace =>
    rw [heff.trace, hs.trace]
    simp
  case last =>
    intro e' he'
    rw [List.mem_append, List.mem_singleton] at he'
    rcases he' with he' | rfl
    · exact hs.last e' he'
    · exact he.executes
  case minted =>
    obtain ⟨u, hu⟩ := hs.minted
    exact ⟨u, heff.prefix.subset hu⟩
  case lt => exact Nat.lt_of_lt_of_le hs.lt heff.nextHandler_le
  case connection =>
    intro hquiet
    refine he.joined heff hs.lt (hquiet e (List.mem_append_right _ (List.mem_singleton_self e))) ?_
    exact hs.connection fun e' he' => hquiet e' (List.mem_append_left _ he')

/-- The server has executed the query. -/
lemma Executing.own (hs : Executing h query c es₁ es₂ s) (hq : d.m_szQuery = query)
    (heff : Effect .worker (.leave .worker h (.mysql_real_query query) c true) s s') : Own h d s' := by
  subst hq
  refine ⟨c, es₁, es₂, [], ⟨?_, ?_⟩, ?_, ?_, fun hquiet => ?_, fun _ => ?_⟩
  · rw [heff.trace, hs.trace]
    simp
  · simpa using hs.last
  · obtain ⟨u, hu⟩ := hs.minted
    exact ⟨u, heff.prefix.subset hu⟩
  · exact Nat.lt_of_lt_of_le hs.lt heff.nextHandler_le
  · rw [List.append_nil] at hquiet
    exact (hs.connection hquiet).keep heff hs.lt (by simp)
  · rw [heff.last c, hs.trace]
    simp [Event.onLast]
    omega

end

/-! ### Where the threads are -/

def Event.onAttempt : Event → Option (HandlerPtr × Bool) → Option (HandlerPtr × Bool)
  | .visit h, _ => some (h, false)
  | .assign .worker h (.m_bQueryProcessing v), _ => if v then some (h, true) else none
  | .assign .worker _ (.callbackData_push _), _ | .mark (.visitEnd _), _ => none
  | _, x => x

/-- The handler whose query the worker attempts, and whether it has set the flag. -/
def attempt (es : List Event) : Option (HandlerPtr × Bool) := es.foldl (fun x e => e.onAttempt x) none

/-- At most one outcome waits at the handler `h`, with the object `x`, and none while the worker
attempts a query of it. -/
structure OneWaits (h : HandlerPtr) (s : State) (x : CMySQLHandler) : Prop where
  single : x.callbackData.length ≤ 1
  flagged : x.callbackData ≠ [] → x.m_bQueryProcessing = true
  own : ∀ d ∈ x.callbackData, Own h d s
  attempted : ∀ k, attempt s.trace = some (h, k) → x.callbackData = [] ∧ emptied s.trace ≠ some h ∧
    (k = true → x.m_bQueryProcessing = true)
  popped : emptied s.trace = some h → x.callbackData = [] ∧ x.m_bQueryProcessing = true

/-- Only `d` waits at the handler `h`, while it lives. -/
def Waits (h : HandlerPtr) (d : MainInfo) (s : State) : Prop :=
  ∀ x, s.heap h = some x → x.callbackData = [d]

/-- The outcome `d` of the last threaded query of `h` waits, and the worker attempts no other. -/
structure Facing (h : HandlerPtr) (d : MainInfo) (s : State) : Prop where
  own : Own h d s
  waits : Waits h d s
  idle : ∀ k, attempt s.trace ≠ some (h, k)

def Public.isCallback : Public → Prop
  | .callback .. => True
  | .OnQueryError .. => False

/-- A callback that is called now tells of an outcome that waits at the handler of the entry that
`ProcessTick` has reached. -/
def Told (s : State) : Prop :=
  ∀ es a p, s.trace = es ++ [.exec a p] → p.isCallback →
    ∃ i h d, i < maxHandlers ∧ p = onQueryFinish i d ∧ Facing h d s ∧ Seated i h s

/-- What both threads keep. -/
structure Awaiting (s : State) : Prop where
  minted : Minted s
  fresh : ∀ h, s.nextHandler ≤ h → s.heap h = none
  waits : ∀ h x, s.heap h = some x → OneWaits h s x
  known : ∀ h, s.nextHandler ≤ h → emptied s.trace ≠ some h ∧ ∀ k, attempt s.trace ≠ some (h, k)
  told : Told s

/-- What the event needs to keep it. -/
def Event.Orderly (s : State) : Event → Prop
  | .assign .worker h (.m_bQueryProcessing _) | .assign .worker h (.m_stConnectionPtr _)
  | .enter .worker h (.mysql_real_query _) _ => ∃ k, attempt s.trace = some (h, k)
  | .assign .worker h (.callbackData_push d) => attempt s.trace = some (h, true) ∧ Own h d s
  | .leave .worker h (.mysql_real_query _) c _ => (∃ k, attempt s.trace = some (h, k)) ∧
    ∃ u, .init u h (some c) ∈ s.trace
  | .assign .main h (.m_bQueryProcessing v) => v = false ∧ emptied s.trace = some h
  | .assign .worker _ .callbackData_pop | .assign .main _ (.callbackData_push _) => False
  | .exec _ p => p.isCallback →
    ∃ i h d, i < maxHandlers ∧ p = onQueryFinish i d ∧ Facing h d s ∧ Seated i h s
  | _ => True

section

variable {t : ThreadId} {e : Event} {s s' : State} {h : HandlerPtr} {c : ConnPtr} {d : MainInfo}
  {es : List Event} {x x' : CMySQLHandler}

lemma attempt_concat : attempt (es ++ [e]) = e.onAttempt (attempt es) := by
  simp [attempt]

/-- Where no attempt is made at `h`, an orderly event leaves its connection to the main thread. -/
lemma Event.Orderly.foreign (he : e.Orderly s) (hne : ∀ k, attempt s.trace ≠ some (h, k)) :
    e.Foreign h s where
  executes hex := by
    cases e with
    | enter u p f c =>
      cases u with
      | main => exact hex
      | worker =>
        cases f with
        | mysql_real_query q =>
          obtain ⟨k, hk⟩ := he
          obtain rfl : p = h := hex
          exact hne k hk
        | _ => exact hex
    | leave u p f c ok =>
      cases u with
      | main => exact hex
      | worker =>
        cases f with
        | mysql_real_query q =>
          obtain ⟨k, hk⟩ := he.1
          obtain rfl : p = h := hex
          exact hne k hk
        | _ => exact hex
    | _ => exact hex
  pointer o heq := by
    subst heq
    obtain ⟨k, hk⟩ := he
    exact hne k hk
  minted p q c ok heq := by
    subst heq
    exact he.2

/-- The execution of an outcome that waits stays the last one of its handler. -/
lemma Awaiting.own (hs : Awaiting s) (heff : Effect t e s s') (he : e.Orderly s)
    (hx : s.heap h = some x) (hd : d ∈ x.callbackData) : Own h d s' := by
  refine ((hs.waits h x hx).own d hd).step hs.minted heff (he.foreign fun k hk => ?_)
  have hempty : x.callbackData = [] := ((hs.waits h x hx).attempted k hk).1
  rw [hempty] at hd
  cases hd

/-- An event that changes neither the outcomes of the handler nor its flag. -/
lemma OneWaits.keep (hs : OneWaits h s x) (hdata : x'.callbackData = x.callbackData)
    (hflag : x'.m_bQueryProcessing = x.m_bQueryProcessing) (hown : ∀ d ∈ x.callbackData, Own h d s')
    (hattempt : ∀ k, attempt s'.trace = some (h, k) →
      attempt s.trace = some (h, k))
    (hemptied : emptied s'.trace = some h → emptied s.trace = some h) :
    OneWaits h s' x' where
  single := by
    rw [hdata]
    exact hs.single
  flagged := by
    rw [hdata, hflag]
    exact hs.flagged
  own := by
    rw [hdata]
    exact hown
  attempted k hk := by
    rw [hdata, hflag]
    obtain ⟨hempty, hne, hset⟩ := hs.attempted k (hattempt k hk)
    exact ⟨hempty, fun heq => hne (hemptied heq), hset⟩
  popped heq := by
    rw [hdata, hflag]
    exact hs.popped (hemptied heq)

/-- An event of another handler leaves it to the threads where they are with `h`. -/
lemma Effect.attempt_of_ne (heff : Effect t e s s') (hvisit : e ≠ .visit h)
    (hassign : ∀ u a, e ≠ .assign u h a) (k : Bool) (hk : attempt s'.trace = some (h, k)) :
    attempt s.trace = some (h, k) := by
  rw [heff.trace, attempt_concat] at hk
  cases e with
  | visit p =>
    cases hk
    exact absurd rfl hvisit
  | mark m => cases m <;> first | exact hk | cases hk
  | assign u p a =>
    cases u with
    | main => exact hk
    | worker =>
      cases a with
      | m_bQueryProcessing v =>
        cases v with
        | true =>
          cases hk
          exact absurd rfl (hassign .worker _)
        | false => cases hk
      | callbackData_push d => cases hk
      | _ => exact hk
  | _ => exact hk

lemma Effect.emptied_of_ne (heff : Effect t e s s') (hassign : ∀ u a, e ≠ .assign u h a)
    (hh : emptied s'.trace = some h) : emptied s.trace = some h := by
  rw [heff.trace, emptied_concat] at hh
  cases e with
  | assign u p a =>
    cases u with
    | worker => exact hh
    | main =>
      cases a with
      | callbackData_pop =>
        cases hh
        exact absurd rfl (hassign .main _)
      | m_bQueryProcessing v => cases v <;> first | exact hh | cases hh
      | _ => exact hh
  | _ => exact hh

lemma Awaiting.elsewhere (hs : Awaiting s) (heff : Effect t e s s') (he : e.Orderly s)
    (hx : s.heap h = some x) (hvisit : e ≠ .visit h) (hassign : ∀ u a, e ≠ .assign u h a) :
    OneWaits h s' x :=
  (hs.waits h x hx).keep rfl rfl (fun _ hd => hs.own heff he hx hd) (heff.attempt_of_ne hvisit hassign)
    (heff.emptied_of_ne hassign)

/-- The worker visits a handler without an outcome. -/
lemma OneWaits.visit (hs : OneWaits h s x) (hready : x.ready = true)
    (heff : Effect t (.visit h) s s') : OneWaits h s' x := by
  have hflag : x.m_bQueryProcessing = false := by
    rw [CMySQLHandler.ready] at hready
    simp_all
  have hempty : x.callbackData = [] := by
    by_contra hne
    rw [hs.flagged hne] at hflag
    cases hflag
  have hemptied : emptied s'.trace = emptied s.trace := by
    rw [heff.trace, emptied_concat]
    rfl
  have hne : emptied s.trace ≠ some h := by
    intro heq
    rw [(hs.popped heq).2] at hflag
    cases hflag
  constructor
  case single => simp [hempty]
  case flagged => exact fun h => absurd hempty h
  case own => simp [hempty]
  case attempted =>
    intro k hk
    rw [heff.trace, attempt_concat] at hk
    cases hk
    exact ⟨hempty, by rwa [hemptied], by simp⟩
  case popped => exact fun heq => absurd (hemptied ▸ heq) hne

end

section

variable {s s' : State} {h : HandlerPtr} {d : MainInfo} {x : CMySQLHandler}

/-- The worker sets or resets the flag of the handler that it attempts. -/
lemma OneWaits.flag {v k : Bool} (hs : OneWaits h s x) (hk : attempt s.trace = some (h, k))
    (heff : Effect .worker (.assign .worker h (.m_bQueryProcessing v)) s s') :
    OneWaits h s' (Assign.apply (.m_bQueryProcessing v) x) := by
  obtain ⟨hempty, hne, -⟩ := hs.attempted k hk
  have hemptied : emptied s'.trace = emptied s.trace := by
    rw [heff.trace, emptied_concat]
    rfl
  constructor
  case single => simp [Assign.apply, hempty]
  case flagged => exact fun h => absurd hempty h
  case own => simp [Assign.apply, hempty]
  case attempted =>
    intro k hk
    rw [heff.trace, attempt_concat] at hk
    cases v with
    | true => exact ⟨hempty, by rwa [hemptied], fun _ => rfl⟩
    | false => cases hk
  case popped => exact fun heq => absurd (hemptied ▸ heq) hne

/-- The worker hands over an outcome. -/
lemma OneWaits.push (hs : OneWaits h s x) (hk : attempt s.trace = some (h, true))
    (hown : Own h d s') (heff : Effect .worker (.assign .worker h (.callbackData_push d)) s s') :
    OneWaits h s' (Assign.apply (.callbackData_push d) x) := by
  obtain ⟨hempty, hne, hflag⟩ := hs.attempted true hk
  have hemptied : emptied s'.trace = emptied s.trace := by
    rw [heff.trace, emptied_concat]
    rfl
  have hdata : (Assign.apply (.callbackData_push d) x).callbackData = [d] := by
    simp [Assign.apply, hempty]
  constructor
  case single => simp [hdata]
  case flagged => exact fun _ => hflag rfl
  case own => simpa [hdata] using hown
  case attempted =>
    intro k hk
    rw [heff.trace, attempt_concat] at hk
    cases hk
  case popped => exact fun heq => absurd (hemptied ▸ heq) hne

/-- `ProcessTick` pops the outcome. -/
lemma OneWaits.pop (hs : OneWaits h s x) (hne : x.callbackData ≠ [])
    (heff : Effect .main (.assign .main h .callbackData_pop) s s') :
    OneWaits h s' (Assign.apply .callbackData_pop x) := by
  have hdata : (Assign.apply .callbackData_pop x).callbackData = [] := by
    have hsingle := hs.single
    simp only [Assign.apply]
    cases hx : x.callbackData with
    | nil => rfl
    | cons d ds =>
      rw [hx, List.length_cons] at hsingle
      exact List.length_eq_zero_iff.mp (by simpa using hsingle)
  constructor
  case single => simp [hdata]
  case flagged => exact fun h => absurd hdata h
  case own => simp [hdata]
  case attempted =>
    intro k hk
    rw [heff.trace, attempt_concat] at hk
    exact absurd (hs.attempted k hk).1 hne
  case popped => exact fun _ => ⟨hdata, hs.flagged hne⟩

/-- `ProcessTick` resets the flag. -/
lemma OneWaits.reset (hs : OneWaits h s x) (hh : emptied s.trace = some h)
    (heff : Effect .main (.assign .main h (.m_bQueryProcessing false)) s s') :
    OneWaits h s' (Assign.apply (.m_bQueryProcessing false) x) := by
  obtain ⟨hempty, -⟩ := hs.popped hh
  constructor
  case single => simp [Assign.apply, hempty]
  case flagged => exact fun h => absurd hempty h
  case own => simp [Assign.apply, hempty]
  case attempted =>
    intro k hk
    rw [heff.trace, attempt_concat] at hk
    exact absurd hh (hs.attempted k hk).2.1
  case popped =>
    intro heq
    rw [heff.trace, emptied_concat] at heq
    cases heq

end

section

variable {t : ThreadId} {e : Event} {s s' : State} {h : HandlerPtr} {x x' : CMySQLHandler}
  {d : MainInfo}

lemma Awaiting.waits_assign {a : Assign} (hs : Awaiting s) (heff : Effect t (.assign t h a) s s')
    (he : (Event.assign t h a).Orderly s) (hx : s.heap h = some x) : OneWaits h s' (a.apply x) := by
  have hone : OneWaits h s x := hs.waits h x hx
  have hown (d : MainInfo) (hd : d ∈ x.callbackData) : Own h d s' := hs.own heff he hx hd
  have hattempt : attempt s'.trace = (Event.assign t h a).onAttempt (attempt s.trace) := by
    rw [heff.trace, attempt_concat]
  have hemptied : emptied s'.trace = (Event.assign t h a).onEmptied (emptied s.trace) := by
    rw [heff.trace, emptied_concat]
  cases t with
  | worker =>
    cases a with
    | m_bQueryProcessing v =>
      obtain ⟨k, hk⟩ := he
      exact hone.flag hk heff
    | callbackData_push d =>
      obtain ⟨hk, hd⟩ := he
      exact hone.push hk (hd.step hs.minted heff ⟨id, by simp, by simp⟩) heff
    | callbackData_pop => exact he.elim
    | _ =>
      exact hone.keep rfl rfl hown (fun k hk => by rwa [hattempt] at hk)
        fun hh => by rwa [hemptied] at hh
  | main =>
    cases a with
    | m_bQueryProcessing v =>
      obtain ⟨rfl, hh⟩ := he
      exact hone.reset hh heff
    | callbackData_push d => exact he.elim
    | callbackData_pop =>
      refine hone.pop ?_ heff
      obtain ⟨y, hy, hdefined⟩ := heff.occurs
      obtain rfl : x = y := Option.some.inj (hx.symm.trans hy)
      intro hempty
      simp [Assign.defined, hempty] at hdefined
    | _ =>
      exact hone.keep rfl rfl hown (fun k hk => by rwa [hattempt] at hk)
        fun hh => by rwa [hemptied] at hh

lemma Awaiting.waits_step (hs : Awaiting s) (heff : Effect t e s s') (he : e.Orderly s)
    (hx' : s'.heap h = some x') : OneWaits h s' x' := by
  rw [heff.heap h] at hx'
  cases e with
  | assign u p a =>
    obtain rfl : u = t := heff.by_
    simp only [Event.onObject] at hx'
    split_ifs at hx' with hp
    · obtain ⟨x, hx, rfl⟩ := Option.map_eq_some_iff.mp hx'
      subst hp
      exact hs.waits_assign heff he hx
    · exact hs.elsewhere heff he hx' (by simp) fun v b heq => by
        cases heq
        exact hp rfl
  | visit p =>
    by_cases hp : p = h
    · subst hp
      obtain ⟨y, hy, hready⟩ := heff.occurs
      obtain rfl : x' = y := Option.some.inj (hx'.symm.trans hy)
      exact (hs.waits p _ hx').visit hready heff
    · exact hs.elsewhere heff he hx' (fun heq => hp (by cases heq; rfl)) (by simp)
  | new p =>
    simp only [Event.onObject] at hx'
    split_ifs at hx' with hp
    · subst hp
      cases hx'
      obtain ⟨hemptied, hattempt⟩ := hs.known h (Nat.le_of_eq heff.occurs.1.symm)
      constructor
      case single => simp
      case flagged => exact fun h => absurd rfl h
      case own => simp
      case attempted =>
        exact fun k hk => absurd (heff.attempt_of_ne (by simp) (by simp) k hk) (hattempt k)
      case popped => exact fun hh => absurd (heff.emptied_of_ne (by simp) hh) hemptied
    · exact hs.elsewhere heff he hx' (by simp) (by simp)
  | delete p =>
    simp only [Event.onObject] at hx'
    split_ifs at hx'
    exact hs.elsewhere heff he hx' (by simp) (by simp)
  | _ => exact hs.elsewhere heff he hx' (by simp) (by simp)

lemma Awaiting.known_step (hs : Awaiting s) (heff : Effect t e s s') (hh : s'.nextHandler ≤ h) :
    emptied s'.trace ≠ some h ∧ ∀ k, attempt s'.trace ≠ some (h, k) := by
  have hle : s.nextHandler ≤ h := by
    refine Nat.le_trans ?_ hh
    rw [heff.nextHandler]
    cases e <;> simp [Event.onNextHandler]
  obtain ⟨hemptied, hattempt⟩ := hs.known h hle
  have hnone : s.heap h = none := hs.fresh h hle
  have hassign : ∀ u a, e ≠ .assign u h a := by
    rintro u a rfl
    obtain ⟨x, hx, -⟩ := heff.occurs
    cases hnone.symm.trans hx
  have hvisit : e ≠ .visit h := by
    rintro rfl
    obtain ⟨x, hx, -⟩ := heff.occurs
    cases hnone.symm.trans hx
  exact ⟨fun heq => hemptied (heff.emptied_of_ne hassign heq),
    fun k hk => hattempt k (heff.attempt_of_ne hvisit hassign k hk)⟩

/-- The entry at the front of `callbackData` is the only one. -/
lemma OneWaits.facing {ds : List MainInfo} (hs : OneWaits h s x) (hx : s.heap h = some x)
    (hd : x.callbackData = d :: ds) : Facing h d s := by
  have hdata : x.callbackData = [d] := by
    have hsingle := hs.single
    rw [hd, List.length_cons] at hsingle
    rw [hd, List.length_eq_zero_iff.mp (by omega : ds.length = 0)]
  constructor
  case own => exact hs.own d (by simp [hdata])
  case waits =>
    intro y hy
    cases hx.symm.trans hy
    exact hdata
  case idle =>
    intro k hk
    have hempty := (hs.attempted k hk).1
    cases hdata.symm.trans hempty

/-- The event hands nothing over and nothing out. -/
def Event.Passive : Event → Prop
  | .assign _ _ (.callbackData_push _) | .assign _ _ .callbackData_pop | .visit _ => False
  | _ => True

/-- The outcomes of a handler stay as they are. -/
lemma Waits.keep (hd : Waits h d s) (hlt : h < s.nextHandler) (heff : Effect t e s s')
    (he : ∀ u a, e = .assign u h a → a ≠ .callbackData_pop ∧ ∀ d, a ≠ .callbackData_push d) :
    Waits h d s' := by
  intro x hx
  rw [heff.heap h] at hx
  cases e with
  | new p =>
    have hp : h ≠ p := by
      rintro rfl
      exact Nat.ne_of_lt hlt heff.occurs.1
    rw [Event.onObject, if_neg hp] at hx
    exact hd x hx
  | delete p =>
    simp only [Event.onObject] at hx
    split_ifs at hx
    exact hd x hx
  | assign u p a =>
    by_cases hp : h = p
    · subst hp
      rw [Event.onObject, if_pos rfl] at hx
      obtain ⟨y, hy, rfl⟩ := Option.map_eq_some_iff.mp hx
      obtain ⟨hpop, hpush⟩ := he u a rfl
      cases a with
      | callbackData_pop => exact absurd rfl hpop
      | callbackData_push q => exact absurd rfl (hpush q)
      | _ => exact hd y hy
    · rw [Event.onObject, if_neg hp] at hx
      exact hd x hx
  | _ => exact hd x hx

lemma foreign_main (heff : Effect .main e s s') : e.Foreign h s where
  executes hex := by
    cases e with
    | enter u p f c =>
      obtain rfl : u = .main := heff.by_
      exact hex
    | leave u p f c ok =>
      obtain rfl : u = .main := heff.by_
      exact hex
    | _ => exact hex
  pointer o heq := by
    subst heq
    cases heff.by_
  minted p q c ok heq := by
    subst heq
    cases heff.by_

/-- The main thread calls scripts while an outcome waits. -/
lemma Facing.main (hd : Facing h d s) (hm : Minted s) (heff : Effect .main e s s')
    (he : e.Passive) : Facing h d s' := by
  have hlt : h < s.nextHandler := by
    obtain ⟨c, es₁, es₂, es₃, hown⟩ := hd.own
    exact hown.lt
  constructor
  case own => exact hd.own.step hm heff (foreign_main heff)
  case waits =>
    refine hd.waits.keep hlt heff fun u a heq => ?_
    subst heq
    cases a <;> first | exact he.elim | simp
  case idle =>
    intro k hk
    rw [heff.trace, attempt_concat] at hk
    cases e with
    | assign u p a =>
      obtain rfl : u = .main := heff.by_
      exact hd.idle k hk
    | visit p => exact he.elim
    | mark m => cases m <;> first | exact hd.idle k hk | cases hk
    | _ => exact hd.idle k hk

/-- The worker neither visits the handler nor puts anything there. -/
lemma Facing.worker (hd : Facing h d s) (hs : Awaiting s) (heff : Effect .worker e s s')
    (he : e.Orderly s) : Facing h d s' := by
  have hlt : h < s.nextHandler := by
    obtain ⟨c, es₁, es₂, es₃, hown⟩ := hd.own
    exact hown.lt
  constructor
  case own => exact hd.own.step hs.minted heff (he.foreign hd.idle)
  case waits =>
    refine hd.waits.keep hlt heff fun u a heq => ?_
    subst heq
    obtain rfl : u = .worker := heff.by_
    constructor
    · rintro rfl
      exact he.elim
    · rintro d rfl
      exact hd.idle true he.1
  case idle =>
    intro k hk
    rw [heff.trace, attempt_concat] at hk
    cases e with
    | visit p =>
      cases hk
      obtain ⟨x, hx, hready⟩ := heff.occurs
      have hflag := (hs.waits h x hx).flagged (by simp [hd.waits x hx])
      rw [CMySQLHandler.ready] at hready
      simp_all
    | assign u p a =>
      obtain rfl : u = .worker := heff.by_
      cases a with
      | m_bQueryProcessing v =>
        cases v with
        | true =>
          cases hk
          obtain ⟨k, hk⟩ := he
          exact hd.idle k hk
        | false => cases hk
      | callbackData_push q => cases hk
      | _ => exact hd.idle k hk
    | mark m => cases m <;> first | exact hd.idle k hk | cases hk
    | _ => exact hd.idle k hk

lemma Told.step (hs : Awaiting s) (heff : Effect t e s s') (he : e.Orderly s) : Told s' := by
  intro es a p htrace hp
  rw [heff.trace] at htrace
  obtain ⟨-, rfl⟩ := List.append_inj' htrace rfl |>.imp id (List.singleton_injective ·)
  obtain ⟨i, h, d, hi, rfl, hd, hseated⟩ := he hp
  refine ⟨i, h, d, hi, rfl, ?_, ofMainPart_seated i h s s' (heff.mainPart trivial) hseated⟩
  cases t with
  | main => exact hd.main hs.minted heff trivial
  | worker => exact hd.worker hs heff he

/-- Orderly events keep what the threads rely on. -/
lemma Awaiting.step (hs : Awaiting s) (heff : Effect t e s s') (he : e.Orderly s) : Awaiting s' where
  minted := hs.minted.step heff
  fresh := heff.fresh hs.fresh
  waits _ _ hx' := hs.waits_step heff he hx'
  known _ hh := hs.known_step heff hh
  told := .step hs heff he

end

/-! ### What the threads rely on -/

/-- The main thread relies on what only it changes and on the outcome that it hands out, the worker on
its own attempt and on the execution that it has to report. -/
def waitRely : ThreadId → Set (State → Prop)
  | .main => {f | f = Awaiting ∨ (∃ h d, f = Facing h d) ∨ ∃ v, f = fun s => s.mainPart = v}
  | .worker => {f | f = Awaiting ∨ (∃ R : Option (HandlerPtr × Bool) → Prop, f = fun s => R (attempt s.trace)) ∨
      (∃ h d, f = Own h d) ∨ ∃ h q c, f = fun s => ∃ es₁ es₂, Executing h q c es₁ es₂ s}

lemma stable_awaiting (t : ThreadId) : Stable (waitRely t) Awaiting := by
  cases t <;> exact .of_mem (.inl rfl)

lemma stable_facing (h : HandlerPtr) (d : MainInfo) : Stable (waitRely .main) (Facing h d) :=
  .of_mem (.inr (.inl ⟨h, d, rfl⟩))

lemma stable_mainPart (P : State → Prop) (hP : OfMainPart P) : Stable (waitRely .main) P :=
  fun s s' hk hs => hP s s' (hk _ (.inr (.inr ⟨s.mainPart, rfl⟩)) rfl) hs

lemma stable_own (h : HandlerPtr) (d : MainInfo) : Stable (waitRely .worker) (Own h d) :=
  .of_mem (.inr (.inr (.inl ⟨h, d, rfl⟩)))

lemma stable_executing (h : HandlerPtr) (q : CString) (c : ConnPtr) :
    Stable (waitRely .worker) fun s => ∃ es₁ es₂, Executing h q c es₁ es₂ s :=
  .of_mem (.inr (.inr (.inr ⟨h, q, c, rfl⟩)))

/-- Between two natives of the main thread, or in a visit of `ProcessTick` outside the callbacks. -/
def Ordered (s : State) : Prop := Awaiting s ∧ Placed s

/-- `ProcessTick` has popped the outcome of the handler in the entry `i`. -/
def Popped (i : Nat) (h : HandlerPtr) (s : State) : Prop :=
  Ordered s ∧ emptied s.trace = some h ∧ s.SQLHandle[i]? = some h

/-- The worker attempts a query of `h`; `k` says whether it has set the flag. -/
def Trying (h : HandlerPtr) (k : Bool) (s : State) : Prop :=
  Awaiting s ∧ attempt s.trace = some (h, k)

lemma stable_ordered : Stable (waitRely .main) Ordered :=
  (stable_awaiting .main).and (stable_mainPart _ ofMainPart_placed)

lemma stable_popped (i : Nat) (h : HandlerPtr) : Stable (waitRely .main) (Popped i h) :=
  stable_ordered.and (stable_mainPart _ ((OfMainPart.emptied (some h)).and (.entry i h)))

lemma stable_trying (h : HandlerPtr) (k : Bool) : Stable (waitRely .worker) (Trying h k) :=
  (stable_awaiting .worker).and (.of_mem (.inr (.inl ⟨fun x => x = some (h, k), rfl⟩)))

section

variable {e : Event} {s s' : State}

lemma worker_waits (hs : Awaiting s) (heff : Effect .worker e s s') (he : e.Orderly s)
    (hkeeps : e.KeepsMainPart) : Guarantees waitRely .worker s s' ∧ Awaiting s' := by
  have hs' : Awaiting s' := hs.step heff he
  refine ⟨fun u hu f hf hfs => ?_, hs'⟩
  cases u with
  | worker => exact absurd rfl hu
  | main =>
    rcases hf with rfl | ⟨h, d, rfl⟩ | ⟨v, rfl⟩
    · exact hs'
    · exact hfs.worker hs heff he
    · exact (heff.mainPart hkeeps).trans hfs

lemma main_waits (hs : Awaiting s) (heff : Effect .main e s s') (he : e.Orderly s)
    (hv : e.NoVisit) : Guarantees waitRely .main s s' ∧ Awaiting s' := by
  have hs' : Awaiting s' := hs.step heff he
  refine ⟨fun u hu f hf hfs => ?_, hs'⟩
  cases u with
  | main => exact absurd rfl hu
  | worker =>
    rcases hf with rfl | ⟨R, rfl⟩ | ⟨h, d, rfl⟩ | ⟨h, q, c, rfl⟩
    · exact hs'
    · show R (attempt s'.trace)
      have hattempt : attempt s'.trace = attempt s.trace := by
        rw [heff.trace, attempt_concat]
        cases e with
        | assign u p a =>
          obtain rfl : u = .main := heff.by_
          rfl
        | visit => exact hv.elim
        | mark m => cases m <;> first | rfl | exact hv.elim
        | _ => rfl
      rwa [hattempt]
    · exact hfs.step hs.minted heff (foreign_main heff)
    · obtain ⟨es₁, es₂, hexecuting⟩ := hfs
      exact ⟨es₁, _, hexecuting.step heff (foreign_main heff)⟩

end

end MySQLPlugin

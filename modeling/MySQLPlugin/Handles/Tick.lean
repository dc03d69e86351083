import MySQLPlugin.Handles.Names

/-!
# The index of `ProcessTick`

`ProcessTick` keeps the index of the handler that it visits across the calls of the scripts. A
script that closes this handler, or one before it, moves another handler to the index, or none.
-/

namespace MySQLPlugin

open Threads Dispatch Prog CMySQLHandler Natives

/-! ### What the scripts have called -/

/-- The events between two states of a run. -/
def State.since (s₀ s : State) : List Event := s.trace.drop s₀.trace.length

/-- The script has called the native in the events `es`. -/
def Called (n : NativeCall) (es : List Event) : Prop := .mark (.call n) ∈ es

/-- No entry at or before position `i` has been erased. -/
def Undisturbed (i : Nat) (es : List Event) : Prop := ∀ j q, .erase j q ∈ es → i < j

/-- The event is part of `mysql_close` before the object is deleted. -/
def Event.Closing : Event → Prop
  | .pushBack _ | .erase _ _ | .new _ _ _ _ _ _ | .delete _ | .mark _ => False
  | .assign _ _ a => a.OfNative
  | _ => True

section

attribute [local simp] Stmt.Only Event.Closing Assign.OfNative this load call onResult assign
  lockMutex unlockMutex bind_bind ite_bind all_lift_bind all_ite

lemma closing_closing (h : HandlerPtr) : (closing h).All (Stmt.Only .main Event.Closing) := by
  simp [closing, clearQueue, freeResult, disconnect, closeConnection]

end

section

variable {s₀ s : State} {b : Build} {N : Set NativeCall} {i : Nat} {h : HandlerPtr}

/-- `mysql_close` deletes the handler at the position of its handle, and then the entry. -/
lemma nMysqlClose_closes (c : Cell) (s : State) :
    (nMysqlClose c).wp (allowing b N) .main (fun _ _ => True) (fun _ s' =>
      (handlerAt s c = none ∧ s'.trace = s.trace) ∨
        ∃ q es, handlerAt s c = some q ∧ (∀ e ∈ es, e.Closing) ∧
          s'.trace = s.trace ++ es ++ [.delete q, .erase (c - 1).toNat q, .unlock .main]) s := by
  refine wp_nMysqlClose (fun hnone => .inl ⟨hnone, rfl⟩) fun q hq => ?_
  have hkept : (closing q).wp (allowing b N) .main (fun _ _ => True)
      (fun _ s' => ∃ es, s'.trace = s.trace ++ es ∧ ∀ e ∈ es, e.Closing) s := by
    refine wp_of_only step_of_allowing (closing_closing q) (fun e s₁ s₂ he hI heff => ?_)
      (fun _ _ _ => trivial) ⟨[], by simp⟩
    obtain ⟨es, htrace, hes⟩ := hI
    refine ⟨es ++ [e], by rw [heff.trace, htrace, List.append_assoc], fun e' he' => ?_⟩
    rcases List.mem_append.mp he' with he' | he'
    · exact hes e' he'
    · exact List.mem_singleton.mp he' ▸ he
  refine wp_mono hkept fun _ s₁ ⟨es, htrace, hes⟩ s₂ s₃ s₄ _ hdelete herase hunlock => ?_
  refine .inr ⟨q, es, hq, hes, ?_⟩
  rw [hunlock.trace, herase.trace, hdelete.trace, htrace]
  simp

/-! ### The natives of a callback -/

lemma Names.trace (hn : Names s₀ s) : s.trace = s₀.trace ++ s₀.since s := by
  obtain ⟨es, htrace, -⟩ := hn.since
  rw [State.since, htrace, List.drop_left]

lemma Names.since_append (hn : Names s₀ s) {s' : State} {es : List Event}
    (htrace : s'.trace = s.trace ++ es) : s₀.since s' = s₀.since s ++ es := by
  obtain ⟨es₀, htrace₀, -⟩ := hn.since
  rw [State.since, State.since, htrace, htrace₀, List.append_assoc, List.drop_left, List.drop_left]

/-- The closing calls in `es` are for handles behind the position `i`. -/
def ClosesBehind (i : Nat) (es : List Event) : Prop :=
  ∀ c, Called (.mysql_close c) es → i < (c - 1).toNat

/-- After the events `es` of complete natives: entries at or before position `i` have been erased
only by a call that says so, and the handler `h` is deleted only together with its entry. -/
structure Tidy (i : Nat) (h : HandlerPtr) (es : List Event) : Prop where
  closes : ClosesBehind i es ↔ Undisturbed i es
  alive : Undisturbed i es → .delete h ∉ es

/-- The event neither closes a handle nor is part of that. -/
def Event.Mild : Event → Prop
  | .erase _ _ | .delete _ | .mark (.call (.mysql_close _)) => False
  | _ => True

lemma Event.OfBody.mild {e : Event} (he : e.OfBody) : e.Mild := by
  cases e with
  | mark m => cases m <;> first | exact he.elim | trivial
  | _ => first | exact he.elim | trivial

section

variable {es es' : List Event}

lemma closesBehind_append : ClosesBehind i (es ++ es') ↔ ClosesBehind i es ∧ ClosesBehind i es' := by
  simp only [ClosesBehind, Called, List.mem_append, or_imp, forall_and]

lemma undisturbed_append : Undisturbed i (es ++ es') ↔ Undisturbed i es ∧ Undisturbed i es' := by
  simp only [Undisturbed, List.mem_append, or_imp, forall_and]

lemma closesBehind_of_mild (hes : ∀ e ∈ es, e.Mild) : ClosesBehind i es :=
  fun _ hc => (hes _ hc).elim

lemma undisturbed_of_mild (hes : ∀ e ∈ es, e.Mild) : Undisturbed i es :=
  fun _ _ he => (hes _ he).elim

lemma Tidy.nil : Tidy i h [] where
  closes := by simp [ClosesBehind, Called, Undisturbed]
  alive _ := by simp

lemma Tidy.append (ht : Tidy i h es)
    (hcloses : Undisturbed i es → (ClosesBehind i es' ↔ Undisturbed i es'))
    (halive : Undisturbed i es → Undisturbed i es' → .delete h ∉ es') : Tidy i h (es ++ es') where
  closes := by
    rw [closesBehind_append, undisturbed_append, ht.closes]
    exact and_congr_right hcloses
  alive hu := by
    rw [undisturbed_append] at hu
    simpa using ⟨ht.alive hu.1, halive hu.1 hu.2⟩

lemma Tidy.mild (ht : Tidy i h es) (hes : ∀ e ∈ es', e.Mild) : Tidy i h (es ++ es') :=
  ht.append (fun _ => iff_of_true (closesBehind_of_mild hes) (undisturbed_of_mild hes))
    fun _ _ hdel => (hes _ hdel).elim

/-- A call of `mysql_close` with a handle that is not valid. -/
lemma Tidy.refused (ht : Tidy i h es) {c r : Cell} (hc : Undisturbed i es → i < (c - 1).toNat) :
    Tidy i h (es ++ [.mark (.call (.mysql_close c)), .mark (.return (.mysql_close c) r)]) := by
  refine ht.append (fun hu => iff_of_true (fun c' hc' => ?_) ?_) ?_
  · obtain rfl : c' = c := by simpa [Called] using hc'
    exact hc hu
  · simp [Undisturbed]
  · simp

/-- `mysql_close` erases the entry of `q` at the position of its handle. -/
lemma Tidy.closed (ht : Tidy i h es) {c r : Cell} {q : HandlerPtr} (hes : ∀ e ∈ es', e.Closing)
    (hq : Undisturbed i es → i < (c - 1).toNat → q ≠ h) :
    Tidy i h (es ++ (.mark (.call (.mysql_close c)) :: es' ++ [.delete q, .erase (c - 1).toNat q,
      .unlock .main, .mark (.return (.mysql_close c) r)])) := by
  have hcalled : ∀ c', .mark (.call (.mysql_close c')) ∉ es' := fun c' hc' => (hes _ hc').elim
  have herased : ∀ j p, .erase j p ∉ es' := fun j p hp => (hes _ hp).elim
  have hdel : ∀ p, .delete p ∉ es' := fun p hp => (hes _ hp).elim
  refine ht.append (fun _ => ?_) fun hu hu' => ?_
  · simp [ClosesBehind, Called, Undisturbed, hcalled, herased]
  · have hc : i < (c - 1).toNat := hu' (c - 1).toNat q (by simp)
    simpa [hdel] using (hq hu hc).symm

end

lemma native_mild {n : NativeCall} (hn : n.Open) : (native n).All (Stmt.Only .main Event.Mild) := by
  simp only [native, all_lift_bind]
  refine ⟨?_, fun _ => (all_only_mono (body_ofBody .main hn) fun _ => Event.OfBody.mild).bind
    fun r => by simp [Stmt.Only, Event.Mild, all_lift_bind]⟩
  cases n <;> first | exact hn.elim | trivial

/-- A complete native leaves the table tidy. -/
lemma native_tidy (hs₀ : Placed s₀) (hi : s₀.SQLHandle[i]? = some h) (hn : Names s₀ s)
    (ht : Tidy i h (s₀.since s)) (n : NativeCall) :
    (native n).wp (allowing b N) .main (fun _ _ => True) (fun _ s' => Tidy i h (s₀.since s')) s := by
  have hat : Undisturbed i (s₀.since s) → s.SQLHandle[i]? = some h :=
    (hn.position_iff hs₀ hi hn.trace).mpr
  by_cases hopen : n.Open
  · refine wp_mono (wp_events step_of_allowing (native_mild hopen) s) fun _ s' hs' => ?_
    obtain ⟨es, htrace, hes⟩ := hs'
    rw [hn.since_append htrace]
    exact ht.mild hes
  cases n with
  | mysql_close c =>
    refine wp_mark fun s₁ hcall => ?_
    rw [wp_bind]
    refine wp_mono (nMysqlClose_closes c s₁) fun r s₂ hs₂ => wp_mark fun s₃ hreturn => ?_
    have htable : s₁.SQLHandle = s.SQLHandle := hcall.table
    rcases hs₂ with ⟨hnone, hs₂⟩ | ⟨q, es, hq, hes, hs₂⟩
    · have htrace : s₃.trace = s.trace ++
          [.mark (.call (.mysql_close c)), .mark (.return (.mysql_close c) r)] := by
        rw [hreturn.trace, hs₂, hcall.trace]
        simp
      rw [pure_eq, wp_ret, hn.since_append htrace]
      refine ht.refused fun hu => ?_
      have hlen : s.SQLHandle.length ≤ (c - 1).toNat := by
        rw [← htable]
        exact List.getElem?_eq_none_iff.mp hnone
      exact Nat.lt_of_lt_of_le (List.getElem?_eq_some_iff.mp (hat hu)).1 hlen
    · have htrace : s₃.trace = s.trace ++ (.mark (.call (.mysql_close c)) :: es ++
          [.delete q, .erase (c - 1).toNat q, .unlock .main, .mark (.return (.mysql_close c) r)]) := by
        rw [hreturn.trace, hs₂, hcall.trace]
        simp
      rw [pure_eq, wp_ret, hn.since_append htrace]
      refine ht.closed hes fun hu hc hqh => Nat.ne_of_lt hc ?_
      subst hqh
      rw [handlerAt, htable] at hq
      exact (List.getElem?_inj (List.getElem?_eq_some_iff.mp (hat hu)).1 hn.placed.nodup).mp
        ((hat hu).trans hq.symm)
  | _ => exact absurd trivial hopen

/-- Assignments of the event are ones that natives make. -/
def Event.OfScript : Event → Prop
  | .assign _ _ a => a.OfNative
  | _ => True

lemma native_ofScript (n : NativeCall) : (native n).All (Stmt.Only .main Event.OfScript) := by
  have hbody : (body n).All (Stmt.Only .main Event.OfScript) := by
    by_cases hopen : n.Open
    · refine all_only_mono (body_ofBody .main hopen) fun e he => ?_
      cases e <;> first | exact he | trivial
    cases n with
    | mysql_close c =>
      simp [body, nMysqlClose, clearQueue, destruct, freeResult, load, onResult, disconnect,
        closeConnection, this, assign, call, lockMutex, unlockMutex, bind_bind, ite_bind,
        all_lift_bind, all_ite, Stmt.Only, Event.OfScript, Assign.OfNative]
    | _ => exact absurd trivial hopen
  simp only [native, all_lift_bind]
  exact ⟨trivial, fun _ => hbody.bind fun r => by simp [all_lift_bind, Stmt.Only, Event.OfScript]⟩

/-- The handler `h` satisfies `R`, unless it has been deleted since `s₀`. -/
def Intact (s₀ : State) (h : HandlerPtr) (R : CMySQLHandler → Prop) (s : State) : Prop :=
  h < s.nextHandler ∧ ∃ es, s.trace = s₀.trace ++ es ∧
    (.delete h ∉ es → ∃ x, s.heap h = some x ∧ R x)

lemma Intact.step {R : CMySQLHandler → Prop}
    (hR : ∀ (a : Assign) x, a.OfNative → R x → R (a.apply x))
    {t : ThreadId} {e : Event} {s' : State} (hI : Intact s₀ h R s) (he : e.OfScript)
    (heff : Effect t e s s') : Intact s₀ h R s' := by
  obtain ⟨hlt, es, htrace, hobj⟩ := hI
  refine ⟨?_, es ++ [e], by rw [heff.trace, htrace, List.append_assoc], fun hdel => ?_⟩
  · rw [heff.nextHandler]
    cases e <;> first | exact hlt | exact Nat.lt_succ_of_lt hlt
  · rw [List.mem_append, List.mem_singleton, not_or] at hdel
    obtain ⟨x, hx, hRx⟩ := hobj hdel.1
    rcases heff.object hx hlt fun heq => hdel.2 heq.symm with ⟨a, rfl, hx'⟩ | hx'
    · exact ⟨_, hx', hR a x he hRx⟩
    · exact ⟨x, hx', hRx⟩

/-- Complete natives have left the table tidy and the handler `h` as `R` says. -/
structure Awaits (s₀ : State) (i : Nat) (h : HandlerPtr) (R : CMySQLHandler → Prop) (s : State) :
    Prop where
  names : Names s₀ s
  tidy : Tidy i h (s₀.since s)
  intact : Intact s₀ h R s

section

variable {R : CMySQLHandler → Prop}

lemma Awaits.refl {x : CMySQLHandler} (hs : Placed s₀) (hi : s₀.SQLHandle[i]? = some h)
    (hx : s₀.heap h = some x) (hRx : R x) : Awaits s₀ i h R s₀ where
  names := .refl hs
  tidy := by simpa [State.since] using (Tidy.nil : Tidy i h [])
  intact := ⟨hs.lt h (List.mem_of_getElem? hi), [], by simp, fun _ => ⟨x, hx, hRx⟩⟩

lemma native_awaits (hR : ∀ (a : Assign) x, a.OfNative → R x → R (a.apply x)) (hs₀ : Placed s₀)
    (hi : s₀.SQLHandle[i]? = some h) (ha : Awaits s₀ i h R s) (n : NativeCall) :
    (native n).wp (allowing b N) .main (fun _ _ => True) (fun _ => Awaits s₀ i h R) s := by
  have hintact := wp_of_only (M := allowing b N) (E := fun _ _ => True) step_of_allowing
    (native_ofScript n) (fun e s s' he hI heff => Intact.step hR hI he heff)
    (fun _ _ _ => trivial) ha.intact
  have htidy := native_tidy (b := b) (N := N) hs₀ hi ha.names ha.tidy n
  exact wp_mono (wp_and (native_names ha.names n) (wp_and htidy hintact))
    fun _ _ hs' => ⟨hs'.1, hs'.2.1, hs'.2.2⟩

/-- The calls of a public end with complete natives. -/
lemma execAll_awaits {name : CString} {p : Public} (hs₀ : Placed s₀)
    (hi : s₀.SQLHandle[i]? = some h) (hR : ∀ (a : Assign) x, a.OfNative → R x → R (a.apply x))
    (ha : Awaits s₀ i h R s) :
    (execAll name p).wp (allowing b N) .main (fun _ _ => True) (fun _ => Awaits s₀ i h R) s := by
  refine wp_execAll (confined_allowing b N) (I := fun _ => Awaits s₀ i h R) (fun _ a s s' _ ha heff => ?_)
    (fun _ _ _ _ ha => ha) (fun _ n _ _ ha => native_awaits hR hs₀ hi ha n) ha
  refine ⟨ha.names.stays heff trivial, ?_, ha.intact.step (e := .exec a p) hR trivial heff⟩
  rw [ha.names.since_append heff.trace]
  exact ha.tidy.mild (by simp [Event.Mild])

/-! ### What follows the calls -/

/-- Assignments to `*SQLHandle[i]`. -/
def assignAt (i : Nat) (as : List Assign) : Code Unit :=
  .forEach as fun a => do assign (← .lift (.at i)) a

def Assign.applyAll (as : List Assign) (x : CMySQLHandler) : CMySQLHandler :=
  as.foldl (fun x a => a.apply x) x

/-- The assignments are defined one after the other. -/
def Assign.definedAll : List Assign → CMySQLHandler → Prop
  | [], _ => True
  | a :: as, x => a.defined x ∧ Assign.definedAll as (a.apply x)

section

variable {as : List Assign} {o : Except Fault Unit} {s' : State}

lemma run_assignAt_cons {a : Assign}
    (hrun : Run (allowing b N) .main (assignAt i (a :: as)) s o s') :
    (∃ q x s₁, s.SQLHandle[i]? = some q ∧ s.heap q = some x ∧ a.defined x ∧
        Effect .main (.assign .main q a) s s₁ ∧
        Run (allowing b N) .main (assignAt i as) s₁ o s') ∨
      ((∃ e, o = .error e) ∧
        ∀ q x, s.SQLHandle[i]? = some q → s.heap q = some x → a.defined x = false) := by
  rw [assignAt, forEach_cons, bind_bind, run_lift_bind_iff] at hrun
  rcases hrun with ⟨q, s₁, hst, hrun⟩ | ⟨e, rfl, hst⟩
  · obtain ⟨rfl, hq⟩ := step_at (step_of_allowing hst)
    rw [assign, run_lift_bind_iff] at hrun
    rcases hrun with ⟨_, s₂, hst, hrun⟩ | ⟨e, rfl, hst⟩
    · have heff := step_assign (step_of_allowing hst)
      obtain ⟨x, hx, hdef⟩ := heff.occurs
      exact .inl ⟨q, x, s₂, hq, hx, hdef, heff, hrun⟩
    · refine .inr ⟨⟨e, rfl⟩, fun q' x hq' hx => ?_⟩
      obtain rfl : q = q' := Option.some.inj (hq.symm.trans hq')
      exact step_assign_error (step_of_allowing hst) hx
  · refine .inr ⟨⟨e, rfl⟩, fun q x hq _ => ?_⟩
    have := (step_at_iff.mp (step_of_allowing hst)).1
    rw [hq] at this
    cases this

/-- Assignments that are defined, or have been carried out, change the handler at `i` only. -/
lemma run_assignAt {q : HandlerPtr} {x : CMySQLHandler}
    (hrun : Run (allowing b N) .main (assignAt i as) s o s') (hq : s.SQLHandle[i]? = some q)
    (hx : s.heap q = some x) (hdef : o = .ok () ∨ Assign.definedAll as x) :
    o = .ok () ∧ s'.SQLHandle = s.SQLHandle ∧ s'.heap q = some (Assign.applyAll as x) ∧
      ∀ p, p ≠ q → s'.heap p = s.heap p := by
  induction as generalizing s x with
  | nil =>
    cases hrun
    exact ⟨rfl, rfl, hx, fun _ _ => rfl⟩
  | cons a as ih =>
    rcases run_assignAt_cons hrun with ⟨q', x', s₁, hq', hx', -, heff, hrun⟩ | ⟨⟨e, rfl⟩, hundef⟩
    · obtain rfl : q = q' := Option.some.inj (hq.symm.trans hq')
      have htable : s₁.SQLHandle = s.SQLHandle := heff.table
      have hheap : ∀ p, s₁.heap p = if p = q then (s.heap p).map a.apply else s.heap p := heff.heap
      obtain ⟨ho, htable', hx'', hothers⟩ := ih hrun (htable ▸ hq) (x := a.apply x)
        (by rw [hheap, if_pos rfl, hx]; rfl) (hdef.imp_right (·.2))
      refine ⟨ho, htable'.trans htable, hx'', fun p hp => ?_⟩
      rw [hothers p hp, hheap, if_neg hp]
    · rcases hdef with hok | hdef
      · cases hok
      · have htrue : a.defined x = true := hdef.1
        rw [hundef q x hq hx] at htrue
        cases htrue

/-- `ProcessTick` goes on after the calls of a public: the index is within the table, the
assignments `as` reach the handler `h`, which satisfies `R`, if it has not been deleted, and they
reach no other handler. -/
structure Completes (i : Nat) (h : HandlerPtr) (R : CMySQLHandler → Prop) (as : List Assign)
    (s : State) (o : Except Fault Unit) (s' : State) : Prop where
  ok : o = .ok ()
  inRange : i < s'.SQLHandle.length
  delivered : ∀ x, s.heap h = some x → R x ∧ s'.heap h = some (Assign.applyAll as x)
  skipped : s.heap h = none → s'.heap h = none
  others : ∀ p, p ≠ h → s'.heap p = s.heap p

/-- After complete natives, `ProcessTick` completes its visit if and only if no handle at or before
the index has been closed. -/
lemma completes_iff {a : Assign} (hs₀ : Placed s₀) (hi : s₀.SQLHandle[i]? = some h)
    (ha : Awaits s₀ i h R s) (hdef : ∀ x, R x → Assign.definedAll (a :: as) x)
    (hchange : ∀ x, a.defined x → Assign.applyAll (a :: as) x ≠ x)
    (hrun : Run (allowing b N) .main (assignAt i (a :: as)) s o s') :
    Completes i h R (a :: as) s o s' ↔ ClosesBehind i (s₀.since s) := by
  have hposition : s.SQLHandle[i]? = some h ↔ Undisturbed i (s₀.since s) :=
    ha.names.position_iff hs₀ hi ha.names.trace
  rw [ha.tidy.closes, ← hposition]
  constructor
  · intro hc
    obtain rfl := hc.ok
    rcases run_assignAt_cons hrun with ⟨q, x, s₁, hq, hx, hdefx, -, -⟩ | ⟨⟨e, he⟩, -⟩
    · by_contra hne
      have hqh : q ≠ h := fun heq => hne (heq ▸ hq)
      have hx' := (run_assignAt hrun hq hx (.inl rfl)).2.2.1
      rw [hc.others q hqh, hx] at hx'
      exact hchange x hdefx (Option.some.inj hx').symm
    · cases he
  · intro hat
    obtain ⟨-, es, htrace, hobj⟩ := ha.intact
    obtain ⟨x, hx, hRx⟩ := hobj (by
      have hes : es = s₀.since s := by rw [State.since, htrace, List.drop_left]
      rw [hes]
      exact ha.tidy.alive (hposition.mp hat))
    obtain ⟨hok, htable, hx', hothers⟩ := run_assignAt hrun hat hx (.inr (hdef x hRx))
    refine ⟨hok, ?_, fun y hy => ?_, fun hnone => ?_, hothers⟩
    · rw [htable]
      exact (List.getElem?_eq_some_iff.mp hat).1
    · obtain rfl : x = y := Option.some.inj (hx.symm.trans hy)
      exact ⟨hRx, hx'⟩
    · rw [hx] at hnone
      cases hnone

end

/-- What the natives of a callback keep of a queue that `ProcessTick` pops. -/
lemma errorFront_kept {e : ErrorInfo} (a : Assign) (x : CMySQLHandler) (ha : a.OfNative)
    (hx : x.errorCallback.head? = some e) : (a.apply x).errorCallback.head? = some e := by
  cases a with
  | errorCallback_push e' => simp [Assign.apply, List.head?_append, hx]
  | errorCallback_pop => exact ha.elim
  | _ => exact hx

lemma callbackFront_kept {d : MainInfo} (a : Assign) (x : CMySQLHandler) (ha : a.OfNative)
    (hx : x.callbackData.head? = some d) : (a.apply x).callbackData.head? = some d := by
  cases a with
  | callbackData_push d' => exact ha.elim
  | callbackData_pop => exact ha.elim
  | _ => exact hx

end

end

/-- When the calls of a public have returned, `ProcessTick` accesses only entries of the table and
pops the entry that it has delivered, and no other one, if and only if no native called meanwhile
was a `mysql_close` of the handle of the visit or of one before it. -/
theorem delivered_iff (b : Build) {s₀ s₁ s₂ : State} {i : Nat} {h : HandlerPtr}
    {x : CMySQLHandler} {o : Except Fault Unit} (hs₀ : Placed s₀)
    (hi : s₀.SQLHandle[i]? = some h) (hx : s₀.heap h = some x) :
    (∀ e es, x.errorCallback = e :: es →
      Run (allowing b Set.univ) .main (execAll OnQueryError (onQueryError i e)) s₀ (.ok ()) s₁ →
      Run (allowing b Set.univ) .main (errorDelivered i) s₁ o s₂ →
      (Completes i h (fun y => y.errorCallback.head? = some e) [.errorCallback_pop] s₁ o s₂ ↔
        ClosesBehind i (s₀.since s₁))) ∧
    (∀ d ds, x.callbackData = d :: ds →
      Run (allowing b Set.univ) .main (execAll d.m_szCallback (onQueryFinish i d)) s₀ (.ok ()) s₁ →
      Run (allowing b Set.univ) .main (callbackDelivered i) s₁ o s₂ →
      (Completes i h (fun y => y.callbackData.head? = some d)
          [.callbackData_pop, .m_bQueryProcessing false] s₁ o s₂ ↔
        ClosesBehind i (s₀.since s₁))) := by
  constructor
  · intro e es hfront hcalls hpop
    have ha := Awaits.refl (R := fun y => y.errorCallback.head? = some e) hs₀ hi hx (by simp [hfront])
    have ha₁ := ((wp_iff _ _ _).mp
      (execAll_awaits (b := b) (N := Set.univ) hs₀ hi errorFront_kept ha)).1 _ _ hcalls
    refine completes_iff hs₀ hi ha₁ (fun y hy => ⟨?_, trivial⟩) (fun y hdef heq => ?_) hpop
    · cases hq : y.errorCallback <;> simp [hq, Assign.defined] at hy ⊢
    · have := congrArg (fun y => y.errorCallback.length) heq
      cases hq : y.errorCallback <;> simp [hq, Assign.defined, Assign.applyAll, Assign.apply] at this hdef
  · intro d ds hfront hcalls hpop
    have ha := Awaits.refl (R := fun y => y.callbackData.head? = some d) hs₀ hi hx (by simp [hfront])
    have ha₁ := ((wp_iff _ _ _).mp
      (execAll_awaits (b := b) (N := Set.univ) hs₀ hi callbackFront_kept ha)).1 _ _ hcalls
    refine completes_iff hs₀ hi ha₁ (fun y hy => ⟨?_, rfl, trivial⟩) (fun y hdef heq => ?_) hpop
    · cases hq : y.callbackData <;> simp [hq, Assign.defined] at hy ⊢
    · have := congrArg (fun y => y.callbackData.length) heq
      cases hq : y.callbackData <;> simp [hq, Assign.defined, Assign.applyAll, Assign.apply] at this hdef

/-- A script that listens to errors. -/
def listener : Amx where
  id := 0
  publics := [OnQueryError]

/-- A connection is opened, and a query executed at once. -/
def syncQuery : List Action :=
  [.native (.mysql_connect [] [] [] [] 0), .native (.mysql_query ['q'] (-1) 0 1)]

/-- The report of the failed query. -/
def syncError : ErrorInfo where
  m_szQuery := ['q']
  m_szError := []
  m_uiErrorID := 0
  m_uiResult := -1
  m_uiExtra := .set (-1)
  m_szCallback := NULL

/-- Queries fail, and the publics of the scripts call `natives`. -/
def failing (natives : List NativeCall) : ∀ {β : Type}, Stmt β → State → Reply
  | _, .leave _ _ (.mysql_real_query _), _ => { ok := false }
  | _, .exec _ _, _ => { natives }
  | _, _, _ => {}

/-- The states before the calls of `OnQueryError`, after them, and after the pop. -/
def deliverError (natives : List NativeCall) : Option (State × State × Except Fault Unit × State) :=
  (play (allowing .win32 Set.univ) (failing natives) syncQuery (State.init [listener])).bind fun s₀ =>
    ((execAll OnQueryError (onQueryError 0 syncError)).eval (allowing .win32 Set.univ) .main
      (failing natives) s₀).bind fun r =>
        ((errorDelivered 0).runWith (allowing .win32 Set.univ) .main (failing natives) r.2).map
          fun o => (s₀, r.2, o.1, o.2)

lemma deliverError_runs {natives : List NativeCall} {s₀ s₁ s₂ : State} {o : Except Fault Unit}
    (h : deliverError natives = some (s₀, s₁, o, s₂)) : Placed s₀ ∧
      Run (allowing .win32 Set.univ) .main (execAll OnQueryError (onQueryError 0 syncError)) s₀
        (.ok ()) s₁ ∧
      Run (allowing .win32 Set.univ) .main (errorDelivered 0) s₁ o s₂ := by
  have henv : ∀ {β : Type} (a : Stmt β) s,
      (allowing .win32 Set.univ).admits .main a (failing natives a s) s := by
    intro β a s
    refine ⟨trivial, ?_⟩
    cases a <;> simp [Stmt.Calls]
  obtain ⟨s, hplay, h⟩ := Option.bind_eq_some_iff.mp h
  obtain ⟨r, hcalls, h⟩ := Option.bind_eq_some_iff.mp h
  obtain ⟨r', hpop, h⟩ := Option.map_eq_some_iff.mp h
  simp only [Prod.mk.injEq] at h
  obtain ⟨rfl, rfl, rfl, rfl⟩ := h
  exact ⟨(runs_names (placed_init _) (runs_of_play_univ hplay)).placed, run_of_eval henv _ hcalls,
    run_of_runWith henv _ hpop⟩

/-- A callback that executes another query completes the visit. -/
theorem delivered_iff_query :
    ∃ s₀ s₁ o s₂, deliverError [.mysql_query ['r'] (-1) 0 1] = some (s₀, s₁, o, s₂) ∧
      (Completes 0 0 (fun y => y.errorCallback.head? = some syncError) [.errorCallback_pop] s₁ o s₂ ↔
        ClosesBehind 0 (s₀.since s₁)) := by
  have hrun : (deliverError [.mysql_query ['r'] (-1) 0 1]).map (fun r =>
      (r.1.SQLHandle[0]?, (r.1.heap 0).map (·.errorCallback))) = some (some 0, some [syncError]) := by
    decide
  obtain ⟨⟨s₀, s₁, o, s₂⟩, hdeliver, hs₀⟩ := Option.map_eq_some_iff.mp hrun
  simp only [Prod.mk.injEq] at hs₀
  obtain ⟨hi, hx⟩ := hs₀
  obtain ⟨x, hx, hfront⟩ := Option.map_eq_some_iff.mp hx
  obtain ⟨hplaced, hcalls, hpop⟩ := deliverError_runs hdeliver
  exact ⟨s₀, s₁, o, s₂, hdeliver,
    (delivered_iff .win32 hplaced hi hx).1 syncError [] hfront hcalls hpop⟩

/-- The only handler is closed in the callback: the pop goes past the end of the table. -/
theorem delivery_disturbed :
    ¬ ∀ (b : Build) (s₀ s₁ s₂ : State) (i : Nat) (h : HandlerPtr) (x : CMySQLHandler) (e : ErrorInfo)
      (es : List ErrorInfo) (o : Except Fault Unit), Placed s₀ → s₀.SQLHandle[i]? = some h →
      s₀.heap h = some x → x.errorCallback = e :: es →
      Run (allowing b Set.univ) .main (execAll OnQueryError (onQueryError i e)) s₀ (.ok ()) s₁ →
      Run (allowing b Set.univ) .main (errorDelivered i) s₁ o s₂ →
      Completes i h (fun y => y.errorCallback.head? = some e) [.errorCallback_pop] s₁ o s₂ := by
  intro hall
  have hrun : (deliverError [.mysql_close 1]).map (fun r =>
      (r.1.SQLHandle[0]?, (r.1.heap 0).map (·.errorCallback),
        match r.2.2.1 with | .ok () => none | .error e => some e))
      = some (some 0, some [syncError], some .outOfRange) := by decide
  obtain ⟨⟨s₀, s₁, o, s₂⟩, hdeliver, hs₀⟩ := Option.map_eq_some_iff.mp hrun
  simp only [Prod.mk.injEq] at hs₀
  obtain ⟨hi, hx, ho⟩ := hs₀
  obtain ⟨x, hx, hfront⟩ := Option.map_eq_some_iff.mp hx
  obtain ⟨hplaced, hcalls, hpop⟩ := deliverError_runs hdeliver
  have hok := (hall .win32 s₀ s₁ s₂ 0 0 x syncError [] o hplaced hi hx hfront hcalls hpop).ok
  rw [hok] at ho
  cases ho

end MySQLPlugin

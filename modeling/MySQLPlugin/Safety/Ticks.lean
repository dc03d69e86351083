import MySQLPlugin.Safety.Worker

/-!
# `ProcessTick` keeps to the policy

`ProcessTick` takes no lock, and it reads `SQLHandle[i]` again after the publics have run. While no
public closes a connection, the entry is still there and the outcome is still at the front.
-/

namespace MySQLPlugin

open Threads Prog CMySQLHandler

/-! ### An outcome at a position -/

/-- What holds of a handler holds for as long as no outcome is taken from it. -/
def Lasting (m : CMySQLHandler → Prop) : Prop := ∀ x x', Grown (some x) (some x') → m x → m x'

/-- At position `i` there is a handler with `m`. -/
def Offers (m : CMySQLHandler → Prop) (i : ℕ) (s : State) : Prop :=
  ∃ h x, s.SQLHandle[i]? = some h ∧ h < s.nextHandler ∧ s.heap h = some x ∧ m x

section

variable {m : CMySQLHandler → Prop} {i : ℕ} {s s' : State} {e : Event}

/-- The front of a list is the front of a longer one. -/
lemma head_of_prefix {γ : Type} {l l' : List γ} {d : γ} (h : l <+: l') (hd : l.head? = some d) :
    l'.head? = some d := by
  obtain ⟨l'', rfl⟩ := h
  rw [List.head?_append, hd, Option.some_or]

lemma lasting_error (d : ErrorInfo) : Lasting fun x => x.errorCallback.head? = some d :=
  fun _ _ hgrown hd => head_of_prefix hgrown.1 hd

lemma lasting_callback (d : MainInfo) : Lasting fun x => x.callbackData.head? = some d :=
  fun _ _ hgrown hd => head_of_prefix hgrown.2 hd

lemma stable_offers (hm : Lasting m) : Stable (movesRely .main) (Offers m i) := by
  refine stable_closedUnder fun s s' hmoves hs => ?_
  obtain ⟨h, x, hi, hlt, hx, hmx⟩ := hs
  have hgrown := hmoves.heap h
  rw [hx] at hgrown
  cases hx' : s'.heap h with
  | none =>
    rw [hx'] at hgrown
    exact hgrown.elim
  | some x' =>
    rw [hx'] at hgrown
    exact ⟨h, x', hmoves.table ▸ hi, hmoves.nextHandler ▸ hlt, hx', hm x x' hgrown hmx⟩

/-- A native that is not `mysql_close` takes no outcome away. -/
lemma Offers.ofNative (hs : Offers m i s) (hm : Lasting m) {t : ThreadId} (heff : Effect t e s s')
    (he : e.OfNative) : Offers m i s' := by
  obtain ⟨h, x, hi, hlt, hx, hmx⟩ := hs
  have hi' : s'.SQLHandle[i]? = some h := heff.position (by rintro j p rfl; exact he) hi
  have hlt' : h < s'.nextHandler := by
    rw [heff.nextHandler]
    cases e <;> first | exact hlt | exact Nat.lt_succ_of_lt hlt
  rcases heff.object hx hlt (by rintro rfl; exact he) with ⟨a, rfl, hx'⟩ | hx'
  · have hpops : a ≠ .callbackData_pop ∧ a ≠ .errorCallback_pop := by
      constructor <;> (rintro rfl; exact he)
    exact ⟨h, a.apply x, hi', hlt', hx', hm _ _ (Assign.grown hpops x) hmx⟩
  · exact ⟨h, x, hi', hlt', hx', hmx⟩

end

/-! ### The publics -/

/-- `ProcessTick` at position `i`, while it runs the publics for an outcome in the scripts `l`; the
calls `c` have been made. -/
structure Calls (D : Scope) (m : CMySQLHandler → Prop) (i : ℕ) (l : List Amx) (c : List (Amx × Public))
    (s : State) : Prop where
  consistent : Consistent s
  scripts : s.p_Amx = l
  told : told s.trace = c
  offers : D.CallbacksOpen → Offers m i s

/-- `ProcessTick` at position `i`. -/
structure TicksAt (D : Scope) (i : ℕ) (s : State) : Prop where
  paused : Paused s
  within : D.CallbacksOpen → i < s.SQLHandle.length

section

variable {M : Machine Stmt Fault State ThreadId Reply} {b : Build} {D : Scope} {s : State} {i : ℕ}
  {m : CMySQLHandler → Prop} {l : List Amx} {c : List (Amx × Public)}

lemma stable_paused : Stable (movesRely .main) Paused := by
  refine (stable_owns 0 Listed).and (stable_closedUnder fun s s' hmoves hs => ?_)
  exact hmoves.told.trans hs

lemma stable_calls (hm : Lasting m) : Stable (movesRely .main) (Calls D m i l c) := by
  refine stable_closedUnder fun s s' hmoves hs => ⟨?_, ?_, ?_, fun hD => ?_⟩
  · exact stable_owns 0 Listed s s' (keeps_closedUnder hmoves) hs.consistent
  · exact hmoves.p_Amx.trans hs.scripts
  · exact hmoves.told.trans hs.told
  · exact stable_offers hm s s' (keeps_closedUnder hmoves) (hs.offers hD)

lemma stable_ticksAt (i : ℕ) : Stable (movesRely .main) (TicksAt D i) := by
  refine stable_closedUnder fun s s' hmoves hs => ⟨?_, fun hD => hmoves.table ▸ hs.within hD⟩
  exact stable_paused s s' (keeps_closedUnder hmoves) hs.paused

lemma Calls.within (hs : Calls D m i l c s) (hD : D.CallbacksOpen) : i < s.SQLHandle.length := by
  obtain ⟨h, x, hi, -⟩ := hs.offers hD
  exact (List.getElem?_eq_some_iff.mp hi).1

/-- A public is called. -/
lemma Calls.exec (hs : Calls D m i l c s) {s' : State} {a : Amx} {p : Public}
    (heff : Effect .main (.exec a p) s s') : Calls D m i l (c ++ [(a, p)]) s' where
  consistent := hs.consistent.plain heff trivial
  scripts := heff.p_Amx.trans hs.scripts
  told := by
    rw [heff.trace, told_concat, Event.onTold, hs.told]
  offers hD := by
    obtain ⟨h, x, hi, hlt, hx, hmx⟩ := hs.offers hD
    refine ⟨h, x, heff.table ▸ hi, ?_, (heff.heap h).trans hx, hmx⟩
    rw [heff.nextHandler]
    exact hlt

lemma Offers.tellsError {e : ErrorInfo} (hs : Offers (fun x => x.errorCallback.head? = some e) i s)
    {h : HandlerPtr} (hh : s.SQLHandle[i]? = some h) : (onQueryError i e).TellsError h s := by
  obtain ⟨p, x, hi, -, hx, hfront⟩ := hs
  obtain rfl : p = h := Option.some.inj (hi.symm.trans hh)
  exact ⟨i, x, e, hi, hx, hfront, rfl⟩

lemma Offers.tellsSuccess {d : MainInfo} (hs : Offers (fun x => x.callbackData.head? = some d) i s)
    {h : HandlerPtr} (hh : s.SQLHandle[i]? = some h) : (onQueryFinish i d).TellsSuccess h s := by
  obtain ⟨p, x, hi, -, hx, hfront⟩ := hs
  obtain rfl : p = h := Option.some.inj (hi.symm.trans hh)
  exact ⟨i, x, d, hi, hx, hfront, rfl⟩

variable (hM : ∀ {t : ThreadId} {β : Type} {a : Stmt β} {s o s'}, M.Step t a s o s' →
  (plugin b).Step t a s o s') (hN : Confined M D.callbacks)

include hM

/-- A native called by a public. -/
lemma native_keeps_calls (hm : Lasting m) {n : NativeCall} (hn : n ∈ D.callbacks)
    (hs : Calls D m i l c s) :
    (native n).Secures M movesRely (policy D) .main (fun _ => Calls D m i l c) s := by
  have htold : (native n).Secures M movesRely (policy D) .main
      (fun _ s => Consistent s ∧ s.p_Amx = l ∧ told s.trace = c) s :=
    native_told hM (fun hD => hD.1 n hn) ⟨hs.consistent, hs.scripts, hs.told⟩
  by_cases hD : D.CallbacksOpen
  · refine (htold.frame (P := Stmt.Only .main Event.OfNative) (native_ofNative .main (hD n hn))
      (stable_offers hm) (fun a s o s' ha _ hs hst => ?_) (hs.offers hD)).mono fun _ s hs => ?_
    · rcases step_effect (hM hst) ha with rfl | ⟨e, he, heff⟩
      · exact hs
      · exact hs.ofNative hm heff he
    · exact ⟨hs.1.1, hs.1.2.1, hs.1.2.2, fun _ => hs.2⟩
  · exact htold.mono fun _ s hs => ⟨hs.1, hs.2.1, hs.2.2, fun hopen => absurd hopen hD⟩

include hN

/-- The publics of all scripts: each is called once, and told of the outcome at the front. -/
lemma execAll_secures (hm : Lasting m) {name : CString} {p : Public} (hname : p.name = name)
    (htells : ∀ s, Offers m i s → ∃ h, p.TellsSuccess h s ∨ p.TellsError h s)
    (hs : Calls D m i l [] s) :
    (execAll name p).Secures M movesRely (policy D) .main (fun _ => Calls D m i l (p.calls l)) s := by
  subst hname
  refine secures_stmt hM (stable_calls hm) hs (fun _ _ => trivial) (fun o s₁ s₂ _ hst => ?_)
    fun l' s₁ s₂ hs₁ hst => ?_
  · have hread : (Stmt.scripts).Only .main fun _ => False := trivial
    rcases step_effect (hM hst) hread with rfl | ⟨e, he, -⟩
    · exact (MainMoves.refl _).guarantees
    · exact he.elim
  obtain ⟨rfl, rfl⟩ := step_scripts (hM hst)
  obtain rfl := hs₁.scripts
  refine secures_forEach (J := fun l => Calls D m i s₂.p_Amx (p.calls l)) (fun l => stable_calls hm)
    (fun before a after s hl hs => ?_) hs₁
  split_ifs with hpublic
  · have hone : p.calls [a] = [(a, p)] := by simp [Public.calls, hpublic]
    have hcalls : p.calls (before ++ [a]) = p.calls before ++ [(a, p)] := by
      rw [Public.calls_append, hone]
    have hnext : p.calls before ++ [(a, p)] <+: p.calls s₂.p_Amx := by
      have hscripts : s₂.p_Amx = before ++ [a] ++ after := by rw [hl, List.append_cons]
      rw [hscripts, Public.calls_append p (before ++ [a]), hcalls]
      exact List.prefix_append _ _
    have honly : (Stmt.exec a p).Only .main (· = .exec a p) := rfl
    rw [hcalls]
    refine secures_stmt hM (stable_calls hm) hs (fun s hs => ⟨rfl, ?_, fun hD => htells s (hs.offers hD)⟩)
      (fun o s₃ s₄ hs₃ hst => ?_) fun natives s₃ s₄ hs₃ hst => ?_
    · rw [hs.told, hs.scripts]
      exact hnext
    · rcases step_effect (hM hst) honly with rfl | ⟨e, rfl, heff⟩
      · exact (MainMoves.refl _).guarantees
      · exact (heff.mainMoves trivial trivial).guarantees
    · have hcalled : Calls D m i s₂.p_Amx (p.calls before ++ [(a, p)]) s₄ :=
        hs₃.exec (step_exec (hM hst))
      refine secures_forEach
        (J := fun _ : List NativeCall => Calls D m i s₂.p_Amx (p.calls before ++ [(a, p)]))
        (fun _ => stable_calls hm) (fun l n l' s hl hs => .bind ?_) hcalled
      have hn : n ∈ natives := by simp [hl]
      have hnative := native_keeps_calls hM hm (hN a p s₃ natives s₄ hst n hn) hs
      exact hnative.mono fun _ s hs => secures_ret (stable_calls hm) hs
  · have hnone : p.calls (before ++ [a]) = p.calls before := by
      simp [Public.calls, hpublic]
    rw [hnone]
    exact secures_ret (stable_calls hm) hs

omit hN in
/-- An assignment to the handler at position `i`, which the main thread reads again. -/
lemma secures_assignAt {A : State → Prop} {a : Assign} (ha : ¬ a.OnQueue)
    (hallowed : ∀ h s, a.Allowed .main h s)
    (hA : Stable (movesRely .main) A) (hconsistent : ∀ s, A s → Consistent s)
    (hwithin : ∀ s, A s → D.CallbacksOpen → i < s.SQLHandle.length)
    (hdefined : ∀ h x s, A s → D.CallbacksOpen → s.SQLHandle[i]? = some h → s.heap h = some x →
      a.defined x = true)
    (hfollows : ∀ h s, A s → s.SQLHandle[i]? = some h → a.Follows D h s) {α : Type}
    {f : Unit → Code α} {Q : α → State → Prop}
    (hf : ∀ h s s', A s → s.SQLHandle[i]? = some h → M.Step .main (.assign h a) s (.ok ()) s' →
      Effect .main (.assign .main h a) s s' → (f ()).Secures M movesRely (policy D) .main Q s')
    (hs : A s) :
    (Prog.lift (.at i) >>= fun h => assign h a >>= f).Secures M movesRely (policy D) .main Q s := by
  refine secures_at hM hA hs (fun s hs hD => hwithin s hs (hD.resolve_left (by simp)))
    fun h s hs hh => ?_
  have hentry : Stable (movesRely .main) fun s => s.SQLHandle[i]? = some h :=
    stable_closedUnder fun s s' hmoves hi => hmoves.table ▸ hi
  have honly : (Stmt.assign h a).Only .main (· = .assign .main h a) := rfl
  refine secures_stmt hM (hA.and hentry) ⟨hs, hh⟩
    (fun s hs => ⟨?_, fun hqueue => absurd hqueue ha, ?_, hallowed h s, hfollows h s hs.1 hs.2⟩)
    (fun o s₁ s₂ _ hst => ?_) fun u s₁ s₂ hs₁ hst => ?_
  · exact ((hconsistent s hs.1).registry.live h).mpr (List.mem_of_getElem? hs.2)
  · exact fun hD x hx => hdefined h x s hs.1 (hD.resolve_left (by simp)) hs.2 hx
  · rcases step_effect (hM hst) honly with rfl | ⟨e, rfl, heff⟩
    · exact (MainMoves.refl _).guarantees
    · exact (heff.mainMoves ha trivial).guarantees
  · have hrec : (Stmt.assign h a).Records := trivial
    obtain ⟨e, rfl, heff⟩ := hrec.effect honly (hM hst)
    exact hf h s₁ s₂ hs₁.1 hs₁.2 hst heff

/-- The assignment takes an outcome from its channel. -/
def Assign.Pops : Assign → Prop
  | .callbackData_pop | .errorCallback_pop => True
  | _ => False

omit hN in
/-- The outcome at position `i` is taken from its channel. -/
lemma pop_secures {a : Assign} {p : Public} (ha : a.Pops) (hdefined : ∀ x, m x → a.defined x = true)
    (hm : Lasting m)
    (hfollows : ∀ h s, told s.trace = p.calls s.p_Amx →
      (D.CallbacksOpen → s.SQLHandle[i]? = some h ∧ Offers m i s) → a.Follows D h s)
    {α : Type} {f : Unit → Code α} {Q : α → State → Prop}
    (hf : ∀ h s s', s.SQLHandle[i]? = some h → M.Step .main (.assign h a) s (.ok ()) s' →
      TicksAt D i s' → (f ()).Secures M movesRely (policy D) .main Q s')
    (hs : Calls D m i l (p.calls l) s) :
    (Prog.lift (.at i) >>= fun h => assign h a >>= f).Secures M movesRely (policy D) .main Q s := by
  have hqueue : ¬ a.OnQueue := by cases a <;> first | exact id | exact ha.elim
  have hallowed (h : HandlerPtr) (s : State) : a.Allowed .main h s := by
    cases a <;> first | rfl | exact ha.elim
  refine secures_assignAt hM hqueue hallowed (stable_calls hm) (fun s hs => hs.consistent)
    (fun s hs hD => hs.within hD) (fun h x s hs hD hh hx => ?_)
    (fun h s hs hh => hfollows h s (hs.told.trans (by rw [hs.scripts])) fun hD => ⟨hh, hs.offers hD⟩)
    (fun h s₁ s₂ hs₁ hh hst heff => hf h s₁ s₂ hh hst ⟨⟨?_, ?_⟩, fun hD => ?_⟩) hs
  · obtain ⟨q, y, hq, -, hy, hmy⟩ := hs.offers hD
    obtain rfl : q = h := Option.some.inj (hq.symm.trans hh)
    obtain rfl : y = x := Option.some.inj (hy.symm.trans hx)
    exact hdefined y hmy
  · exact hs₁.consistent.plain heff hqueue
  · rw [heff.trace, told_concat]
    cases a <;> first | rfl | exact ha.elim
  · have htable : s₂.SQLHandle = s₁.SQLHandle := heff.table
    exact htable ▸ hs₁.within hD

omit hN in
/-- A half of a visit reads the outcome at the front, if there is one. -/
lemma front_secures {γ : Type} {ch : CMySQLHandler → List γ}
    (hlast : ∀ d, Lasting fun x => (ch x).head? = some d) {f : γ → Code Unit}
    {Q : Unit → State → Prop}
    (hf : ∀ d s, Calls D (fun x => (ch x).head? = some d) i s.p_Amx [] s →
      (f d).Secures M movesRely (policy D) .main Q s)
    (hnone : ∀ h x s s', TicksAt D i s → s.SQLHandle[i]? = some h →
      M.Step .main (.this h) s (.ok x) s' → ch x = [] → Stable (movesRely .main) (Q ()) ∧ Q () s)
    (hs : TicksAt D i s) :
    (do if !(ch (← this (← .lift (.at i)))).isEmpty then
          let d ← front (ch (← this (← .lift (.at i))))
          f d
        else pure () : Code Unit).Secures M movesRely (policy D) .main Q s := by
  have hstable := stable_ticksAt (D := D) i
  refine secures_at hM hstable hs (fun s hs hD => hs.within (hD.resolve_left (by simp)))
    fun h s hs hh => ?_
  have hentry (h : HandlerPtr) :
      Stable (movesRely .main) fun s => TicksAt D i s ∧ s.SQLHandle[i]? = some h :=
    hstable.and (stable_closedUnder fun s s' hmoves hi => hmoves.table ▸ hi)
  have hlive {h : HandlerPtr} {s : State} (hs : TicksAt D i s ∧ s.SQLHandle[i]? = some h) :
      h ∈ s.live := (hs.1.paused.1.registry.live h).mpr (List.mem_of_getElem? hs.2)
  refine secures_read hM trivial (hentry h) ⟨hs, hh⟩ (fun s hs => hlive hs)
    fun x s s' hs hst _ => ?_
  have hx : s.heap h = some x := (step_this (hM hst)).2
  split_ifs with hempty
  · obtain ⟨d, hd⟩ : ∃ d, (ch x).head? = some d := by
      cases hch : ch x with
      | nil => simp [hch] at hempty
      | cons d ds => exact ⟨d, rfl⟩
    have hoffers : Offers (fun x => (ch x).head? = some d) i s :=
      ⟨h, x, hs.2, hs.1.paused.1.registry.issued h (List.mem_of_getElem? hs.2), hx, hd⟩
    have hboth : Stable (movesRely .main) fun s =>
        TicksAt D i s ∧ Offers (fun x => (ch x).head? = some d) i s :=
      hstable.and (stable_offers (hlast d))
    refine secures_at hM hboth ⟨hs.1, hoffers⟩
      (fun s hs hD => hs.1.within (hD.resolve_left (by simp))) fun h s hs hh => ?_
    refine secures_this hM ((hentry h).and (stable_offers (hlast d))) ⟨⟨hs.1, hh⟩, hs.2⟩
      (fun s hs => hlive hs.1) fun x s hs hx => ?_
    obtain ⟨p, y, hp, -, hy, hfront⟩ := hs.2
    obtain rfl : p = h := Option.some.inj (hp.symm.trans hs.1.2)
    obtain rfl : y = x := Option.some.inj (hy.symm.trans hx)
    cases hch : ch y with
    | nil => simp [hch] at hfront
    | cons d' ds =>
      obtain rfl : d' = d := by simpa [hch] using hfront
      exact hf d' s ⟨hs.1.1.paused.1, rfl, hs.1.1.paused.2, fun _ => hs.2⟩
  · obtain ⟨hQ, hs'⟩ := hnone h x s s' hs.1 hs.2 hst (by simpa using hempty)
    exact secures_ret hQ hs'

/-- The half that reports an error. -/
lemma errorHalf_secures {Q : Unit → State → Prop}
    (hpop : ∀ h s s', s.SQLHandle[i]? = some h →
      M.Step .main (.assign h .errorCallback_pop) s (.ok ()) s' → TicksAt D i s' →
        Stable (movesRely .main) (Q ()) ∧ Q () s')
    (hnone : ∀ h x s s', TicksAt D i s → s.SQLHandle[i]? = some h →
      M.Step .main (.this h) s (.ok x) s' → x.errorCallback = [] →
        Stable (movesRely .main) (Q ()) ∧ Q () s)
    (hs : TicksAt D i s) : (tickError i).Secures M movesRely (policy D) .main Q s := by
  refine front_secures hM lasting_error (fun e s hs => ?_) hnone hs
  have hexec := execAll_secures hM hN (lasting_error e) (p := onQueryError i e) rfl
    (fun s hs => ?_) hs
  · refine .bind (hexec.mono fun _ s hs => ?_)
    refine pop_secures hM (a := .errorCallback_pop) (f := Prog.ret) trivial (fun x hx => ?_)
      (lasting_error e) (fun h s htold hs => ?_) (fun h s s' hh hst hs' => ?_) hs
    · cases hch : x.errorCallback <;> simp_all [Assign.defined]
    · exact ⟨onQueryError i e, htold, fun hD => (hs hD).2.tellsError (hs hD).1⟩
    · obtain ⟨hQ, hs'⟩ := hpop h s s' hh hst hs'
      exact secures_ret hQ hs'
  · obtain ⟨h, x, hi, -⟩ := id hs
    exact ⟨h, .inr (hs.tellsError hi)⟩

/-- The half that delivers a result. -/
lemma callbackHalf_secures {Q : Unit → State → Prop}
    (hpop : ∀ h s s', s.SQLHandle[i]? = some h →
      M.Step .main (.assign h .callbackData_pop) s (.ok ()) s' → TicksAt D i s' →
        (do assign (← .lift (.at i)) (.m_bQueryProcessing false) : Code Unit).Secures M movesRely
          (policy D) .main Q s')
    (hnone : ∀ h x s s', TicksAt D i s → s.SQLHandle[i]? = some h →
      M.Step .main (.this h) s (.ok x) s' → x.callbackData = [] →
        Stable (movesRely .main) (Q ()) ∧ Q () s)
    (hs : TicksAt D i s) : (tickCallback i).Secures M movesRely (policy D) .main Q s := by
  refine front_secures hM lasting_callback (fun d s hs => ?_) hnone hs
  have hexec := execAll_secures hM hN (lasting_callback d) (p := onQueryFinish i d) rfl
    (fun s hs => ?_) hs
  · refine .bind (hexec.mono fun _ s hs => ?_)
    refine pop_secures hM (a := .callbackData_pop) trivial (fun x hx => ?_) (lasting_callback d)
      (fun h s htold hs => ?_) hpop hs
    · cases hch : x.callbackData <;> simp_all [Assign.defined]
    · exact ⟨onQueryFinish i d, htold, fun hD => (hs hD).2.tellsSuccess (hs hD).1⟩
  · obtain ⟨h, x, hi, -⟩ := id hs
    exact ⟨h, .inl (hs.tellsSuccess hi)⟩

lemma tickError_secures (hs : TicksAt D i s) :
    (tickError i).Secures M movesRely (policy D) .main (fun _ => TicksAt D i) s :=
  errorHalf_secures hM hN (fun _ _ _ _ _ hs => ⟨stable_ticksAt i, hs⟩)
    (fun _ _ _ _ hs _ _ _ => ⟨stable_ticksAt i, hs⟩) hs

omit hN in
/-- The flag of the handler at position `i` is reset. -/
lemma reset_secures (hs : TicksAt D i s) :
    (do assign (← .lift (.at i)) (.m_bQueryProcessing false) : Code Unit).Secures M movesRely
      (policy D) .main (fun _ => TicksAt D i) s := by
  refine secures_assignAt hM (a := .m_bQueryProcessing false) (f := Prog.ret) id
    (fun _ _ => trivial) (stable_ticksAt i) (fun s hs => hs.paused.1) (fun s hs => hs.within)
    (fun _ _ _ _ _ _ _ => rfl) (fun _ _ _ _ => trivial) (fun h s₁ s₂ hs₁ _ _ heff => ?_) hs
  refine secures_ret (stable_ticksAt i) ⟨⟨hs₁.paused.1.plain heff id, ?_⟩, fun hD => ?_⟩
  · rw [heff.trace, told_concat]
    exact hs₁.paused.2
  · have htable : s₂.SQLHandle = s₁.SQLHandle := heff.table
    exact htable ▸ hs₁.within hD

lemma tickCallback_secures (hs : TicksAt D i s) :
    (tickCallback i).Secures M movesRely (policy D) .main (fun _ => TicksAt D i) s :=
  callbackHalf_secures hM hN (fun _ _ _ _ _ hs => reset_secures hM hs)
    (fun _ _ _ _ hs _ _ _ => ⟨stable_ticksAt i, hs⟩) hs

lemma tickVisit_secures (hs : TicksAt D i s) :
    (tickVisit i).Secures M movesRely (policy D) .main (fun _ => TicksAt D i) s :=
  .bind ((tickError_secures hM hN hs).mono fun _ _ hs => tickCallback_secures hM hN hs)

/-! ### The loops -/

omit hN in
/-- Scripts come and go, and marks are made, between two visits. -/
lemma secures_paused {a : Stmt Unit} (hrec : a.Records) {e : Event} (ha : a.Only .main (· = e))
    (he : e.Plain) (hv : e.NoVisit) (htold : ∀ l, e.onTold l = l) (hmay : ∀ s, a.May D .main s)
    {α : Type} {f : Unit → Code α} {Q : α → State → Prop}
    (hf : ∀ s, Paused s → (f ()).Secures M movesRely (policy D) .main Q s) (hs : Paused s) :
    (Prog.lift a >>= f).Secures M movesRely (policy D) .main Q s := by
  refine secures_records hM hrec ha stable_paused hs (fun s _ => hmay s) fun e' s₁ s₂ he' hs₁ heff => ?_
  subst he'
  refine ⟨(heff.mainMoves he hv).guarantees, fun _ => hf s₂ ⟨hs₁.1.plain heff he, ?_⟩⟩
  rw [heff.trace, told_concat, htold, hs₁.2]

omit hN in
lemma tickEnd_secures (hs : Paused s) :
    (Prog.lift (.mark .tickEnd) >>= fun _ => pure Point.idle).Secures M movesRely (policy D) .main
      (fun y => safeAt .main y) s :=
  secures_paused hM (a := .mark .tickEnd) trivial rfl trivial trivial (fun _ => rfl)
    (fun _ => trivial) (fun _ hs => secures_ret stable_paused hs) hs

omit hN in
lemma processTick_secures (hs : Paused s) :
    processTick.Secures M movesRely (policy D) .main (fun y => safeAt .main y) s := by
  refine secures_paused hM (a := .mark .tick) trivial rfl trivial trivial (fun _ => rfl)
    (fun _ => trivial) (fun s hs => ?_) hs
  refine secures_size hM stable_paused hs fun s hs => ?_
  split_ifs
  · exact secures_ret stable_paused hs
  · exact tickEnd_secures hM hs

lemma tickLoop_secures (i : ℕ) (hs : Paused s) :
    (tickLoop i).Secures M movesRely (policy D) .main (fun y => safeAt .main y) s := by
  refine secures_size hM stable_paused hs fun s hs => ?_
  split_ifs with hlt
  · refine .bind ((tickVisit_secures hM hN ⟨hs, fun _ => hlt⟩).mono fun _ s hs => ?_)
    exact secures_ret stable_paused hs.paused
  · exact tickEnd_secures hM hs

omit hN in
/-- The server loads or unloads a script. -/
lemma amx_secures {a : Stmt Unit} (hrec : a.Records) {e : Event} (ha : a.Only .main (· = e))
    (he : e.Plain) (hv : e.NoVisit) (htold : ∀ l, e.onTold l = l) (hmay : ∀ s, a.May D .main s)
    (hs : Paused s) :
    (Prog.lift a >>= fun _ => pure Point.idle).Secures M movesRely (policy D) .main
      (fun y => safeAt .main y) s :=
  secures_paused hM hrec ha he hv htold hmay (fun _ hs => secures_ret stable_paused hs) hs

omit hN in
/-- A native that a script calls outside `ProcessTick`. -/
lemma nativeCall_secures {n : NativeCall} (hn : D.AllOpen → n.Open) (hs : Paused s) :
    (native n >>= fun _ => pure Point.idle).Secures M movesRely (policy D) .main
      (fun y => safeAt .main y) s :=
  .bind ((native_told hM hn ⟨hs.1, rfl, hs.2⟩).mono fun _ _ hs =>
    secures_ret stable_paused ⟨hs.1, hs.2.2⟩)

end

end MySQLPlugin

import MySQLPlugin.Handles.Names

/-!
# What a connection handle denotes

A script keeps the handle that `mysql_connect` returned. The handle denotes the connection that it
was returned for until `mysql_close` erases an entry before it; from then on the handle denotes
the connection opened next, or none, although the connection itself is still open.
-/

namespace MySQLPlugin

open Threads Dispatch Prog CMySQLHandler Natives

/-- `mysql_close` for the handler `p` in the entry `i`. -/
def closeEntry (i : Nat) (p : HandlerPtr) : Code Cell := do
  lockMutex
  clearQueue p
  destruct p
  .lift (.erase i)
  unlockMutex
  pure 1

/-- Natives called with the connection handle `c` work on the handler at `p`, and `mysql_close` closes
it. -/
structure Denotes (b : Build) (s : State) (c : Cell) (p : HandlerPtr) : Prop where
  natives : ∀ f o s', Run (plugin b) .main (withHandle c f) s o s' ↔ Run (plugin b) .main (f p) s o s'
  close : ∀ o s', Run (plugin b) .main (nMysqlClose c) s o s' ↔
    Run (plugin b) .main (closeEntry (c - 1).toNat p) s o s'

section

variable {b : Build} {s s' : State} {p : HandlerPtr} {i : Nat} {α : Type} {o : Except Fault α}

lemma run_size_iff {f : Nat → Code α} : Run (plugin b) .main (Prog.lift .size >>= f) s o s' ↔
    Run (plugin b) .main (f s.SQLHandle.length) s o s' := by
  rw [run_lift_bind_iff]
  constructor
  · rintro (⟨n, s₁, hst, hrun⟩ | ⟨e, rfl, hst⟩)
    · obtain ⟨rfl, rfl⟩ := step_size hst
      exact hrun
    · exact absurd (step_size_iff.mp hst).1 (by simp)
  · exact fun hrun => .inl ⟨_, _, step_size_iff.mpr ⟨rfl, rfl⟩, hrun⟩

lemma run_at_iff {f : HandlerPtr → Code α} (hi : s.SQLHandle[i]? = some p) :
    Run (plugin b) .main (Prog.lift (.at i) >>= f) s o s' ↔ Run (plugin b) .main (f p) s o s' := by
  rw [run_lift_bind_iff]
  simp only [step_at_iff, hi, Option.elim_some, Except.ok.injEq, reduceCtorEq, false_and, and_false,
    exists_false, or_false]
  constructor
  · rintro ⟨q, s₁, ⟨rfl, rfl⟩, hrun⟩
    exact hrun
  · exact fun hrun => ⟨p, s, ⟨rfl, rfl⟩, hrun⟩

/-- Statements that leave the table alone may come before. -/
lemma run_stays_congr {β : Type} {q : Code β} {f g : β → Code α}
    (hq : q.All (Stmt.Only .main Event.Stays))
    (hfg : ∀ x s₁, s₁.SQLHandle = s.SQLHandle →
      (Run (plugin b) .main (f x) s₁ o s' ↔ Run (plugin b) .main (g x) s₁ o s')) :
    Run (plugin b) .main (q >>= f) s o s' ↔ Run (plugin b) .main (q >>= g) s o s' := by
  refine run_bind_congr fun x s₁ hrun => hfg x s₁ ?_
  exact ((wp_iff _ _ _).mp (wp_table hq)).1 x s₁ hrun

end

/-- A native reads the table once and goes on with the handler at the position of its handle. -/
lemma run_withHandle_iff {b : Build} {s s' : State} {c : Cell} {f : HandlerPtr → Code Cell}
    {o : Except Fault Cell} : Run (plugin b) .main (withHandle c f) s o s' ↔
      (∃ p, handlerAt s c = some p ∧ Run (plugin b) .main (f p) s o s') ∨
        handlerAt s c = none ∧ o = .ok 0 ∧ s' = s := by
  rw [withHandle, run_size_iff]
  by_cases hlen : s.SQLHandle.length ≤ (c - 1).toNat
  · have hnone : handlerAt s c = none := List.getElem?_eq_none hlen
    rw [if_pos hlen]
    simp only [hnone, reduceCtorEq, false_and, exists_false, false_or, true_and]
    constructor
    · rintro ⟨⟩
      exact ⟨rfl, rfl⟩
    · rintro ⟨rfl, rfl⟩
      exact .ret 0 _
  · obtain ⟨p, hp⟩ : ∃ p, handlerAt s c = some p :=
      ⟨_, List.getElem?_eq_getElem (Nat.lt_of_not_le hlen)⟩
    rw [if_neg hlen, run_at_iff hp]
    simp [hp]

/-- `mysql_close` reads its entry twice, and finds the same handler. -/
lemma run_close_iff {b : Build} {s s' : State} {c : Cell} {p : HandlerPtr} {o : Except Fault Cell}
    (hp : handlerAt s c = some p) : Run (plugin b) .main (nMysqlClose c) s o s' ↔
      Run (plugin b) .main (closeEntry (c - 1).toNat p) s o s' := by
  have hlen : (c - 1).toNat < s.SQLHandle.length := (List.getElem?_eq_some_iff.mp hp).1
  have hlock : (lockMutex : Code Unit).All (Stmt.Only .main Event.Stays) :=
    ⟨⟨trivial, trivial⟩, fun _ => trivial⟩
  rw [nMysqlClose, run_size_iff, if_neg (Nat.not_le_of_lt hlen)]
  refine run_stays_congr hlock fun _ s₁ hs₁ => ?_
  have hp₁ : s₁.SQLHandle[(c - 1).toNat]? = some p := hs₁ ▸ hp
  rw [run_at_iff hp₁]
  refine run_stays_congr (clearQueue_stays .main p) fun _ s₂ hs₂ => ?_
  exact run_at_iff (hs₂ ▸ hp₁)

lemma denotes_iff {b : Build} {s : State} {c : Cell} {p : HandlerPtr} :
    Denotes b s c p ↔ handlerAt s c = some p := by
  constructor
  · intro h
    -- a native that returns `1` for the handler `p` only
    have hrun := (h.natives (fun q => .ret (if q = p then 1 else 2)) (.ok 1) s).mpr (by
      rw [if_pos rfl]
      exact .ret 1 s)
    rcases run_withHandle_iff.mp hrun with ⟨q, hq, hret⟩ | ⟨-, hzero, -⟩
    · by_cases hqp : q = p
      · exact hqp ▸ hq
      · rw [if_neg hqp] at hret
        cases hret
    · cases hzero
  · refine fun h => ⟨fun f o s' => ?_, fun o s' => run_close_iff h⟩
    rw [run_withHandle_iff]
    simp [h]

section

variable {s₀ s : State} {b : Build} {N : Set NativeCall} {host user db pass : CString} {port : Cell}

/-- The object at `p` is the one of the state `s₀`, unless it has been deleted. -/
def Lives (host user db pass : CString) (port : Cell) (p : HandlerPtr) (s₀ s : State) : Prop :=
  p < s.nextHandler ∧ ∃ es, s.trace = s₀.trace ++ es ∧
    (.delete p ∉ es → HasParams host user db pass port p s)

lemma Lives.step {p : HandlerPtr} {t : ThreadId} {e : Event} {s' : State}
    (h : Lives host user db pass port p s₀ s) (heff : Effect t e s s') :
    Lives host user db pass port p s₀ s' := by
  obtain ⟨hlt, es, htrace, hparams⟩ := h
  refine ⟨?_, es ++ [e], by rw [heff.trace, htrace, List.append_assoc], fun hdel => ?_⟩
  · rw [heff.nextHandler]
    cases e <;> first | exact hlt | exact Nat.lt_succ_of_lt hlt
  · rw [List.mem_append, List.mem_singleton, not_or] at hdel
    exact (hparams hdel.1).step heff hlt fun he => hdel.2 he.symm

/-- A handle that `mysql_connect` has returned denotes its connection, as long as that is open, if
and only if every entry that has been erased since then was behind it. -/
theorem handle_denotes_iff (b : Build) (p_Amx : List Amx) {s₁ s₂ s₃ : State} {r : Cell}
    (h₁ : Runs b Set.univ (State.init p_Amx) s₁)
    (h₂ : Run (allowing b Set.univ) .main (native (.mysql_connect host user db pass port)) s₁ (.ok r)
      s₂)
    (h₃ : Runs b Set.univ s₂ s₃) :
    ∃ p es, s₃.trace = s₂.trace ++ es ∧ Denotes b s₂ r p ∧ HasParams host user db pass port p s₂ ∧
      (.delete p ∉ es →
        ((Denotes b s₃ r p ∧ HasParams host user db pass port p s₃) ↔
          ∀ j q, .erase j q ∈ es → (r - 1).toNat < j)) := by
  have hn₁ := runs_names (placed_init _) h₁
  have hopened : (native (.mysql_connect host user db pass port)).wp (allowing b Set.univ) .main
      (fun _ _ => True) (fun r s' => Names (State.init p_Amx) s' ∧ Opened host user db pass port r s') s₁ :=
    native_opened hn₁
  obtain ⟨hn₂, i, rfl, hlt, p, hi, hparams⟩ := ((wp_iff _ _ _).mp hopened).1 _ _ h₂
  have hpos : (BitVec.ofNat 32 (i + 1) - 1).toNat = i := by
    simp only [maxHandlers] at hlt
    bv_omega
  have hn₃ := runs_names hn₂.placed h₃
  obtain ⟨es, htrace, -⟩ := hn₃.since
  have hlives : Lives host user db pass port p s₂ s₃ :=
    h₃.invariant (I := Lives host user db pass port p s₂) (fun t q s _ hI =>
      wp_of_only step_of_allowing (all_only_true q) (fun e s s' _ hI heff => hI.step heff)
        (fun _ _ _ => trivial) hI)
      ⟨hn₂.placed.lt p (List.mem_of_getElem? hi), [], by simp, fun _ => hparams⟩
  refine ⟨p, es, htrace, ?_, hparams, fun hdel => ?_⟩
  · rw [denotes_iff, handlerAt, hpos, hi]
  have hparams₃ : HasParams host user db pass port p s₃ := by
    obtain ⟨-, es', htrace', hp₃⟩ := hlives
    obtain rfl : es = es' := List.append_cancel_left (htrace.symm.trans htrace')
    exact hp₃ hdel
  rw [denotes_iff, handlerAt, hpos, and_iff_left hparams₃,
    hn₃.position_iff hn₂.placed hi htrace]

end

/-- Three connections are opened and the last one is closed: the handle of the second one still denotes
it. -/
theorem handle_denotes_iff_closedBehind :
    ∃ s₂ s₃ p es, s₃.trace = s₂.trace ++ es ∧ Denotes .win32 s₂ 2 p ∧
      HasParams ['b'] [] [] [] 0 p s₂ ∧ .erase 2 2 ∈ s₃.trace ∧ (.delete p ∉ es →
        ((Denotes .win32 s₃ 2 p ∧ HasParams ['b'] [] [] [] 0 p s₃) ↔
          ∀ j q, .erase j q ∈ es → ((2 : Cell) - 1).toNat < j)) := by
  have hrun : (play (allowing .win32 Set.univ) (fun _ _ => {})
      [.native (.mysql_connect ['a'] [] [] [] 0)] (State.init [])).bind (fun s₁ =>
        ((native (.mysql_connect ['b'] [] [] [] 0)).eval (allowing .win32 Set.univ) .main
          (fun _ _ => {}) s₁).bind fun r =>
            (play (allowing .win32 Set.univ) (fun _ _ => {}) [.native (.mysql_connect ['c'] [] [] [] 0),
              .visit 1, .native (.mysql_close 3)] r.2).map
              fun s₃ => (r.1, decide (.erase 2 2 ∈ s₃.trace)))
      = some (2, true) := by decide
  obtain ⟨s₁, h₁, hrun⟩ := Option.bind_eq_some_iff.mp hrun
  obtain ⟨⟨r, s₂⟩, h₂, hplay⟩ := Option.bind_eq_some_iff.mp hrun
  obtain ⟨s₃, h₃, hr⟩ := Option.map_eq_some_iff.mp hplay
  simp only [Prod.mk.injEq, decide_eq_true_eq] at hr
  obtain ⟨rfl, herased⟩ := hr
  have hconnect := run_of_eval (M := allowing .win32 Set.univ) (fun _ _ => admits_of_silent rfl) _ h₂
  obtain ⟨p, es, htrace, hdenotes, hparams, hiff⟩ :=
    handle_denotes_iff .win32 [] (runs_of_play_univ h₁) hconnect (runs_of_play_univ h₃)
  exact ⟨s₂, s₃, p, es, htrace, hdenotes, hparams, herased, hiff⟩

/-- Two connections are opened and the first one is closed: the handle of the second one denotes
nothing. -/
theorem handle_not_permanent :
    ¬ ∀ (b : Build) (p_Amx : List Amx) (s₁ s₂ s₃ : State) (host user db pass : CString) (port : Cell)
      (r : Cell) (p : HandlerPtr) (es : List Event), Runs b Set.univ (State.init p_Amx) s₁ →
      Run (allowing b Set.univ) .main (native (.mysql_connect host user db pass port)) s₁ (.ok r)
        s₂ →
      Runs b Set.univ s₂ s₃ → s₃.trace = s₂.trace ++ es → Denotes b s₂ r p → .delete p ∉ es →
      Denotes b s₃ r p := by
  intro hall
  have hrun : (play (allowing .win32 Set.univ) (fun _ _ => {})
      [.native (.mysql_connect ['a'] [] [] [] 0)] (State.init [])).bind (fun s₁ =>
        ((native (.mysql_connect ['b'] [] [] [] 0)).eval (allowing .win32 Set.univ) .main
          (fun _ _ => {}) s₁).bind fun r =>
            (play (allowing .win32 Set.univ) (fun _ _ => {}) [.native (.mysql_close 1)] r.2).map
              fun s₃ => (r.1, handlerAt r.2 2, handlerAt s₃ 2,
                decide (.delete 1 ∈ s₃.trace.drop r.2.trace.length)))
      = some (2, some 1, none, false) := by decide
  obtain ⟨s₁, h₁, hrun⟩ := Option.bind_eq_some_iff.mp hrun
  obtain ⟨⟨r, s₂⟩, h₂, hplay⟩ := Option.bind_eq_some_iff.mp hrun
  obtain ⟨s₃, h₃, hr⟩ := Option.map_eq_some_iff.mp hplay
  simp only [Prod.mk.injEq, decide_eq_false_iff_not] at hr
  obtain ⟨rfl, hbefore, hafter, hdel⟩ := hr
  have hconnect := run_of_eval (M := allowing .win32 Set.univ) (fun _ _ => admits_of_silent rfl) _ h₂
  have hruns₁ := runs_of_play_univ h₁
  have hruns₃ := runs_of_play_univ h₃
  have hn₂ := ((wp_iff _ _ _).mp (native_names (runs_names (placed_init _) hruns₁) _)).1 _ _ hconnect
  obtain ⟨es, htrace, -⟩ := (runs_names hn₂.placed hruns₃).since
  rw [htrace, List.drop_left] at hdel
  have := hall .win32 [] s₁ s₂ s₃ ['b'] [] [] [] 0 2 1 es hruns₁ hconnect hruns₃ htrace
    (denotes_iff.mpr hbefore) hdel
  rw [denotes_iff, hafter] at this
  cases this

end MySQLPlugin

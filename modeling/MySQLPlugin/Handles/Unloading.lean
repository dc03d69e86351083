import MySQLPlugin.Handles.Names
import MySQLPlugin.Threads.Loops

/-!
# The loop of `Unload`

Every pass erases the entry of the iterator, which moves the next one into its place, and then moves
the iterator over it. So the loop passes over every second handler, and with an odd number of
handlers it passes the end of the table too.
-/

namespace MySQLPlugin

open Threads Prog CMySQLHandler

/-- The event deletes a handler. -/
def Event.isDelete : Event → Bool
  | .delete _ => true
  | _ => false

lemma Event.Stays.not_isDelete {e : Event} (he : e.Stays) : e.isDelete = false := by
  cases e <;> first | rfl | exact he.elim

/-- The loop comes to its end, no iterator on the way is past the table, and every handler has been
deleted once. -/
def UnloadsAll (b : Build) (s : State) : Prop :=
  (∃ o s', Loop (plugin b) .main unloadLoop 0 s o s') ∧
    ∀ o s', Loop (plugin b) .main unloadLoop 0 s o s' → o = .ok () ∧
      ∀ h ∈ s.SQLHandle, (s'.trace.drop s.trace.length).count (.delete h) = 1

/-- The iterator has come to `i`: each pass has taken one entry and deleted one handler. -/
structure Unloading (s₀ : State) (i : Nat) (s : State) : Prop where
  length : s.SQLHandle.length + i = s₀.SQLHandle.length
  deleted : ∃ es, s.trace = s₀.trace ++ es ∧ es.countP Event.isDelete = i

section

variable {b : Build} {s₀ s : State} {i : Nat} {h : HandlerPtr}

/-- The destructor deletes one handler and leaves the table alone. -/
lemma wp_destruct_once {α : Type} {k : Unit → Code α} {Q : α → State → Prop}
    (hk : ∀ s' es, s'.SQLHandle = s.SQLHandle → s'.trace = s.trace ++ es →
      es.countP Event.isDelete = 1 → (k ()).wp (plugin b) .main (fun _ _ => True) Q s') :
    (destruct h >>= k).wp (plugin b) .main (fun _ _ => True) Q s := by
  have hstays : (freeResult h >>= fun _ => disconnect h).All (Stmt.Only .main Event.Stays) :=
    (freeResult_stays .main h).bind fun _ => disconnect_stays .main h
  have hbefore := wp_and (wp_table (M := plugin b) (s := s) hstays)
    (wp_events (M := plugin b) IsPlugin.step hstays s)
  rw [wp_bind] at hbefore
  simp only [destruct, bind_bind]
  rw [wp_bind]
  refine wp_mono hbefore fun _ s₁ hs₁ => ?_
  rw [wp_bind]
  refine wp_mono hs₁ fun _ s₂ hs₂ => ?_
  obtain ⟨htable, es, htrace, hes⟩ := hs₂
  refine wp_step (fun _ s₃ hst => ?_) fun _ _ _ => trivial
  have heff := step_delete hst
  refine hk s₃ (es ++ [.delete h]) (heff.table.trans htable) ?_ ?_
  · rw [heff.trace, htrace, List.append_assoc]
  · rw [List.countP_append, List.countP_eq_zero.mpr fun e he => ?_]
    · rfl
    · simp [(hes e he).not_isDelete]

/-- A pass of the loop. -/
lemma unloadLoop_step (hs : Unloading s₀ i s) :
    (unloadLoop i).wp (plugin b) .main (fun _ _ => True)
      (Sum.elim (Unloading s₀) fun _ s' => Unloading s₀ s'.SQLHandle.length s') s := by
  rw [unloadLoop]
  refine wp_size ?_
  rw [wp_ite]
  split_ifs with hi
  · subst hi
    exact hs
  · refine wp_at (fun _ => trivial) fun h hh => wp_destruct_once fun s₁ es htable htrace hes => ?_
    refine wp_step (fun _ s₂ hst => ?_) fun _ _ _ => trivial
    obtain ⟨q, heff⟩ := step_erase hst
    obtain ⟨es₀, htrace₀, hes₀⟩ := hs.deleted
    have hlt : i < s.SQLHandle.length := (List.getElem?_eq_some_iff.mp hh).1
    have hlength := hs.length
    refine ⟨?_, es₀ ++ es ++ [.erase i q], ?_, ?_⟩
    · rw [heff.table, htable]
      change (s.SQLHandle.eraseIdx i).length + (i + 1) = _
      rw [List.length_eraseIdx_of_lt hlt]
      omega
    · rw [heff.trace, htrace, htrace₀]
      simp only [List.append_assoc]
    · rw [List.countP_append, List.countP_append, hes₀, hes]
      rfl

/-- Different handlers that have all been deleted are as many deletions. -/
lemma length_le_deletes {T : List HandlerPtr} (hT : T.Nodup) {es : List Event}
    (hdeleted : ∀ h ∈ T, es.count (.delete h) = 1) : T.length ≤ es.countP Event.isDelete := by
  have hnodup : (T.map Event.delete).Nodup := hT.map fun _ _ heq => Event.delete.inj heq
  have hsub : T.map Event.delete ⊆ es.filter Event.isDelete := by
    intro e he
    obtain ⟨h, hh, rfl⟩ := List.mem_map.mp he
    refine List.mem_filter.mpr ⟨List.count_pos_iff.mp ?_, rfl⟩
    rw [hdeleted h hh]
    exact Nat.one_pos
  have hle := (List.subperm_of_subset hnodup hsub).length_le
  rwa [List.length_map, ← List.countP_eq_length_filter] at hle

end

/-- The loop of `Unload` deletes every handler, and stays inside the table, if and only if there is no
handler. -/
theorem unload_iff (b : Build) {s : State} (hT : s.SQLHandle.Nodup) :
    UnloadsAll b s ↔ s.SQLHandle = [] := by
  constructor
  · rintro ⟨⟨o, s', hloop⟩, hall⟩
    obtain ⟨rfl, hdeleted⟩ := hall o s' hloop
    have hstart : Unloading s 0 s := ⟨rfl, [], (List.append_nil _).symm, rfl⟩
    obtain ⟨hlength, es, htrace, hes⟩ :=
      (Loop.ends (fun i s' hs' => unloadLoop_step hs') hloop hstart).1 () rfl
    rw [htrace, List.drop_left] at hdeleted
    have hle := length_le_deletes hT hdeleted
    exact List.length_eq_zero_iff.mp (by omega)
  · intro hnil
    have hwp : (unloadLoop 0).wp (plugin b) .main (fun _ _ => False)
        (Sum.elim (fun _ _ => False) fun _ s' => s' = s) s := by
      refine wp_size ?_
      rw [hnil, List.length_nil, if_pos rfl]
      rfl
    have hrun : Run (plugin b) .main (unloadLoop 0) s (.ok (.inr ())) s := by
      refine .act (step_size_iff.mpr ⟨rfl, rfl⟩) ?_
      rw [hnil]
      exact .ret (Sum.inr ()) s
    refine ⟨⟨_, _, .done hrun⟩, fun o s' hloop => ?_⟩
    obtain ⟨hok, herr⟩ := Loop.ends (J := fun i s' => i = 0 ∧ s' = s)
      (fun i s' ⟨hi, hs'⟩ => hi ▸ hs' ▸ wp_mono hwp fun r s₁ h => by
        cases r with
        | inl x => exact h.elim
        | inr y => exact h) hloop ⟨rfl, rfl⟩
    cases o with
    | ok u => exact ⟨rfl, by simp [hnil]⟩
    | error e => exact (herr e rfl).elim

/-- Two handlers that are not connected. -/
def twoHandlers : State where
  SQLHandle := [0, 1]
  heap := fun _ => some
    { m_Hostname := [], m_Username := [], m_Password := [], m_Database := [], m_Port := 0 }

/-- Without handlers there is nothing to delete; of two handlers not all are deleted. -/
theorem unload_iff_twoHandlers :
    UnloadsAll .win32 (State.init []) ∧ ¬ UnloadsAll .win32 twoHandlers := by
  refine ⟨(unload_iff .win32 (s := State.init []) List.nodup_nil).mpr rfl, fun hall => ?_⟩
  have hnil := (unload_iff .win32 (s := twoHandlers) (by decide)).mp hall
  cases hnil

/-- Of two handlers the second one stays. -/
theorem unload_twoHandlers : ¬ ∀ (b : Build) (s : State), s.SQLHandle.Nodup → UnloadsAll b s := by
  intro hall
  have hrun : ((unloadLoop 0).eval (plugin .win32) .main (fun _ _ => {}) twoHandlers).bind (fun r =>
      ((unloadLoop 1).eval (plugin .win32) .main (fun _ _ => {}) r.2).map fun r' =>
        (r.1, r'.1, r'.2.trace.count (.delete 1))) = some (.inl 1, .inr (), 0) := by rfl
  obtain ⟨⟨r, s₁⟩, hfirst, hrun⟩ := Option.bind_eq_some_iff.mp hrun
  obtain ⟨⟨r', s₂⟩, hsecond, hvalues⟩ := Option.map_eq_some_iff.mp hrun
  simp only [Prod.mk.injEq] at hvalues
  obtain ⟨rfl, rfl, hcount⟩ := hvalues
  have hloop : Loop (plugin .win32) .main unloadLoop 0 twoHandlers (.ok ()) s₂ :=
    .again (run_of_eval (fun _ _ => trivial) _ hfirst)
      (.done (run_of_eval (fun _ _ => trivial) _ hsecond))
  have hdeleted := ((hall .win32 twoHandlers (by decide)).2 _ _ hloop).2 1 (by decide)
  exact absurd (hcount.symm.trans hdeleted) (by decide)

end MySQLPlugin

import Mathlib.Data.Nat.Find
import MySQLPlugin.Dispatch.Ledger

/-!
# Every job is answered

A course of the ledger is the infinite sequence of its books. A queue that is only added to at its
end, and served again and again, comes to everything that it holds; so while jobs are executed and
outcomes handed out again and again, every accepted job is answered.
-/

namespace Dispatch

/-! ### Queues that are served -/

section

variable {γ : Type} {q : ℕ → List γ} {x : γ} {n i : ℕ}

/-- What is added at the end of a queue leaves the entries in their places. -/
lemma getElem?_of_prefix {l l' : List γ} (h : l <+: l') (hi : l[i]? = some x) : l'[i]? = some x := by
  obtain ⟨k, rfl⟩ := h
  obtain ⟨hlt, -⟩ := List.getElem?_eq_some_iff.mp hi
  rw [List.getElem?_append_left hlt, hi]

/-- When the queue is served next, its entries are where they were. -/
lemma next_served (hstep : ∀ n, q n <+: q (n + 1) ∨ q (n + 1) = (q n).tail)
    (hserved : ∃ m, n ≤ m ∧ q (m + 1) = (q m).tail) (hi : (q n)[i]? = some x) :
    ∃ m, n ≤ m ∧ (q m)[i]? = some x ∧ q (m + 1) = (q m).tail := by
  classical
  obtain ⟨hn, htail⟩ := Nat.find_spec hserved
  refine ⟨Nat.find hserved, hn, ?_, htail⟩
  have hplace : ∀ k, n ≤ k → k ≤ Nat.find hserved → (q k)[i]? = some x := by
    intro k hk
    induction k, hk using Nat.le_induction with
    | base => exact fun _ => hi
    | succ k hk ih =>
      intro hle
      have hnot : q (k + 1) ≠ (q k).tail := fun h => Nat.find_min hserved hle ⟨hk, h⟩
      exact getElem?_of_prefix ((hstep k).resolve_right hnot) (ih (Nat.le_of_succ_le hle))
  exact hplace _ hn le_rfl

/-- A queue that is served again and again while it is not empty comes to each of its entries. -/
theorem comes_to_front (hstep : ∀ n, q n <+: q (n + 1) ∨ q (n + 1) = (q n).tail)
    (hserved : ∀ n, q n ≠ [] → ∃ m, n ≤ m ∧ q (m + 1) = (q m).tail) (hx : x ∈ q n) :
    ∃ m, n ≤ m ∧ (q m).head? = some x ∧ q (m + 1) = (q m).tail := by
  obtain ⟨i, hi⟩ := List.mem_iff_getElem?.mp hx
  clear hx
  induction i generalizing n with
  | zero =>
    obtain ⟨m, hm, hfront, htail⟩ := next_served hstep (hserved n (by rintro h; simp [h] at hi)) hi
    exact ⟨m, hm, by rw [List.head?_eq_getElem?, hfront], htail⟩
  | succ i ih =>
    obtain ⟨m, hm, hplace, htail⟩ := next_served hstep (hserved n (by rintro h; simp [h] at hi)) hi
    have hnext : (q (m + 1))[i]? = some x := by rw [htail, List.getElem?_tail, hplace]
    obtain ⟨k, hk, hfront⟩ := ih hnext
    exact ⟨k, by omega, hfront⟩

end

namespace Ledger

variable {J E : Type}

/-! ### The queues of the ledger -/

/-- `f` is a queue of the ledger: the operations `P` take its front away, and only the operations `C`
take away anything else. -/
structure Served {γ : Type} (P C : Op J E → Prop) (f : Ledger J E → List γ) : Prop where
  front : ∀ L o, P o → f (L.step o) = (f L).tail
  back : ∀ L o, ¬ P o → ¬ C o → f L <+: f (L.step o)

lemma served_waiting : Served (J := J) (E := E) Executes (· = .discard) waiting where
  front L o ho := by
    cases o <;> first | exact ho.elim | (cases hw : L.waiting <;> simp [step, hw])
  back L o ho hd := by
    cases o with
    | accept j => exact List.prefix_append _ _
    | discard => exact absurd rfl hd
    | succeed => exact absurd trivial ho
    | fail e => exact absurd trivial ho
    | foreign e => exact List.prefix_rfl
    | handOk => cases hdone : L.done <;> simp [step, hdone]
    | handErr => cases hfailed : L.failed <;> simp [step, hfailed]

lemma served_done : Served (J := J) (E := E) (· = .handOk) (fun _ => False) done where
  front L o ho := by
    subst ho
    cases hdone : L.done <;> simp [step, hdone]
  back L o ho _ := by
    cases o with
    | succeed => cases hw : L.waiting <;> simp [step, hw]
    | fail e => cases hw : L.waiting <;> simp [step, hw]
    | handOk => exact absurd rfl ho
    | handErr => cases hfailed : L.failed <;> simp [step, hfailed]
    | _ => exact List.prefix_rfl

lemma served_failed : Served (J := J) (E := E) (· = .handErr) (fun _ => False) failed where
  front L o ho := by
    subst ho
    cases hfailed : L.failed <;> simp [step, hfailed]
  back L o ho _ := by
    cases o with
    | succeed => cases hw : L.waiting <;> simp [step, hw]
    | fail e => cases hw : L.waiting <;> simp [step, hw]
    | foreign e => exact List.prefix_append _ _
    | handOk => cases hdone : L.done <;> simp [step, hdone]
    | handErr => exact absurd rfl ho
    | _ => exact List.prefix_rfl

/-- The job at the front succeeds or fails. -/
lemma outcome_of_executes {L : Ledger J E} {o : Op J E} {x : J × ℕ} (ho : Executes o)
    (hx : L.waiting.head? = some x) : x ∈ (L.step o).done ∨ ∃ e, (some x, e) ∈ (L.step o).failed := by
  obtain ⟨ws, hw⟩ := List.head?_eq_some_iff.mp hx
  cases o with
  | succeed => exact .inl (by simp [step, hw])
  | fail e => exact .inr ⟨e, by simp [step, hw]⟩
  | _ => exact ho.elim

/-- What stands in a queue that is served again and again comes to its front and is served. -/
lemma Served.comes {γ : Type} {P C : Op J E → Prop} {f : Ledger J E → List γ} (hf : Served P C f)
    {L : ℕ → Ledger J E} (hstep : ∀ n, L (n + 1) = L n ∨ ∃ o, ¬ C o ∧ L (n + 1) = (L n).step o)
    (hserved : ∀ n, f (L n) ≠ [] → ∃ m, n ≤ m ∧ ∃ o, P o ∧ L (m + 1) = (L m).step o) {n : ℕ} {y : γ}
    (hy : y ∈ f (L n)) :
    ∃ m, n ≤ m ∧ (f (L m)).head? = some y ∧ ∃ o, P o ∧ L (m + 1) = (L m).step o := by
  have hmoves : ∀ n, f (L n) <+: f (L (n + 1)) ∨
      f (L (n + 1)) = (f (L n)).tail ∧ ∃ o, P o ∧ L (n + 1) = (L n).step o := by
    intro n
    rcases hstep n with hsame | ⟨o, hkeeps, hstep⟩
    · exact .inl (hsame ▸ List.prefix_rfl)
    · by_cases ho : P o
      · exact .inr ⟨hstep ▸ hf.front (L n) o ho, o, ho, hstep⟩
      · exact .inl (hstep ▸ hf.back (L n) o ho hkeeps)
  have hfronts : ∀ n, f (L n) ≠ [] → ∃ m, n ≤ m ∧ f (L (m + 1)) = (f (L m)).tail := by
    intro n hne
    obtain ⟨m, hm, o, ho, hstep⟩ := hserved n hne
    exact ⟨m, hm, hstep ▸ hf.front (L m) o ho⟩
  obtain ⟨m, hm, hfront, htail⟩ := comes_to_front (fun n => (hmoves n).imp_right And.left) hfronts hy
  refine ⟨m, hm, hfront, ?_⟩
  rcases hmoves m with hprefix | ⟨-, ho⟩
  · -- the front is gone
    obtain ⟨ys, hys⟩ := List.head?_eq_some_iff.mp hfront
    have hlen := hprefix.length_le
    simp only [htail, hys, List.tail_cons, List.length_cons] at hlen
    omega
  · exact ho

/-! ### Courses -/

/-- The books of a dispatcher that hands out outcomes again and again while there are any. -/
structure Course (L : ℕ → Ledger J E) : Prop where
  step : ∀ n, L (n + 1) = L n ∨ ∃ o, L (n + 1) = (L n).step o
  handsOk : ∀ n, (L n).done ≠ [] → ∃ m, n ≤ m ∧ L (m + 1) = (L m).step .handOk
  handsErr : ∀ n, (L n).failed ≠ [] → ∃ m, n ≤ m ∧ L (m + 1) = (L m).step .handErr

namespace Course

variable {L : ℕ → Ledger J E} {n : ℕ} {x : J × ℕ}

/-- A success is handed out. -/
lemma answered_done (h : Course L) (hx : x ∈ (L n).done) : ∃ m, n ≤ m ∧ x ∈ (L m).handed := by
  obtain ⟨m, hm, hfront, o, rfl, hstep⟩ := served_done.comes
    (fun n => (h.step n).imp_right fun ⟨o, ho⟩ => ⟨o, id, ho⟩)
    (fun n hne => (h.handsOk n hne).imp fun _ hm => ⟨hm.1, _, rfl, hm.2⟩) hx
  obtain ⟨ds, hd⟩ := List.head?_eq_some_iff.mp hfront
  exact ⟨m + 1, by omega, by simp [hstep, Ledger.step, hd, handed]⟩

/-- The error of a job is handed out. -/
lemma answered_failed (h : Course L) (hx : x ∈ owners (L n).failed) :
    ∃ m, n ≤ m ∧ x ∈ (L m).handed := by
  obtain ⟨⟨y, e⟩, hmem, hy⟩ := List.mem_filterMap.mp hx
  obtain rfl : y = some x := hy
  obtain ⟨m, hm, hfront, o, rfl, hstep⟩ := served_failed.comes
    (fun n => (h.step n).imp_right fun ⟨o, ho⟩ => ⟨o, id, ho⟩)
    (fun n hne => (h.handsErr n hne).imp fun _ hm => ⟨hm.1, _, rfl, hm.2⟩) hmem
  obtain ⟨fs, hf⟩ := List.head?_eq_some_iff.mp hfront
  exact ⟨m + 1, by omega, by simp [hstep, Ledger.step, hf, handed]⟩

/-- A job that waits is executed and handed out, where nothing is discarded and jobs are executed again
and again while there are any. -/
lemma answered_waiting (h : Course L)
    (hkeeps : ∀ n, L (n + 1) = L n ∨ ∃ o, o ≠ .discard ∧ L (n + 1) = (L n).step o)
    (hexecutes : ∀ n, (L n).waiting ≠ [] → ∃ m, n ≤ m ∧ ∃ o, Executes o ∧ L (m + 1) = (L m).step o)
    (hx : x ∈ (L n).waiting) : ∃ m, n ≤ m ∧ x ∈ (L m).handed := by
  obtain ⟨m, hm, hfront, o, ho, hstep⟩ := served_waiting.comes hkeeps hexecutes hx
  obtain ⟨k, hk, hx⟩ : ∃ k, m + 1 ≤ k ∧ x ∈ (L k).handed := by
    rcases outcome_of_executes ho hfront with hdone | ⟨e, hfailed⟩
    · exact h.answered_done (hstep ▸ hdone)
    · exact h.answered_failed (hstep ▸ List.mem_filterMap.mpr ⟨_, hfailed, rfl⟩)
  exact ⟨k, by omega, hx⟩

/-- Then every job is handed out that has not been discarded before. -/
theorem answered (h : Course L)
    (hkeeps : ∀ n, L (n + 1) = L n ∨ ∃ o, o ≠ .discard ∧ L (n + 1) = (L n).step o)
    (hexecutes : ∀ n, (L n).waiting ≠ [] → ∃ m, n ≤ m ∧ ∃ o, Executes o ∧ L (m + 1) = (L m).step o)
    (hx : x ∈ (L n).places) : ∃ m, n ≤ m ∧ (x ∈ (L m).handed ∨ x ∈ (L m).discarded) := by
  simp only [places, List.mem_append] at hx
  obtain ((((hwaiting | hdone) | hok) | hdiscarded) | hfailed) | herr := hx
  · obtain ⟨m, hm, hx⟩ := h.answered_waiting hkeeps hexecutes hwaiting
    exact ⟨m, hm, .inl hx⟩
  · obtain ⟨m, hm, hx⟩ := h.answered_done hdone
    exact ⟨m, hm, .inl hx⟩
  · exact ⟨n, le_rfl, .inl (by simp [handed, hok])⟩
  · exact ⟨n, le_rfl, .inr hdiscarded⟩
  · obtain ⟨m, hm, hx⟩ := h.answered_failed hfailed
    exact ⟨m, hm, .inl hx⟩
  · exact ⟨n, le_rfl, .inl (by simp [handed, herr])⟩

end Course

end Ledger

end Dispatch

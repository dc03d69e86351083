import Mathlib.Data.List.Basic
import Mathlib.Data.List.Induction
import Mathlib.Data.List.Nodup
import Mathlib.Data.List.Perm.Basic
import Mathlib.Data.List.Pairwise
import Mathlib.Tactic.Common

/-!
# A ledger of dispatched jobs

What a dispatcher owes to its clients: jobs are accepted and wait in a queue; the job at the front
is executed and succeeds or fails; the outcomes wait in two channels, one for successes and one
for errors, until they are handed out, that is, taken from their channel. Errors that belong to no
accepted job may travel in the error channel. The ledger records where each accepted job is; a job is
identified by its number in the order of acceptance.

`Ledger.Sound` is what the books show after any sequence of operations: every accepted job is in
exactly one place, and no channel changes the order of the jobs. Across the two channels the order
may be lost; `Ledger.inTurn_iff` says when it is kept.
-/

namespace Dispatch

variable {J E : Type}

/-- The books of a dispatcher. -/
structure Ledger (J E : Type) where
  /-- Every accepted job, in the order of acceptance. -/
  accepted : List J := []
  waiting : List (J × ℕ) := []
  done : List (J × ℕ) := []
  failed : List (Option (J × ℕ) × E) := []
  handedOk : List (J × ℕ) := []
  handedErr : List (Option (J × ℕ) × E) := []
  discarded : List (J × ℕ) := []

inductive Op (J E : Type) where
  | accept (j : J)
  | discard
  | succeed
  | fail (e : E)
  /-- An error that belongs to no accepted job. -/
  | foreign (e : E)
  | handOk
  | handErr

/-- The jobs to which the errors belong. -/
def owners (l : List (Option (J × ℕ) × E)) : List (J × ℕ) := l.filterMap Prod.fst

@[simp] lemma owners_nil : owners ([] : List (Option (J × ℕ) × E)) = [] := rfl

@[simp] lemma owners_append (l l' : List (Option (J × ℕ) × E)) :
    owners (l ++ l') = owners l ++ owners l' := List.filterMap_append

@[simp] lemma owners_cons_none (e : E) (l : List (Option (J × ℕ) × E)) :
    owners ((none, e) :: l) = owners l := rfl

@[simp] lemma owners_cons_some (x : J × ℕ) (e : E) (l : List (Option (J × ℕ) × E)) :
    owners ((some x, e) :: l) = x :: owners l := rfl

namespace Ledger

/-- The operations move a job from one place to the next; on an empty place they do nothing. -/
def step (L : Ledger J E) : Op J E → Ledger J E
  | .accept j =>
    { L with accepted := L.accepted ++ [j], waiting := L.waiting ++ [(j, L.accepted.length)] }
  | .discard => { L with discarded := L.discarded ++ L.waiting, waiting := [] }
  | .succeed =>
    match L.waiting with
    | [] => L
    | w :: ws => { L with waiting := ws, done := L.done ++ [w] }
  | .fail e =>
    match L.waiting with
    | [] => L
    | w :: ws => { L with waiting := ws, failed := L.failed ++ [(some w, e)] }
  | .foreign e => { L with failed := L.failed ++ [(none, e)] }
  | .handOk =>
    match L.done with
    | [] => L
    | d :: ds => { L with done := ds, handedOk := L.handedOk ++ [d] }
  | .handErr =>
    match L.failed with
    | [] => L
    | f :: fs => { L with failed := fs, handedErr := L.handedErr ++ [f] }

/-- The books after a sequence of operations. -/
def run (ops : List (Op J E)) : Ledger J E := ops.foldl step {}

@[simp] lemma run_nil : run ([] : List (Op J E)) = {} := rfl

lemma run_append (ops ops' : List (Op J E)) : run (ops ++ ops') = ops'.foldl step (run ops) := by
  simp [run, List.foldl_append]

@[simp] lemma run_concat (ops : List (Op J E)) (o : Op J E) :
    run (ops ++ [o]) = (run ops).step o := by
  simp [run_append]

/-- The places of the accepted jobs, one after the other. -/
def places (L : Ledger J E) : List (J × ℕ) :=
  L.waiting ++ L.done ++ L.handedOk ++ L.discarded ++ owners L.failed ++ owners L.handedErr

/-- The jobs that have been executed and not been discarded. -/
def executed (L : Ledger J E) : List (J × ℕ) :=
  L.handedOk ++ L.done ++ owners (L.handedErr ++ L.failed)

/-- The jobs are in order of acceptance. -/
def InOrder (l : List (J × ℕ)) : Prop := l.Pairwise fun x y => x.2 < y.2

lemma InOrder.sublist {l l' : List (J × ℕ)} (h : InOrder l') (hs : l.Sublist l') : InOrder l :=
  List.Pairwise.sublist hs h

/-- A job that comes after all others may be appended. -/
lemma InOrder.concat {l : List (J × ℕ)} {x : J × ℕ} (h : InOrder l) (hx : ∀ y ∈ l, y.2 < x.2) :
    InOrder (l ++ [x]) := by
  rw [InOrder, List.pairwise_append]
  refine ⟨h, List.pairwise_singleton _ _, fun y hy z hz => ?_⟩
  rw [List.mem_singleton.mp hz]
  exact hx y hy

structure Sound (L : Ledger J E) : Prop where
  /-- Every accepted job is in exactly one place, and nothing else is in any place. -/
  once : L.places.Perm L.accepted.zipIdx
  waiting : InOrder L.waiting
  /-- Successes, in the order in which they are handed out. -/
  ok : InOrder (L.handedOk ++ L.done)
  /-- Errors of accepted jobs, in the order in which they are handed out. -/
  err : InOrder (owners (L.handedErr ++ L.failed))
  /-- A job that waits was accepted after every job already executed. -/
  later : ∀ x ∈ L.executed, ∀ w ∈ L.waiting, x.2 < w.2

lemma Sound.lt_length {L : Ledger J E} (h : L.Sound) {x : J × ℕ} (hx : x ∈ L.places) :
    x.2 < L.accepted.length := by
  have hmem := h.once.mem_iff.mp hx
  have := List.mem_zipIdx hmem
  omega

lemma sound_empty : ({} : Ledger J E).Sound where
  once := .refl _
  waiting := List.Pairwise.nil
  ok := List.Pairwise.nil
  err := List.Pairwise.nil
  later := by simp [executed]

lemma executed_subset_places (L : Ledger J E) {x : J × ℕ} (hx : x ∈ L.executed) :
    x ∈ L.places := by
  simp only [executed, owners_append, List.mem_append] at hx
  simp only [places, List.mem_append]
  tauto

lemma Sound.accept {L : Ledger J E} (h : L.Sound) (j : J) : (L.step (.accept j)).Sound where
  once := by
    have hzip : (L.accepted ++ [j]).zipIdx = L.accepted.zipIdx ++ [(j, L.accepted.length)] := by
      simp [List.zipIdx_append]
    simp only [step, places, hzip, List.append_assoc]
    have hcomm := (h.once.append_right [(j, L.accepted.length)])
    refine .trans ?_ hcomm
    simp only [places, List.append_assoc]
    refine .append_left L.waiting ?_
    have hswap : ([(j, L.accepted.length)] ++
        (L.done ++ L.handedOk ++ L.discarded ++ owners L.failed ++ owners L.handedErr)).Perm
        ((L.done ++ L.handedOk ++ L.discarded ++ owners L.failed ++ owners L.handedErr) ++
          [(j, L.accepted.length)]) := List.perm_append_comm
    simpa only [List.append_assoc] using hswap
  waiting := h.waiting.concat fun y hy => h.lt_length (by simp [places, hy])
  ok := h.ok
  err := h.err
  later x hx w hw := by
    simp only [step, List.mem_append, List.mem_singleton] at hw
    rcases hw with hw | rfl
    · exact h.later x hx w hw
    · exact h.lt_length (executed_subset_places L hx)

lemma Sound.discard {L : Ledger J E} (h : L.Sound) : (L.step .discard).Sound where
  once := by
    refine .trans ?_ h.once
    simp only [step, places, List.nil_append, List.append_assoc]
    have hswap : ((L.done ++ L.handedOk ++ L.discarded) ++ L.waiting).Perm
        (L.waiting ++ (L.done ++ L.handedOk ++ L.discarded)) := List.perm_append_comm
    simpa only [List.append_assoc] using hswap.append_right (owners L.failed ++ owners L.handedErr)
  waiting := List.Pairwise.nil
  ok := h.ok
  err := h.err
  later x _ w hw := by simp [step] at hw

lemma Sound.succeed {L : Ledger J E} (h : L.Sound) : (L.step .succeed).Sound := by
  cases hw : L.waiting with
  | nil => simpa [step, hw] using h
  | cons w ws =>
    have hlast : ∀ x ∈ L.executed, x.2 < w.2 := fun x hx => h.later x hx w (by simp [hw])
    have hwait : ∀ y ∈ ws, w.2 < y.2 := by
      have := h.waiting
      rw [hw] at this
      exact (List.pairwise_cons.mp this).1
    simp only [step, hw]
    constructor
    · refine .trans ?_ h.once
      simp only [places, hw, List.append_assoc, List.cons_append, List.nil_append]
      have hmiddle (rest : List (J × Nat)) : ((ws ++ L.done) ++ w :: rest).Perm
          (w :: ((ws ++ L.done) ++ rest)) := List.perm_middle
      simpa only [List.append_assoc, List.singleton_append] using hmiddle _
    · exact h.waiting.sublist (by simp [hw])
    · rw [← List.append_assoc]
      exact h.ok.concat fun y hy => hlast y (by simp only [executed, List.mem_append] at hy ⊢; tauto)
    · exact h.err
    · intro x hx y hy
      simp only [executed, List.mem_append, List.mem_singleton] at hx
      have hxw : x ∈ L.executed ∨ x = w := by
        simp only [executed, List.mem_append]
        tauto
      rcases hxw with hx' | rfl
      · exact Nat.lt_trans (hlast x hx') (hwait y hy)
      · exact hwait y hy

lemma Sound.fail {L : Ledger J E} (h : L.Sound) (e : E) : (L.step (.fail e)).Sound := by
  cases hw : L.waiting with
  | nil => simpa [step, hw] using h
  | cons w ws =>
    have hlast : ∀ x ∈ L.executed, x.2 < w.2 := fun x hx => h.later x hx w (by simp [hw])
    have hwait : ∀ y ∈ ws, w.2 < y.2 := by
      have := h.waiting
      rw [hw] at this
      exact (List.pairwise_cons.mp this).1
    simp only [step, hw]
    constructor
    · refine .trans ?_ h.once
      simp only [places, hw, List.append_assoc, List.cons_append, owners_append, owners_cons_some,
        owners_nil, List.nil_append]
      have hmiddle : ((ws ++ (L.done ++ (L.handedOk ++ (L.discarded ++ owners L.failed)))) ++
          w :: owners L.handedErr).Perm
          (w :: ((ws ++ (L.done ++ (L.handedOk ++ (L.discarded ++ owners L.failed)))) ++
            owners L.handedErr)) := List.perm_middle
      simpa only [List.append_assoc, List.singleton_append] using hmiddle
    · exact h.waiting.sublist (by simp [hw])
    · exact h.ok
    · rw [← List.append_assoc, owners_append]
      exact h.err.concat fun y hy => hlast y (by simp only [executed, List.mem_append] at hy ⊢; tauto)
    · intro x hx y hy
      simp only [executed, owners_append, owners_cons_some, owners_nil, List.mem_append,
        List.mem_singleton] at hx
      have hxw : x ∈ L.executed ∨ x = w := by
        simp only [executed, owners_append, List.mem_append]
        tauto
      rcases hxw with hx' | rfl
      · exact Nat.lt_trans (hlast x hx') (hwait y hy)
      · exact hwait y hy

lemma Sound.foreign {L : Ledger J E} (h : L.Sound) (e : E) : (L.step (.foreign e)).Sound where
  once := by simpa [step, places] using h.once
  waiting := h.waiting
  ok := h.ok
  err := by simpa [step] using h.err
  later := by simpa [step, executed] using h.later

lemma Sound.handOk {L : Ledger J E} (h : L.Sound) : (L.step .handOk).Sound := by
  cases hd : L.done with
  | nil => simpa [step, hd] using h
  | cons d ds =>
    simp only [step, hd]
    constructor
    · refine .trans ?_ h.once
      simp only [places, hd, List.append_assoc, List.cons_append, List.nil_append]
      refine .append_left L.waiting ?_
      have hmiddle (rest : List (J × Nat)) : ((ds ++ L.handedOk) ++ d :: rest).Perm
          (d :: ((ds ++ L.handedOk) ++ rest)) := List.perm_middle
      simpa only [List.append_assoc, List.singleton_append] using hmiddle _
    · exact h.waiting
    · simpa [hd] using h.ok
    · exact h.err
    · simpa [executed, hd, or_assoc] using h.later

lemma Sound.handErr {L : Ledger J E} (h : L.Sound) : (L.step .handErr).Sound := by
  cases hf : L.failed with
  | nil => simpa [step, hf] using h
  | cons f fs =>
    have hcons : owners (f :: fs) = owners [f] ++ owners fs := by
      simpa using owners_append [f] fs
    simp only [step, hf]
    constructor
    · refine .trans ?_ h.once
      simp only [places, hf, hcons, owners_append, List.append_assoc]
      refine .append_left _ (.append_left _ (.append_left _ (.append_left _ ?_)))
      have hswap : ((owners fs ++ owners L.handedErr) ++ owners [f]).Perm
          (owners [f] ++ (owners fs ++ owners L.handedErr)) := List.perm_append_comm
      simpa only [List.append_assoc] using hswap
    · exact h.waiting
    · exact h.ok
    · simpa [hf] using h.err
    · simpa [executed, hf] using h.later

/-- No operation spoils the books. -/
theorem Sound.step {L : Ledger J E} (h : L.Sound) (o : Op J E) : (L.step o).Sound := by
  cases o with
  | accept j => exact h.accept j
  | discard => exact h.discard
  | succeed => exact h.succeed
  | fail e => exact h.fail e
  | foreign e => exact h.foreign e
  | handOk => exact h.handOk
  | handErr => exact h.handErr

/-- The books are sound after every sequence of operations. -/
theorem sound_run (ops : List (Op J E)) : (run ops).Sound := by
  induction ops using List.reverseRecOn with
  | nil => exact sound_empty
  | append_singleton ops o ih =>
    rw [run_concat]
    exact ih.step o

/-! ### Executed jobs -/

/-- The operation executes the job at the front. -/
def Executes : Op J E → Prop
  | .succeed | .fail _ => True
  | _ => False

/-- An operation executes the job at the front, or none. -/
lemma mem_executed_step {L : Ledger J E} {o : Op J E} {x : J × ℕ} :
    x ∈ (L.step o).executed ↔ x ∈ L.executed ∨ Executes o ∧ L.waiting.head? = some x := by
  cases o with
  | succeed =>
    cases hw : L.waiting with
    | nil => simp [step, hw]
    | cons w ws =>
      simp only [step, hw, executed, List.mem_append, List.mem_singleton, Executes, true_and,
        List.head?_cons, Option.some.injEq, eq_comm (a := w)]
      tauto
  | fail e =>
    cases hw : L.waiting with
    | nil => simp [step, hw]
    | cons w ws =>
      simp only [step, hw, executed, owners_append, owners_cons_some, owners_nil, List.mem_append,
        List.mem_singleton, Executes, true_and, List.head?_cons, Option.some.injEq, eq_comm (a := w)]
      tauto
  | handOk => cases hd : L.done <;> simp [step, hd, executed, Executes]
  | handErr =>
    cases hf : L.failed with
    | nil => simp [step, hf, Executes]
    | cons f fs => simp [step, hf, executed, Executes]
  | _ => simp [step, executed, Executes]

/-- The job at the front stays there until it is executed or discarded. -/
lemma head?_step {L : Ledger J E} {o : Op J E} {x : J × ℕ} (ho : ¬ Executes o) (hd : o ≠ .discard)
    (hx : L.waiting.head? = some x) : (L.step o).waiting.head? = some x := by
  cases o with
  | accept j => simp [step, hx]
  | discard => exact absurd rfl hd
  | succeed => exact absurd trivial ho
  | fail e => exact absurd trivial ho
  | foreign e => exact hx
  | handOk => cases hdone : L.done <;> simpa [step, hdone] using hx
  | handErr => cases hfail : L.failed <;> simpa [step, hfail] using hx

/-! ### Order across the two channels -/

/-- The jobs whose outcome has been handed out. -/
def handed (L : Ledger J E) : List (J × ℕ) := L.handedOk ++ owners L.handedErr

/-- No outcome has been handed out before the outcome of a job accepted earlier. -/
def InTurn (L : Ledger J E) : Prop :=
  ∀ x ∈ L.handed, ∀ y ∈ L.accepted.zipIdx, y.2 < x.2 → y ∈ L.handed ∨ y ∈ L.discarded

instance [DecidableEq J] (L : Ledger J E) : Decidable L.InTurn :=
  inferInstanceAs <| Decidable <|
    ∀ x ∈ L.handed, ∀ y ∈ L.accepted.zipIdx, y.2 < x.2 → y ∈ L.handed ∨ y ∈ L.discarded

/-- Every waiting error belongs to an earlier job than every waiting success. -/
def ErrorsFirst (L : Ledger J E) : Prop := ∀ f ∈ owners L.failed, ∀ d ∈ L.done, f.2 < d.2

/-- Errors stay first when jobs fail only while no success waits. -/
lemma ErrorsFirst.step {L : Ledger J E} (h : L.ErrorsFirst) (hS : L.Sound) (o : Op J E)
    (ho : ∀ e, o = .fail e → L.done = []) : (L.step o).ErrorsFirst := by
  intro f hf d hd
  cases o with
  | accept j => exact h f hf d hd
  | discard => exact h f hf d hd
  | succeed =>
    cases hw : L.waiting with
    | nil =>
      simp only [Ledger.step, hw] at hf hd
      exact h f hf d hd
    | cons w ws =>
      simp only [Ledger.step, hw, List.mem_append, List.mem_singleton] at hf hd
      rcases hd with hd | rfl
      · exact h f hf d hd
      · exact hS.later f (by simp [executed, hf]) d (by simp [hw])
  | fail e =>
    cases hw : L.waiting with
    | nil =>
      simp only [Ledger.step, hw] at hf hd
      exact h f hf d hd
    | cons w ws => simp [Ledger.step, hw, ho e rfl] at hd
  | foreign e =>
    have hf' : f ∈ owners L.failed := by simpa [Ledger.step] using hf
    exact h f hf' d hd
  | handOk =>
    cases hdone : L.done with
    | nil =>
      simp only [Ledger.step, hdone] at hf hd
      simp at hd
    | cons d' ds =>
      simp only [Ledger.step, hdone] at hf hd
      exact h f hf d (by simp [hdone, hd])
  | handErr =>
    cases hfail : L.failed with
    | nil =>
      simp only [Ledger.step, hfail] at hf hd
      simp at hf
    | cons f' fs =>
      simp only [Ledger.step, hfail] at hf hd
      refine h f ?_ d hd
      rw [hfail, ← List.singleton_append, owners_append]
      exact List.mem_append_right _ hf

/-- A job is in one place only. -/
lemma Sound.nodup {L : Ledger J E} (h : L.Sound) : L.places.Nodup := by
  rw [h.once.nodup_iff]
  refine List.Nodup.of_map Prod.snd ?_
  rw [List.zipIdx_map_snd]
  exact List.nodup_range'

/-- An accepted job that is neither handed out nor discarded is still on its way. -/
lemma Sound.place {L : Ledger J E} (h : L.Sound) {y : J × ℕ} (hy : y ∈ L.accepted.zipIdx) :
    (y ∈ L.handed ∨ y ∈ L.discarded) ∨ y ∈ L.waiting ∨ y ∈ L.done ∨ y ∈ owners L.failed := by
  have hmem := h.once.mem_iff.mpr hy
  simp only [places, List.mem_append] at hmem
  simp only [handed, List.mem_append]
  tauto

/-- The turn is kept by every operation other than handing out a success. -/
lemma InTurn.step {L : Ledger J E} (h : L.InTurn) (hS : L.Sound) (hE : L.ErrorsFirst) (o : Op J E)
    (ho : o ≠ .handOk) : (L.step o).InTurn := by
  intro x hx y hy hlt
  cases o with
  | accept j =>
    have hzip : (L.accepted ++ [j]).zipIdx = L.accepted.zipIdx ++ [(j, L.accepted.length)] := by
      simp [List.zipIdx_append]
    simp only [Ledger.step, hzip, List.mem_append, List.mem_singleton] at hy
    rcases hy with hy | rfl
    · exact h x hx y hy hlt
    · have : x.2 < L.accepted.length := hS.lt_length (by
        simp only [Ledger.step, handed, List.mem_append] at hx
        simp only [places, List.mem_append]
        tauto)
      exact absurd hlt (by simp only; omega)
  | discard =>
    rcases h x hx y hy hlt with hy' | hy'
    · exact .inl hy'
    · exact .inr (by simp [Ledger.step, hy'])
  | succeed =>
    cases hw : L.waiting <;> simp only [Ledger.step, hw] at hx hy ⊢ <;> exact h x hx y hy hlt
  | fail e =>
    cases hw : L.waiting <;> simp only [Ledger.step, hw] at hx hy ⊢ <;> exact h x hx y hy hlt
  | foreign e => exact h x hx y hy hlt
  | handOk => exact absurd rfl ho
  | handErr =>
    cases hfail : L.failed with
    | nil =>
      simp only [Ledger.step, hfail] at hx hy ⊢
      exact h x hx y hy hlt
    | cons f fs =>
      have hcons : owners (f :: fs) = owners [f] ++ owners fs := by
        simpa using owners_append [f] fs
      simp only [Ledger.step, hfail, handed, owners_append, List.mem_append] at hx hy ⊢
      have hold : x ∈ L.handed → (y ∈ L.handedOk ∨ y ∈ owners L.handedErr ∨ y ∈ owners [f]) ∨
          y ∈ L.discarded := by
        intro hx'
        have := h x hx' y hy hlt
        simp only [handed, List.mem_append] at this
        tauto
      rcases hx with hx | hx | hx
      · exact hold (by simp [handed, hx])
      · exact hold (by simp [handed, hx])
      · -- the job handed out is the first that waits with an error
        have herr := hS.err
        rw [hfail, owners_append, hcons] at herr
        have hxf : x ∈ owners L.failed := by
          rw [hfail, hcons]
          exact List.mem_append_left _ hx
        rcases hS.place hy with hp | hp | hp | hp
        · simp only [handed, List.mem_append] at hp
          tauto
        · have := hS.later x (by simp [executed, hxf]) y hp
          omega
        · have := hE x hxf y hp
          omega
        · rw [hfail, hcons, List.mem_append] at hp
          rcases hp with hp | hp
          · exact .inl (.inr (.inr hp))
          · have hord := (List.pairwise_append.mp herr).2.1
            have := (List.pairwise_append.mp hord).2.2 x hx y hp
            omega

/-- Handing out a success keeps the turn if and only if no error is left to hand out. -/
lemma InTurn.handOk_iff {L : Ledger J E} (h : L.InTurn) (hS : L.Sound) (hE : L.ErrorsFirst)
    (hd : L.done ≠ []) : (L.step .handOk).InTurn ↔ owners L.failed = [] := by
  obtain ⟨d, ds, hdone⟩ := List.exists_cons_of_ne_nil hd
  constructor
  · intro hturn
    rw [List.eq_nil_iff_forall_not_mem]
    intro f hf
    have hfd : f.2 < d.2 := hE f hf d (by simp [hdone])
    have hfp : f ∈ L.places := by simp [places, hf]
    -- the job `f` waits with its error, so it is in no other place
    have hnodup := hS.nodup
    have := hturn d (by simp [Ledger.step, hdone, handed]) f
      (by simpa [Ledger.step, hdone] using hS.once.mem_iff.mp hfp) hfd
    simp only [Ledger.step, hdone, handed, List.mem_append, List.mem_singleton] at this
    simp only [places, List.nodup_append, List.mem_append] at hnodup
    rcases this with ((hm | rfl) | hm) | hm
    · exact hnodup.1.2.2 f (by tauto) f hf rfl
    · exact Nat.lt_irrefl _ hfd
    · exact hnodup.2.2 f (by tauto) f hm rfl
    · exact hnodup.1.2.2 f (by tauto) f hf rfl
  · intro hnil x hx y hy hlt
    simp only [Ledger.step, hdone, handed, List.mem_append, List.mem_singleton] at hx hy ⊢
    have hold : x ∈ L.handed → ((y ∈ L.handedOk ∨ y = d) ∨ y ∈ owners L.handedErr) ∨
        y ∈ L.discarded := by
      intro hx'
      have := h x hx' y hy hlt
      simp only [handed, List.mem_append] at this
      tauto
    rcases hx with (hx | rfl) | hx
    · exact hold (by simp [handed, hx])
    · rcases hS.place hy with hp | hp | hp | hp
      · simp only [handed, List.mem_append] at hp
        tauto
      · have := hS.later x (by simp [executed, hdone]) y hp
        omega
      · have hok := hS.ok
        rw [hdone] at hok hp
        rcases List.mem_cons.mp hp with rfl | hp
        · exact absurd hlt (Nat.lt_irrefl _)
        · have hord := (List.pairwise_append.mp hok).2.1
          have := (List.pairwise_cons.mp hord).1 y hp
          omega
      · simp [hnil] at hp
    · exact hold (by simp [handed, hx])

/-- Jobs fail only while no success waits. -/
def FailsAlone (ops : List (Op J E)) : Prop :=
  ∀ ops' e, ops' ++ [.fail e] <+: ops → (run ops').done = []

lemma FailsAlone.of_prefix {ops ops' : List (Op J E)} (h : FailsAlone ops) (hp : ops' <+: ops) :
    FailsAlone ops' := fun l e hl => h l e (hl.trans hp)

lemma FailsAlone.concat {ops : List (Op J E)} (h : FailsAlone ops) (o : Op J E)
    (ho : ∀ e, o = .fail e → (run ops).done = []) : FailsAlone (ops ++ [o]) := by
  intro l e hl
  rcases List.prefix_concat_iff.mp hl with heq | hp
  · obtain ⟨rfl, hoe⟩ := List.append_inj' heq rfl
    exact ho e (by simpa using hoe.symm)
  · exact h l e hp

lemma FailsAlone.errorsFirst {ops : List (Op J E)} (h : FailsAlone ops) :
    (run ops).ErrorsFirst := by
  induction ops using List.reverseRecOn with
  | nil => simp [ErrorsFirst]
  | append_singleton ops o ih =>
    rw [run_concat]
    refine (ih (h.of_prefix (List.prefix_append _ _))).step (sound_run ops) o fun e ho => ?_
    exact h ops e (ho ▸ List.prefix_rfl)

/-- When jobs fail only while no success waits, all outcomes are handed out in turn if and only if
a success is handed out only when no error is left to hand out. -/
theorem inTurn_iff {ops : List (Op J E)} (hfail : FailsAlone ops) :
    (∀ ops', ops' <+: ops → (run ops').InTurn) ↔
      ∀ ops', ops' ++ [.handOk] <+: ops → (run ops').done ≠ [] → owners (run ops').failed = [] := by
  induction ops using List.reverseRecOn with
  | nil => simp [InTurn, handed]
  | append_singleton ops o ih =>
    have hpre : ∀ {l}, l <+: ops → l <+: ops ++ [o] := fun h => h.trans (List.prefix_append _ _)
    have hfail' : FailsAlone ops := hfail.of_prefix (List.prefix_append _ _)
    have hS : (run ops).Sound := sound_run ops
    have hE : (run ops).ErrorsFirst := hfail'.errorsFirst
    constructor
    · intro h ops' hp hd
      rcases List.prefix_concat_iff.mp hp with heq | hp
      · obtain ⟨rfl, ho⟩ := List.append_inj' heq rfl
        have hturn := h (ops' ++ [o]) List.prefix_rfl
        rw [← ho, run_concat] at hturn
        exact (InTurn.handOk_iff (h ops' (hpre List.prefix_rfl)) hS hE hd).mp hturn
      · exact (ih hfail').mp (fun l hl => h l (hpre hl)) ops' hp hd
    · intro h ops' hp
      have hops := (ih hfail').mpr fun l hl => h l (hpre hl)
      rcases List.prefix_concat_iff.mp hp with rfl | hp
      · have hturn := hops ops List.prefix_rfl
        rw [run_concat]
        by_cases ho : o = .handOk
        · subst ho
          by_cases hd : (run ops).done = []
          · simpa [step, hd] using hturn
          · exact (hturn.handOk_iff hS hE hd).mpr (h ops List.prefix_rfl hd)
        · exact hturn.step hS hE o ho
      · exact hops ops' hp

end Ledger

end Dispatch

import Mathlib.Data.List.Induction
import Mathlib.Tactic.Common

/-!
# A one-place handoff

A producer and a consumer share one place and a flag. In a visit the producer takes the flag for an
attempt; if it loses the attempt it resets the flag, if it wins it puts the outcome into the place
and leaves the flag set. In a round the consumer gets the outcome out of the place and releases the
flag. `Phase.step` says in which phase of the protocol an operation is allowed; neither side waits
for the other.
-/

namespace Dispatch

namespace Handoff

/-- Where the outcome of an attempt is. -/
inductive Stage where
  | idle
  | busy
  | won
  | ready
  | popped
  deriving DecidableEq

/-- The operations of the two sides. A `touch` is a use of the resource that only an attempt may
make; `misuse` is an operation of the wrong side. -/
inductive Op where
  | visit
  | touch
  | take
  | win
  | lose
  | put
  | visitEnd
  | round
  | get
  | release
  | roundEnd
  | misuse
  deriving DecidableEq

/-- The stage, and whether the producer is inside a visit and the consumer inside a round. -/
structure Phase where
  stage : Stage := .idle
  visiting : Bool := false
  consuming : Bool := false
  deriving DecidableEq

namespace Phase

/-- The operations that the protocol allows in a phase. -/
def allows (p : Phase) : Op → Bool
  | .visit => p.stage == .idle
  | .touch => p.visiting && (p.stage == .idle || p.stage == .busy)
  | .take => p.visiting && p.stage == .idle
  | .win => p.stage == .busy
  | .lose => p.stage == .busy
  | .put => p.stage == .won
  | .visitEnd => p.stage != .busy && p.stage != .won
  | .round => true
  | .get => p.consuming && p.stage == .ready
  | .release => p.stage == .popped
  | .roundEnd => p.stage != .popped
  | .misuse => false

def after (p : Phase) : Op → Phase
  | .visit => { p with visiting := true }
  | .take => { p with stage := .busy }
  | .win => { p with stage := .won }
  | .lose => { p with stage := .idle }
  | .put => { p with stage := .ready }
  | .visitEnd => { p with visiting := false }
  | .round => { p with consuming := true }
  | .get => { p with stage := .popped }
  | .release => { p with stage := .idle }
  | .roundEnd => { p with consuming := false }
  | .touch | .misuse => p

/-- The phase after an operation; `none` when the operation is not allowed. -/
def step (p : Phase) (o : Op) : Option Phase := if p.allows o then some (p.after o) else none

lemma step_eq_some {p p' : Phase} {o : Op} :
    p.step o = some p' ↔ p.allows o = true ∧ p.after o = p' := by
  rw [step]
  split_ifs with h <;> simp [h]

/-- A visit lasts from its beginning to its end. -/
lemma visiting_after {p : Phase} {o : Op} (h : (p.after o).visiting = true) :
    o = .visit ∨ p.visiting = true ∧ o ≠ .visitEnd := by
  cases o <;> simp_all [after]

/-- A round lasts from its beginning to its end. -/
lemma consuming_after {p : Phase} {o : Op} (h : (p.after o).consuming = true) :
    o = .round ∨ p.consuming = true ∧ o ≠ .roundEnd := by
  cases o <;> simp_all [after]

/-- The phase after a sequence of operations. -/
def run (ops : List Op) : Option Phase := ops.foldlM step {}

@[simp] lemma run_nil : run [] = some {} := rfl

lemma run_append (ops ops' : List Op) :
    run (ops ++ ops') = (run ops).bind fun p => ops'.foldlM step p := by
  rw [run, List.foldlM_append]
  rfl

lemma run_concat (ops : List Op) (o : Op) : run (ops ++ [o]) = (run ops).bind (·.step o) := by
  rw [run_append]
  simp only [List.foldlM_cons, List.foldlM_nil, bind_pure]

/-- An attempt belongs to a visit, and an outcome is taken out of the place in a round. -/
structure Sound (p : Phase) : Prop where
  attempt : p.stage = .busy ∨ p.stage = .won → p.visiting = true
  taken : p.stage = .popped → p.consuming = true

lemma Sound.step {p p' : Phase} {o : Op} (hp : p.Sound) (h : p.step o = some p') : p'.Sound := by
  obtain ⟨hallows, rfl⟩ := step_eq_some.mp h
  obtain ⟨hattempt, htaken⟩ := hp
  cases o <;> simp only [allows] at hallows <;> constructor <;> simp_all [after]

theorem sound_run {ops : List Op} {p : Phase} (h : run ops = some p) : p.Sound := by
  induction ops using List.reverseRecOn generalizing p with
  | nil =>
    cases h
    exact ⟨by simp, by simp⟩
  | append_singleton ops o ih =>
    rw [run_concat] at h
    obtain ⟨q, hq, hstep⟩ := Option.bind_eq_some_iff.mp h
    exact (ih hq).step hstep

/-- The attempt has been won and its outcome is not yet released. -/
def Held (p : Phase) : Prop := p.stage = .won ∨ p.stage = .ready ∨ p.stage = .popped

/-- The producer does not touch the resource while an outcome is held. -/
lemma not_held_of_touch {p p' : Phase} (h : p.step .touch = some p') : ¬p.Held := by
  have hallows := (step_eq_some.mp h).1
  simp only [allows, Bool.and_eq_true, Bool.or_eq_true, beq_iff_eq] at hallows
  rcases hallows.2 with hs | hs <;> simp [Held, hs]

/-- Before its release an outcome is held, and only `get` and `release` bring that nearer. -/
lemma stage_of_step {p p' : Phase} {o : Op} (h : p.step o = some p') :
    (p.stage = .won ∨ p.stage = .ready → o ≠ .get → p'.stage = .won ∨ p'.stage = .ready) ∧
      (o = .get → p'.stage = .popped) ∧
      (p.stage = .popped → o ≠ .release → p'.stage = .popped) := by
  obtain ⟨hallows, rfl⟩ := step_eq_some.mp h
  cases o <;> simp_all [allows, after]

/-- From a win on, the outcome is held until it has been got and released. -/
lemma held_of_foldlM {ops : List Op} {p q : Phase} (h : ops.foldlM step p = some q)
    (hp : (p.stage = .won ∨ p.stage = .ready) ∧ ¬[Op.get, Op.release].Sublist ops ∨
      p.stage = .popped ∧ .release ∉ ops) : q.Held := by
  induction ops generalizing p with
  | nil =>
    cases h
    rcases hp with ⟨hs, -⟩ | ⟨hs, -⟩
    · exact hs.imp_right .inl
    · exact .inr (.inr hs)
  | cons o ops ih =>
    rw [List.foldlM_cons] at h
    obtain ⟨p', hstep, hrest⟩ := Option.bind_eq_some_iff.mp h
    obtain ⟨hhold, hget, hpopped⟩ := stage_of_step hstep
    refine ih hrest ?_
    rcases hp with ⟨hs, hsub⟩ | ⟨hs, hrel⟩
    · by_cases ho : o = .get
      · refine .inr ⟨hget ho, fun hmem => hsub ?_⟩
        rw [ho]
        exact (List.singleton_sublist.mpr hmem).cons_cons _
      · exact .inl ⟨hhold hs ho, fun hsub' => hsub (hsub'.cons _)⟩
    · refine .inr ⟨hpopped hs ?_, fun hmem => hrel (List.mem_cons_of_mem _ hmem)⟩
      rintro rfl
      exact hrel List.mem_cons_self

theorem held_since_win {ops ops' : List Op} {p : Phase} (h : run (ops ++ .win :: ops') = some p)
    (hops' : ¬[Op.get, Op.release].Sublist ops') : p.Held := by
  rw [run_append] at h
  obtain ⟨q, -, hfold⟩ := Option.bind_eq_some_iff.mp h
  rw [List.foldlM_cons] at hfold
  obtain ⟨q', hwin, hrest⟩ := Option.bind_eq_some_iff.mp hfold
  obtain ⟨-, rfl⟩ := step_eq_some.mp hwin
  exact held_of_foldlM hrest (.inl ⟨.inl rfl, hops'⟩)

end Phase

/-! ### The two sides -/

/-- The operations of the producer. -/
def Op.OfProducer : Op → Prop
  | .visit | .touch | .take | .win | .lose | .put | .visitEnd | .misuse => True
  | _ => False

/-- The operations of the consumer. -/
def Op.OfConsumer : Op → Prop
  | .round | .get | .release | .roundEnd | .misuse => True
  | _ => False

/-- The other side keeps `P`, whatever it is allowed to do. -/
def KeptBy (ops : Op → Prop) (P : Phase → Prop) : Prop :=
  ∀ o p p', ops o → P p → p.step o = some p' → P p'

/-- Once an outcome is in the place, or out of it, the next move is the consumer's. -/
lemma keptBy_producer {st : Stage} (hst : st = .ready ∨ st = .popped) :
    KeptBy Op.OfProducer fun p => p.consuming = true ∧ p.stage = st := by
  rintro o p p' ho ⟨hc, rfl⟩ hstep
  obtain ⟨hallows, rfl⟩ := Phase.step_eq_some.mp hstep
  rcases hst with hst | hst <;> cases o <;> first | exact ho.elim | simp_all [Phase.allows, Phase.after]

/-- The producer takes nothing out of the place. -/
lemma keptBy_producer_ne {b : Bool} :
    KeptBy Op.OfProducer fun p => p.consuming = b ∧ p.stage ≠ .popped := by
  rintro o p p' ho ⟨hc, hp⟩ hstep
  obtain ⟨hallows, rfl⟩ := Phase.step_eq_some.mp hstep
  cases o <;> first | exact ho.elim | simp_all [Phase.after]

/-- During an attempt the next move is the producer's. -/
lemma keptBy_consumer {st : Stage} (hst : st = .idle ∨ st = .busy ∨ st = .won) :
    KeptBy Op.OfConsumer fun p => p.visiting = true ∧ p.stage = st := by
  rintro o p p' ho ⟨hv, rfl⟩ hstep
  obtain ⟨hallows, rfl⟩ := Phase.step_eq_some.mp hstep
  rcases hst with hst | hst | hst <;> cases o <;>
    first | exact ho.elim | simp_all [Phase.allows, Phase.after]

/-- The consumer starts no attempt. -/
lemma keptBy_consumer_ne : KeptBy Op.OfConsumer fun p => p.stage ≠ .busy ∧ p.stage ≠ .won := by
  rintro o p p' ho hp hstep
  obtain ⟨hallows, rfl⟩ := Phase.step_eq_some.mp hstep
  cases o <;> first | exact ho.elim | simp_all [Phase.after]

end Handoff

end Dispatch

import Mathlib.Logic.Basic
import Mathlib.Data.List.Basic

/-!
# Programs as trees of atomic statements

A program is the tree of the atomic statements it executes: a statement of a signature `A` is
followed by a continuation that reads the value the statement returned. The tree fixes no meaning
for its statements, so one program has a sequential reading (`Threads.Sequential`) and a reading
in which its statements interleave with those of other threads (`Threads.Interleaving`).

`ε` is the type of faults: a run that reaches a fault ends there.
-/

namespace Threads

/-- A program over the statements `A` that returns an `α`, or ends in a fault. -/
inductive Prog (A : Type → Type) (ε α : Type) : Type 1 where
  | ret (x : α) : Prog A ε α
  | fail (e : ε) : Prog A ε α
  | act {β : Type} (a : A β) (k : β → Prog A ε α) : Prog A ε α

namespace Prog

variable {A : Type → Type} {ε α β γ : Type}

/-- Run `p`, then the program chosen by the value it returned. -/
def bind : Prog A ε α → (α → Prog A ε β) → Prog A ε β
  | .ret x, f => f x
  | .fail e, _ => .fail e
  | .act a k, f => .act a fun b => (k b).bind f

instance : Monad (Prog A ε) where
  pure := .ret
  bind := bind

/-- The program of one statement. -/
def lift (a : A α) : Prog A ε α := .act a .ret

@[simp] lemma pure_eq (x : α) : (pure x : Prog A ε α) = .ret x := rfl

@[simp] lemma bind_ret (x : α) (f : α → Prog A ε β) : (Prog.ret x >>= f) = f x := rfl

@[simp] lemma bind_fail (e : ε) (f : α → Prog A ε β) : (Prog.fail e >>= f) = .fail e := rfl

@[simp] lemma bind_act (a : A γ) (k : γ → Prog A ε α) (f : α → Prog A ε β) :
    (Prog.act a k >>= f) = .act a fun b => k b >>= f := rfl

lemma bind_bind (p : Prog A ε α) (f : α → Prog A ε β) (g : β → Prog A ε γ) :
    (p >>= f >>= g) = (p >>= fun x => f x >>= g) := by
  induction p with
  | ret x => rfl
  | fail e => rfl
  | act a k ih => simp only [bind_act, ih]

lemma bind_ret_right (p : Prog A ε α) : (p >>= Prog.ret) = p := by
  induction p with
  | ret x => rfl
  | fail e => rfl
  | act a k ih => simp only [bind_act, ih]

lemma ite_bind {c : Prop} [Decidable c] (p q : Prog A ε α) (f : α → Prog A ε β) :
    ((if c then p else q) >>= f) = if c then p >>= f else q >>= f := by
  split_ifs <;> rfl

/-- Run `f` on every element of a list, in order. -/
def forEach : List α → (α → Prog A ε Unit) → Prog A ε Unit
  | [], _ => .ret ()
  | x :: xs, f => f x >>= fun _ => forEach xs f

@[simp] lemma forEach_nil (f : α → Prog A ε Unit) : forEach [] f = .ret () := rfl

@[simp] lemma forEach_cons (x : α) (xs : List α) (f : α → Prog A ε Unit) :
    forEach (x :: xs) f = (f x >>= fun _ => forEach xs f) := rfl

/-! ### The statements of a program -/

/-- Every statement that a run of the program can execute satisfies `P`, whatever values the
statements before it return. -/
def All (P : ∀ {β : Type}, A β → Prop) : Prog A ε α → Prop
  | .ret _ => True
  | .fail _ => True
  | .act a k => P a ∧ ∀ b, (k b).All P

variable {P : ∀ {β : Type}, A β → Prop}

@[simp] lemma all_ret (x : α) : (Prog.ret x : Prog A ε α).All P := trivial

@[simp] lemma all_fail (e : ε) : (Prog.fail e : Prog A ε α).All P := trivial

@[simp] lemma all_act (a : A β) (k : β → Prog A ε α) :
    (Prog.act a k).All P ↔ P a ∧ ∀ b, (k b).All P := Iff.rfl

@[simp] lemma all_lift (a : A α) : (lift a : Prog A ε α).All P ↔ P a := by
  simp [lift]

lemma all_lift_bind (a : A β) (f : β → Prog A ε α) :
    (lift a >>= f).All P ↔ P a ∧ ∀ b, (f b).All P := by
  simp [lift]

lemma all_ite {c : Prop} [Decidable c] (p q : Prog A ε α) :
    (if c then p else q).All P ↔ (c → p.All P) ∧ (¬c → q.All P) := by
  split_ifs with h <;> simp [h]

lemma All.bind {p : Prog A ε α} {f : α → Prog A ε β} (hp : p.All P) (hf : ∀ x, (f x).All P) :
    (p >>= f).All P := by
  induction p with
  | ret x => exact hf x
  | fail e => trivial
  | act a k ih => exact ⟨hp.1, fun b => ih b (hp.2 b)⟩

lemma All.forEach {f : α → Prog A ε Unit} (xs : List α) (hf : ∀ x, (f x).All P) :
    (forEach xs f).All P := by
  induction xs with
  | nil => trivial
  | cons x xs ih => exact (hf x).bind fun _ => ih

lemma All.mono {Q : ∀ {β : Type}, A β → Prop} {p : Prog A ε α} (hp : p.All P)
    (h : ∀ {β : Type} (a : A β), P a → Q a) : p.All Q := by
  induction p with
  | ret x => trivial
  | fail e => trivial
  | act a k ih => exact ⟨h a hp.1, fun b => ih b (hp.2 b)⟩

lemma all_true (p : Prog A ε α) : p.All fun _ => True := by
  induction p with
  | ret x => trivial
  | fail e => trivial
  | act a k ih => exact ⟨trivial, ih⟩

end Prog

end Threads

import MySQLPlugin.Threads.Secured

/-!
# Lock discipline of programs

A discipline says what each statement is to a lock: it acquires or releases it, needs it, or does
without it. `Prog.Obeys` reads off the tree of a program that the lock is acquired and released in
pairs and held where it is needed. A program that obeys keeps to every policy that allows what the
discipline allows.
-/

namespace Threads

variable {A : Type → Type} {ε σ θ ρ α β : Type}

/-- What a statement is to the lock. -/
inductive LockUse where
  | acquire
  | release
  /-- The statement needs the lock. -/
  | guarded
  | free
  /-- The statement is not allowed at all. -/
  | never
  deriving DecidableEq

namespace LockUse

/-- A thread that has locked the lock `n` times may execute the statement; it acquires a lock that
it holds only if locks nest. -/
def Ready (nests : Prop) : LockUse → ℕ → Prop
  | acquire, n => n = 0 ∨ nests
  | release, n => 0 < n
  | guarded, n => 0 < n
  | free, _ => True
  | never, _ => False

def after : LockUse → ℕ → ℕ
  | acquire, n => n + 1
  | release, n => n - 1
  | _, n => n

end LockUse

/-- A discipline: the use of the lock by each statement, whether locks nest, and the faults that a
program may raise itself. -/
structure Discipline (A : Type → Type) (ε : Type) : Type 1 where
  use : ∀ {β : Type}, A β → LockUse
  nests : Prop
  raises : ε → Prop

namespace Prog

variable {D : Discipline A ε} {n l m : ℕ}

/-- Started by a thread that has locked the lock `n` times, the program obeys the discipline, and
the thread has locked the lock `m` times when the program returns. -/
def Obeys (D : Discipline A ε) : Prog A ε α → ℕ → ℕ → Prop
  | .ret _, n, m => n = m
  | .fail e, _, _ => D.raises e
  | .act a k, n, m => (D.use a).Ready D.nests n ∧ ∀ b, (k b).Obeys D ((D.use a).after n) m

@[simp] lemma obeys_ret (x : α) : (Prog.ret x : Prog A ε α).Obeys D n m ↔ n = m := Iff.rfl

@[simp] lemma obeys_fail (e : ε) : (Prog.fail e : Prog A ε α).Obeys D n m ↔ D.raises e := Iff.rfl

@[simp] lemma obeys_lift (a : A α) :
    (lift a : Prog A ε α).Obeys D n m ↔
      (D.use a).Ready D.nests n ∧ (α → (D.use a).after n = m) := Iff.rfl

lemma obeys_lift_bind (a : A β) (f : β → Prog A ε α) :
    (lift a >>= f).Obeys D n m ↔
      (D.use a).Ready D.nests n ∧ ∀ b, (f b).Obeys D ((D.use a).after n) m := Iff.rfl

/-- A statement that does without the lock. -/
lemma obeys_free_bind {a : A β} (ha : D.use a = .free) (f : β → Prog A ε α) :
    (lift a >>= f).Obeys D n m ↔ ∀ b, (f b).Obeys D n m := by
  rw [obeys_lift_bind, ha]
  exact and_iff_right trivial

lemma obeys_ite {c : Prop} [Decidable c] (p q : Prog A ε α) :
    (if c then p else q).Obeys D n m ↔ (c → p.Obeys D n m) ∧ (¬c → q.Obeys D n m) := by
  split_ifs with h <;> simp [h]

lemma Obeys.bind {p : Prog A ε α} {f : α → Prog A ε β} (hp : p.Obeys D n l)
    (hf : ∀ x, (f x).Obeys D l m) : (p >>= f).Obeys D n m := by
  induction p generalizing n with
  | ret x =>
    obtain rfl : n = l := hp
    exact hf x
  | fail e => exact hp
  | act a k ih => exact ⟨hp.1, fun b => ih b (hp.2 b)⟩

lemma Obeys.forEach {f : β → Prog A ε Unit} (xs : List β) (hf : ∀ x, (f x).Obeys D n n) :
    (forEach xs f).Obeys D n n := by
  induction xs with
  | nil => exact rfl
  | cons x xs ih => exact (hf x).bind fun _ => ih

/-- A program that obeys a discipline keeps to a policy that allows what the discipline allows:
`J n` holds while the thread has locked the lock `n` times. -/
lemma Obeys.secures {M : Machine A ε σ θ ρ} {rely : θ → Set (σ → Prop)} {π : Policy A ε σ θ}
    {t : θ} {J : ℕ → σ → Prop} (hJ : ∀ n, Stable (rely t) (J n))
    (hmay : ∀ {β : Type} (a : A β) n s, (D.use a).Ready D.nests n → J n s → π.may t a s)
    (hstep : ∀ {β : Type} (a : A β) n s o s', (D.use a).Ready D.nests n → J n s →
      M.Step t a s o s' → Guarantees rely t s s' ∧
        (∀ b, o = .ok b → J ((D.use a).after n) s') ∧ ∀ e, o = .error e → π.fails t e)
    (hraises : ∀ e, D.raises e → π.fails t e) {p : Prog A ε α} (hp : p.Obeys D n m) {s : σ}
    (hs : J n s) : p.Secures M rely π t (fun _ => J m) s := by
  induction p generalizing n s with
  | ret x =>
    obtain rfl : n = m := hp
    exact fun s' hk => hJ n s s' hk hs
  | fail e => exact hraises e hp
  | act a k ih =>
    obtain ⟨hready, hrest⟩ := hp
    refine secures_act (hJ n) hs (fun s₁ => hmay a n s₁ hready) (fun s₁ b s₂ hs₁ hst => ?_)
      fun s₁ e s₂ hs₁ hst => ?_
    · obtain ⟨hg, hok, -⟩ := hstep a n s₁ _ s₂ hready hs₁ hst
      exact ⟨hg, ih b (hrest b) (hok b rfl)⟩
    · obtain ⟨hg, -, herr⟩ := hstep a n s₁ _ s₂ hready hs₁ hst
      exact ⟨hg, herr e rfl⟩

end Prog

end Threads

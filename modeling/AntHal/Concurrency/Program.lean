import Mathlib.Logic.Basic

/-!
Programs over atomic operations.

A program is a finite tree: it either returns, or performs one operation and
goes on with the answer. What an operation does to the state is not fixed here;
a sequential run and an interleaving both read the same tree. Loops are not
part of a program, they are the control labels of a machine.
-/

namespace Concurrency

/-- A finite program over the operations `Op`, where `o : Op` answers in `Res o`. -/
inductive Prog (Op : Type) (Res : Op → Type) (α : Type) : Type where
  | ret (a : α) : Prog Op Res α
  | op (o : Op) (k : Res o → Prog Op Res α) : Prog Op Res α

namespace Prog

variable {Op : Type} {Res : Op → Type} {α β γ σ : Type}

def bind : Prog Op Res α → (α → Prog Op Res β) → Prog Op Res β
  | .ret a, f => f a
  | .op o k, f => .op o fun r => (k r).bind f

instance : Monad (Prog Op Res) where
  pure := .ret
  bind := bind

/-- The program that performs one operation and returns its answer. -/
def perform (o : Op) : Prog Op Res (Res o) := .op o .ret

@[simp] theorem pure_eq (a : α) : (pure a : Prog Op Res α) = .ret a := rfl

@[simp] theorem ret_bind (a : α) (f : α → Prog Op Res β) : (.ret a >>= f) = f a := rfl

@[simp] theorem op_bind (o : Op) (k : Res o → Prog Op Res α) (f : α → Prog Op Res β) :
    (.op o k >>= f) = .op o fun r => k r >>= f := rfl

@[simp] theorem perform_bind (o : Op) (f : Res o → Prog Op Res β) :
    (perform o >>= f) = .op o f := rfl

theorem bind_assoc (p : Prog Op Res α) (f : α → Prog Op Res β) (g : β → Prog Op Res γ) :
    (p >>= f >>= g) = p >>= fun a => f a >>= g := by
  induction p with
  | ret a => rfl
  | op o k ih =>
      simp only [op_bind]
      congr 1
      funext r
      exact ih r

/-- Run a program alone: every operation is answered at once by `exec`. -/
def run (exec : (o : Op) → σ → Res o × σ) : Prog Op Res α → σ → α × σ
  | .ret a, s => (a, s)
  | .op o k, s => (k (exec o s).1).run exec (exec o s).2

section run
variable (exec : (o : Op) → σ → Res o × σ)

@[simp] theorem run_ret (a : α) (s : σ) :
    (ret a : Prog Op Res α).run exec s = (a, s) := rfl

@[simp] theorem run_op (o : Op) (k : Res o → Prog Op Res α) (s : σ) :
    (op o k).run exec s = (k (exec o s).1).run exec (exec o s).2 := rfl

theorem run_bind (p : Prog Op Res α) (f : α → Prog Op Res β) (s : σ) :
    (p >>= f).run exec s = (f (p.run exec s).1).run exec (p.run exec s).2 := by
  induction p generalizing s with
  | ret a => rfl
  | op o k ih => exact ih _ _

end run

section simulation
variable {τ : Type}

/-- Run alone, the program is the function `f` on the abstraction of the state. -/
def Simulates (exec : (o : Op) → σ → Res o × σ) (abs : σ → τ) (p : Prog Op Res α)
    (f : τ → α × τ) : Prop :=
  ∀ s, ((p.run exec s).1, abs (p.run exec s).2) = f (abs s)

variable {exec : (o : Op) → σ → Res o × σ} {abs : σ → τ}

theorem Simulates.fst {p : Prog Op Res α} {f : τ → α × τ} (h : Simulates exec abs p f)
    (s : σ) : (p.run exec s).1 = (f (abs s)).1 :=
  congrArg Prod.fst (h s)

theorem Simulates.snd {p : Prog Op Res α} {f : τ → α × τ} (h : Simulates exec abs p f)
    (s : σ) : abs (p.run exec s).2 = (f (abs s)).2 :=
  congrArg Prod.snd (h s)

theorem simulates_ret (a : α) :
    Simulates exec abs (.ret a : Prog Op Res α) fun x => (a, x) := fun _ => rfl

theorem Simulates.congr {p : Prog Op Res α} {f g : τ → α × τ}
    (h : Simulates exec abs p f) (hfg : ∀ x, f x = g x) : Simulates exec abs p g :=
  fun s => (h s).trans (hfg _)

theorem Simulates.ite {c : Prop} [Decidable c] {p q : Prog Op Res α} {f g : τ → α × τ}
    (hp : Simulates exec abs p f) (hq : Simulates exec abs q g) :
    Simulates exec abs (if c then p else q) fun x => if c then f x else g x := by
  intro s
  by_cases h : c
  · simpa only [h, if_true] using hp s
  · simpa only [h, if_false] using hq s

theorem Simulates.bind {p : Prog Op Res α} {k : α → Prog Op Res β} {f : τ → α × τ}
    {g : α → τ → β × τ} (hp : Simulates exec abs p f)
    (hk : ∀ a, Simulates exec abs (k a) (g a)) :
    Simulates exec abs (p >>= k) fun x => g (f x).1 (f x).2 := by
  intro s
  change _ = g (f (abs s)).1 (f (abs s)).2
  rw [run_bind, ← hp.fst, ← hp.snd]
  exact hk _ _

/-- A program that leaves the abstraction alone, and whose answer is dropped. -/
theorem Simulates.ignore {p : Prog Op Res α} {q : Prog Op Res β} {f : τ → β × τ}
    (hp : ∀ s, abs (p.run exec s).2 = abs s) (hq : Simulates exec abs q f) :
    Simulates exec abs (p >>= fun _ => q) f := by
  intro s
  rw [run_bind, ← hp s]
  exact hq _

end simulation

/-- Every path of the program performs an operation of the given kind before
it returns. -/
def Passes (P : Op → Prop) : Prog Op Res α → Prop
  | .ret _ => False
  | .op o k => P o ∨ ∀ r, (k r).Passes P

section passes
variable {P : Op → Prop}

@[simp] theorem passes_ret (a : α) : ¬ (ret a : Prog Op Res α).Passes P := id

theorem Passes.bind_left {p : Prog Op Res α} (h : p.Passes P) (f : α → Prog Op Res β) :
    (p >>= f).Passes P := by
  induction p with
  | ret a => exact h.elim
  | op o k ih => exact h.imp id fun hk r => ih r (hk r)

theorem Passes.bind_right (p : Prog Op Res α) {f : α → Prog Op Res β}
    (h : ∀ a, (f a).Passes P) : (p >>= f).Passes P := by
  induction p with
  | ret a => exact h a
  | op o k ih => exact .inr ih

end passes

/-- Whatever the operations answer, the program returns a value with `P`. -/
def Returns (P : α → Prop) : Prog Op Res α → Prop
  | .ret a => P a
  | .op _ k => ∀ r, (k r).Returns P

section returns
variable {P Q : α → Prop}

@[simp] theorem returns_ret (a : α) : (ret a : Prog Op Res α).Returns P ↔ P a := Iff.rfl

@[simp] theorem returns_op (o : Op) (k : Res o → Prog Op Res α) :
    (op o k).Returns P ↔ ∀ r, (k r).Returns P := Iff.rfl

theorem returns_true (p : Prog Op Res α) : p.Returns fun _ => True := by
  induction p with
  | ret a => trivial
  | op o k ih => exact ih

theorem Returns.mono {p : Prog Op Res α} (h : p.Returns P) (hPQ : ∀ a, P a → Q a) :
    p.Returns Q := by
  induction p with
  | ret a => exact hPQ a h
  | op o k ih => exact fun r => ih r (h r)

theorem Returns.bind {p : Prog Op Res α} {f : α → Prog Op Res β} {R : β → Prop}
    (h : p.Returns P) (hf : ∀ a, P a → (f a).Returns R) : (p >>= f).Returns R := by
  induction p with
  | ret a => exact hf a h
  | op o k ih => exact fun r => ih r (h r)

/-- A sequence returns what its last part returns. -/
theorem returns_bind (p : Prog Op Res α) {f : α → Prog Op Res β} {R : β → Prop}
    (hf : ∀ a, (f a).Returns R) : (p >>= f).Returns R :=
  (returns_true p).bind fun a _ => hf a

end returns

/-- Along every path of allowed answers the program performs a goal, and nothing
that stops it before, or returns a value with `Q`. -/
def Until (allowed : (o : Op) → Res o → Prop) (goal stop : Op → Prop) (Q : α → Prop) :
    Prog Op Res α → Prop
  | .ret a => Q a
  | .op o k => goal o ∨ ¬ stop o ∧ ∀ r, allowed o r → (k r).Until allowed goal stop Q

section until_
variable {allowed : (o : Op) → Res o → Prop} {goal stop : Op → Prop} {Q : α → Prop}

@[simp] theorem until_ret (a : α) :
    (ret a : Prog Op Res α).Until allowed goal stop Q ↔ Q a := Iff.rfl

theorem until_op (o : Op) (k : Res o → Prog Op Res α) :
    (op o k).Until allowed goal stop Q ↔
      goal o ∨ ¬ stop o ∧ ∀ r, allowed o r → (k r).Until allowed goal stop Q := Iff.rfl

theorem Until.reached {o : Op} {k : Res o → Prog Op Res α} (h : goal o) :
    (op o k).Until allowed goal stop Q := .inl h

theorem Until.step {o : Op} {k : Res o → Prog Op Res α} (h : ¬ stop o)
    (hk : ∀ r, allowed o r → (k r).Until allowed goal stop Q) :
    (op o k).Until allowed goal stop Q := .inr ⟨h, hk⟩

/-- Where nothing stops it a program gets at least to its end. -/
theorem Returns.until {p : Prog Op Res α} (h : p.Returns Q) :
    p.Until allowed goal (fun _ => False) Q := by
  induction p with
  | ret a => exact h
  | op o k ih => exact .inr ⟨id, fun r _ => ih r (h r)⟩

/-- A sequence reaches the goal in its first part, or has to in the second one. -/
theorem until_bind (p : Prog Op Res α) (f : α → Prog Op Res β) {Q : β → Prop} :
    (p >>= f).Until allowed goal stop Q ↔
      p.Until allowed goal stop fun a => (f a).Until allowed goal stop Q := by
  induction p with
  | ret a => rfl
  | op o k ih => simp only [op_bind, until_op, ih]

theorem until_ite {c : Prop} [Decidable c] {p q : Prog Op Res α} :
    (if c then p else q).Until allowed goal stop Q ↔
      (c → p.Until allowed goal stop Q) ∧ (¬ c → q.Until allowed goal stop Q) := by
  split <;> simp [*]

theorem Until.mono {allowed' : (o : Op) → Res o → Prop} {goal' stop' : Op → Prop}
    {Q' : α → Prop} {p : Prog Op Res α} (h : p.Until allowed goal stop Q)
    (hallowed : ∀ o r, allowed' o r → allowed o r) (hgoal : ∀ o, goal o → goal' o)
    (hstop : ∀ o, stop' o → stop o) (hQ : ∀ a, Q a → Q' a) :
    p.Until allowed' goal' stop' Q' := by
  induction p with
  | ret a => exact hQ a h
  | op o k ih =>
      rcases h with h | ⟨hgo, hk⟩
      · exact .inl (hgoal o h)
      · exact .inr ⟨fun hs => hgo (hstop o hs), fun r hr => ih r (hk r (hallowed o r hr))⟩

end until_

/-- Every operation of the program is a `P`, and what it returns is a `Q`. -/
def Only (P : Op → Prop) (Q : α → Prop) (p : Prog Op Res α) : Prop :=
  p.Until (fun _ _ => True) (fun _ => False) (fun o => ¬ P o) Q

section only
variable {P : Op → Prop} {Q : α → Prop}

@[simp] theorem only_ret (a : α) : (ret a : Prog Op Res α).Only P Q ↔ Q a := Iff.rfl

@[simp] theorem only_op (o : Op) (k : Res o → Prog Op Res α) :
    (op o k).Only P Q ↔ P o ∧ ∀ r, (k r).Only P Q := by
  simp [Only, until_op]

@[simp] theorem only_ite {c : Prop} [Decidable c] {p q : Prog Op Res α} :
    (if c then p else q).Only P Q ↔ (c → p.Only P Q) ∧ (¬ c → q.Only P Q) :=
  until_ite

theorem Only.mono {P' : Op → Prop} {Q' : α → Prop} {p : Prog Op Res α} (h : p.Only P Q)
    (hP : ∀ o, P o → P' o) (hQ : ∀ a, Q a → Q' a) : p.Only P' Q' :=
  Until.mono h (fun _ _ hr => hr) (fun _ ho => ho) (fun o ho hp => ho (hP o hp)) hQ

theorem Only.bind {Q' : β → Prop} {p : Prog Op Res α} {f : α → Prog Op Res β}
    (hp : p.Only P Q) (hf : ∀ a, Q a → (f a).Only P Q') : (p >>= f).Only P Q' :=
  (until_bind p f).mpr (hp.mono (fun _ ho => ho) hf)

theorem Only.returns {p : Prog Op Res α} (h : p.Only P Q) : p.Returns Q := by
  induction p with
  | ret a => exact h
  | op o k ih => exact fun r => ih r (((only_op o k).mp h).2 r)

/-- Such a program does not stop, and gets at least to its end. -/
theorem Only.until {allowed : (o : Op) → Res o → Prop} {goal stop : Op → Prop}
    {p : Prog Op Res α} (h : p.Only P Q) (hstop : ∀ o, P o → ¬ stop o) :
    p.Until allowed goal stop Q :=
  Until.mono h (fun _ _ _ => trivial) (fun _ ho => ho.elim) (fun o ho hp => hstop o hp ho)
    fun _ ha => ha

end only

/-- Every operation still to come satisfies `P`, together with what follows it. -/
def Always (P : (o : Op) → (Res o → Prog Op Res α) → Prop) : Prog Op Res α → Prop
  | .ret _ => True
  | .op o k => P o k ∧ ∀ r, (k r).Always P

section always
variable {P : (o : Op) → (Res o → Prog Op Res α) → Prop}

@[simp] theorem always_ret (a : α) : (ret a : Prog Op Res α).Always P := trivial

theorem Only.always_bind {P' : Op → Prop} {Q : α → Prop} {p : Prog Op Res α}
    {P : (o : Op) → (Res o → Prog Op Res β) → Prop} {f : α → Prog Op Res β} (h : p.Only P' Q)
    (hP : ∀ o k, P' o → P o k) (hf : ∀ a, Q a → (f a).Always P) : (p >>= f).Always P := by
  induction p with
  | ret a => exact hf a h
  | op o k ih =>
      obtain ⟨ho, hk⟩ := (only_op o k).mp h
      exact ⟨hP o _ ho, fun r => ih r (hk r)⟩

theorem always_of_forall {p : Prog Op Res α} (h : ∀ o k, P o k) : p.Always P := by
  induction p with
  | ret a => trivial
  | op o k ih => exact ⟨h o k, ih⟩

theorem Always.mono {P' : (o : Op) → (Res o → Prog Op Res α) → Prop} {p : Prog Op Res α}
    (h : p.Always P) (hP : ∀ o k, P o k → P' o k) : p.Always P' := by
  induction p with
  | ret a => trivial
  | op o k ih => exact ⟨hP o k h.1, fun r => ih r (h.2 r)⟩

theorem Only.always {P' : Op → Prop} {Q : α → Prop} {p : Prog Op Res α} (h : p.Only P' Q)
    (hP : ∀ o k, P' o → P o k) : p.Always P := by
  induction p with
  | ret a => trivial
  | op o k ih =>
      obtain ⟨ho, hk⟩ := (only_op o k).mp h
      exact ⟨hP o k ho, fun r => ih r (hk r)⟩

/-- With every operation goes what is known of all the operations behind it. -/
theorem Only.always_rest {P' : Op → Prop} {Q : α → Prop} {p : Prog Op Res α} (h : p.Only P' Q) :
    p.Always fun o k => P' o ∧ ∀ r, (k r).Only P' Q := by
  induction p with
  | ret a => trivial
  | op o k ih =>
      obtain ⟨ho, hk⟩ := (only_op o k).mp h
      exact ⟨⟨ho, hk⟩, fun r => ih r (hk r)⟩

end always

/-- An operation that `needs` it follows directly on an answer that `backs` it.
The proposition says whether the answer before the program does. -/
def Backed (needs : Op → Prop) (backs : (o : Op) → Res o → Prop) : Prop → Prog Op Res α → Prop
  | _, .ret _ => True
  | v, .op o k => (needs o → v) ∧ ∀ r, (k r).Backed needs backs (backs o r)

section backed
variable {needs : Op → Prop} {backs : (o : Op) → Res o → Prop} {v w : Prop}

@[simp] theorem backed_ret (a : α) : (ret a : Prog Op Res α).Backed needs backs v := trivial

theorem Backed.mono {p : Prog Op Res α} (h : p.Backed needs backs v) (hvw : v → w) :
    p.Backed needs backs w := by
  cases p with
  | ret a => trivial
  | op o k => exact ⟨fun ho => hvw (h.1 ho), h.2⟩

theorem Backed.weaken {needs' : Op → Prop} {p : Prog Op Res α} (h : p.Backed needs backs v)
    (hneeds : ∀ o, needs' o → needs o) : p.Backed needs' backs v := by
  induction p generalizing v with
  | ret a => trivial
  | op o k ih => exact ⟨fun ho => h.1 (hneeds o ho), fun r => ih r (h.2 r)⟩

/-- What is not needed at once may come behind anything. -/
theorem Backed.step {o : Op} {k : Res o → Prog Op Res α} (ho : ¬ needs o)
    (hk : ∀ r, (k r).Backed needs backs (backs o r)) : (op o k).Backed needs backs v :=
  ⟨fun h => absurd h ho, hk⟩

theorem Backed.bind {p : Prog Op Res α} {f : α → Prog Op Res β} (h : p.Backed needs backs v)
    (hf : ∀ a, (f a).Backed needs backs False) : (p >>= f).Backed needs backs v := by
  induction p generalizing v with
  | ret a => exact (hf a).mono False.elim
  | op o k ih => exact ⟨h.1, fun r => ih r (h.2 r)⟩

theorem Backed.ite {c : Prop} [Decidable c] {p q : Prog Op Res α}
    (hp : c → p.Backed needs backs v) (hq : ¬ c → q.Backed needs backs v) :
    (if c then p else q).Backed needs backs v := by
  split
  · exact hp ‹_›
  · exact hq ‹_›

theorem Only.backed {P : Op → Prop} {Q : α → Prop} {p : Prog Op Res α} (h : p.Only P Q)
    (hP : ∀ o, P o → ¬ needs o) : p.Backed needs backs v := by
  induction p generalizing v with
  | ret a => trivial
  | op o k ih =>
      obtain ⟨ho, hk⟩ := (only_op o k).mp h
      exact .step (hP o ho) fun r => ih r (hk r)

end backed

end Prog
end Concurrency

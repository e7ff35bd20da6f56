import AntHal.Concurrency.Program
import Mathlib.Logic.Function.Basic

/-!
Interleaved execution of programs over one shared state.

A machine gives every control label a program that ends by naming the next
label, or by terminating the thread. Threads take one operation at a time, in
any order. A thread that terminates stays in the pool, so that a join can see
it, and its identity is never given to another thread.

A run is a path of moves. Paths carry a side condition on the configuration
before each move, so that an invariant can be stated for every run, or for the
runs whose moves all meet a condition.
-/

namespace Concurrency

/-- A thread: the label it is executing and what is left of that label's program. -/
structure Thread (Op : Type) (Res : Op → Type) (Label : Type) where
  label : Label
  code : Prog Op Res (Option Label)

/-- The next operation of a thread that has not terminated. -/
def Thread.head? {Op : Type} {Res : Op → Type} {Label : Type}
    (th : Thread Op Res Label) : Option Op :=
  match th.code with
  | .ret _ => none
  | .op o _ => some o

def Thread.terminated {Op : Type} {Res : Op → Type} {Label : Type}
    (th : Thread Op Res Label) : Bool :=
  th.head?.isNone

theorem Thread.code_of_head {Op : Type} {Res : Op → Type} {Label : Type}
    {th : Thread Op Res Label} {o : Op} (h : th.head? = some o) :
    ∃ k, th.code = .op o k := by
  obtain ⟨l, code⟩ := th
  cases code with
  | ret a => cases h
  | op o' k =>
      cases h
      exact ⟨k, rfl⟩

abbrev Pool (Op : Type) (Res : Op → Type) (Label Tid : Type) :=
  Tid → Option (Thread Op Res Label)

/-- The code of every label and the meaning of every operation. `Env` is what
the environment of one step decides: answers of system calls, failures, time. -/
structure Machine (Op : Type) (Res : Op → Type) (Label Tid σ Env : Type) where
  body : Label → Prog Op Res (Option Label)
  /-- The calls that may be made from outside, and by which thread. -/
  entry : Tid → Label → Bool
  /-- A blocking operation is taken only when it is ready. -/
  ready : Pool Op Res Label Tid → Tid → Env → (o : Op) → σ → Bool
  effect : Tid → Env → (o : Op) → σ → Res o × σ
  /-- The thread an operation has created, seen from the state after it. -/
  spawn : (o : Op) → Res o → σ → Option (Tid × Label)

structure Config (Op : Type) (Res : Op → Type) (Label Tid σ : Type) where
  shared : σ
  pool : Pool Op Res Label Tid

/-- A move starts a call from outside, or lets one thread take one operation. -/
inductive Move (Label Tid Env : Type) where
  | start (t : Tid) (l : Label)
  | act (t : Tid) (env : Env)

namespace Machine

variable {Op : Type} {Res : Op → Type} {Label Tid σ Env : Type}

/-- A program that has named its next label continues there at once. -/
def resume (m : Machine Op Res Label Tid σ Env) (l : Label) :
    Prog Op Res (Option Label) → Thread Op Res Label
  | .ret (some l') => ⟨l', m.body l'⟩
  | p => ⟨l, p⟩

theorem resume_cases (m : Machine Op Res Label Tid σ Env) (l : Label)
    (p : Prog Op Res (Option Label)) :
    (∃ l', p = .ret (some l') ∧ m.resume l p = ⟨l', m.body l'⟩) ∨ m.resume l p = ⟨l, p⟩ := by
  cases p with
  | ret a =>
      cases a with
      | none => exact .inr rfl
      | some l' => exact .inl ⟨l', rfl, rfl⟩
  | op o k => exact .inr rfl

/-- A program that does not end its thread goes on, or at a label it may name. -/
theorem resume_returns (m : Machine Op Res Label Tid σ Env) (l : Label)
    {p : Prog Op Res (Option Label)} {P : Option Label → Prop} (h : p.Returns P)
    (hnone : ¬ P none) :
    (∃ l', P (some l') ∧ m.resume l p = ⟨l', m.body l'⟩) ∨
      (m.resume l p = ⟨l, p⟩ ∧ (⟨l, p⟩ : Thread Op Res Label).terminated = false) := by
  cases p with
  | ret a =>
      cases a with
      | none => exact absurd h hnone
      | some l' => exact .inl ⟨l', h, rfl⟩
  | op o k => exact .inr ⟨rfl, rfl⟩

variable [DecidableEq Tid]

/-- Thread `t`, at label `l`, performs `o` and goes on with `k`. A created
thread must have an unused identity, otherwise the step cannot be taken. -/
def after (m : Machine Op Res Label Tid σ Env) (t : Tid) (env : Env) (l : Label)
    (o : Op) (k : Res o → Prog Op Res (Option Label)) (c : Config Op Res Label Tid σ) :
    Option (Config Op Res Label Tid σ) :=
  let r := (m.effect t env o c.shared).1
  let s := (m.effect t env o c.shared).2
  let pool := Function.update c.pool t (some (m.resume l (k r)))
  match m.spawn o r s with
  | none => some ⟨s, pool⟩
  | some (u, lu) =>
    if (c.pool u).isNone then some ⟨s, Function.update pool u (some ⟨lu, m.body lu⟩)⟩
    else none

def step (m : Machine Op Res Label Tid σ Env) :
    Move Label Tid Env → Config Op Res Label Tid σ → Option (Config Op Res Label Tid σ)
  | .start t l, c =>
    if m.entry t l = true ∧ (c.pool t).isNone then
      some { c with pool := Function.update c.pool t (some ⟨l, m.body l⟩) }
    else none
  | .act t env, c =>
    match c.pool t with
    | none => none
    | some ⟨_, .ret _⟩ => none
    | some ⟨l, .op o k⟩ =>
      if m.ready c.pool t env o c.shared then m.after t env l o k c else none

/-- The configuration after a list of moves, if all of them can be taken and
each meets the check. -/
def exec (m : Machine Op Res Label Tid σ Env)
    (check : Config Op Res Label Tid σ → Move Label Tid Env → Bool) :
    List (Move Label Tid Env) → Config Op Res Label Tid σ → Option (Config Op Res Label Tid σ)
  | [], c => some c
  | mv :: mvs, c => if check c mv then (m.step mv c).bind (m.exec check mvs) else none

/-- A run from `c`, every move of which meets the condition `C`. -/
inductive Path (m : Machine Op Res Label Tid σ Env)
    (C : Config Op Res Label Tid σ → Move Label Tid Env → Prop) :
    Config Op Res Label Tid σ → Config Op Res Label Tid σ → Prop where
  | refl (c) : Path m C c c
  | tail {c d e mv} : Path m C c d → C d mv → m.step mv d = some e → Path m C c e

def Reachable (m : Machine Op Res Label Tid σ Env) (init c : Config Op Res Label Tid σ) : Prop :=
  m.Path (fun _ _ => True) init c

section paths
variable {m : Machine Op Res Label Tid σ Env}
  {C D : Config Op Res Label Tid σ → Move Label Tid Env → Prop}
  {c d e : Config Op Res Label Tid σ}

/-- Every step of a run is taken in a state that the run has come to. -/
theorem Path.along (h : m.Path C c d) (hCD : ∀ x mv, m.Path C c x → C x mv → D x mv) :
    m.Path D c d := by
  induction h with
  | refl => exact .refl _
  | tail hx hc hs ih => exact .tail ih (hCD _ _ hx hc) hs

theorem Path.mono (h : m.Path C c d) (hCD : ∀ x mv, C x mv → D x mv) : m.Path D c d :=
  h.along fun x mv _ => hCD x mv

theorem Path.reachable (h : m.Path C c d) : m.Reachable c d :=
  h.mono fun _ _ _ => trivial

theorem Path.trans (h : m.Path C c d) (h' : m.Path C d e) : m.Path C c e := by
  induction h' with
  | refl => exact h
  | tail _ hc hs ih => exact .tail ih hc hs

theorem Path.head {mv : Move Label Tid Env} (hc : C c mv) (hs : m.step mv c = some d)
    (h : m.Path C d e) : m.Path C c e :=
  Path.trans (.tail (.refl c) hc hs) h

/-- The run lemma: what every move of a run preserves holds at its end. -/
theorem Path.invariant {I : Config Op Res Label Tid σ → Prop} (h : m.Path C c d)
    (hstep : ∀ x mv y, I x → C x mv → m.step mv x = some y → I y) (hc : I c) : I d := by
  induction h with
  | refl => exact hc
  | tail _ hC hs ih => exact hstep _ _ _ ih hC hs

theorem exec_path {check : Config Op Res Label Tid σ → Move Label Tid Env → Bool}
    {mvs : List (Move Label Tid Env)} (h : m.exec check mvs c = some d) :
    m.Path (fun x mv => check x mv = true) c d := by
  induction mvs generalizing c with
  | nil =>
      cases h
      exact .refl _
  | cons mv mvs ih =>
      simp only [exec] at h
      split at h
      · rename_i hcheck
        obtain ⟨x, hx, hrest⟩ := Option.bind_eq_some_iff.mp h
        exact .head hcheck hx (ih hrest)
      · cases h

/-- A list of moves whose end is found by evaluation. -/
theorem exec_any (m : Machine Op Res Label Tid σ Env)
    (check : Config Op Res Label Tid σ → Move Label Tid Env → Bool)
    (mvs : List (Move Label Tid Env)) (c : Config Op Res Label Tid σ)
    (p : Config Op Res Label Tid σ → Bool) (h : (m.exec check mvs c).any p = true) :
    ∃ d, m.Path (fun x mv => check x mv = true) c d ∧ p d = true := by
  obtain ⟨d, hd, hp⟩ := Option.any_eq_true _ _ |>.mp h
  exact ⟨d, exec_path hd, hp⟩

/-- A step of the kind `E` was taken on a run from `c` to `d`. -/
def Occurred (m : Machine Op Res Label Tid σ Env)
    (E : Config Op Res Label Tid σ → Move Label Tid Env → Config Op Res Label Tid σ → Prop)
    (c d : Config Op Res Label Tid σ) : Prop :=
  ∃ x mv y, m.Reachable c x ∧ m.step mv x = some y ∧ E x mv y ∧ m.Reachable y d

variable {E : Config Op Res Label Tid σ → Move Label Tid Env → Config Op Res Label Tid σ → Prop}
  {mv : Move Label Tid Env}

theorem Occurred.now (h : m.Reachable c d) (hs : m.step mv d = some e) (hE : E d mv e) :
    m.Occurred E c e :=
  ⟨d, mv, e, h, hs, hE, .refl e⟩

theorem Occurred.later (h : m.Occurred E c d) (hs : m.step mv d = some e) :
    m.Occurred E c e := by
  obtain ⟨x, mv', y, hx, hstep, hE, hy⟩ := h
  exact ⟨x, mv', y, hx, hstep, hE, .tail hy trivial hs⟩

end paths

section steps
variable {m : Machine Op Res Label Tid σ Env} {c d : Config Op Res Label Tid σ}

theorem step_start {t : Tid} {l : Label} (h : m.step (.start t l) c = some d) :
    m.entry t l = true ∧ c.pool t = none ∧
      d = ⟨c.shared, Function.update c.pool t (some ⟨l, m.body l⟩)⟩ := by
  simp only [step, Option.isNone_iff_eq_none] at h
  split at h
  · rename_i he
    exact ⟨he.1, he.2, by simpa using h.symm⟩
  · cases h

/-- A thread of the pool after a start: the new one, or one that was there. -/
theorem step_start_cases {t u : Tid} {l : Label} {th : Thread Op Res Label}
    (h : m.step (.start t l) c = some d) (hu : d.pool u = some th) :
    (u = t ∧ th = ⟨l, m.body l⟩) ∨ (u ≠ t ∧ c.pool u = some th) := by
  obtain ⟨-, -, rfl⟩ := step_start h
  by_cases hut : u = t
  · subst hut
    exact .inl ⟨rfl, by simpa using hu.symm⟩
  · exact .inr ⟨hut, by simpa [Function.update_of_ne hut] using hu⟩

theorem step_start_kept {t u : Tid} {l : Label} {th : Thread Op Res Label}
    (h : m.step (.start t l) c = some d) (hu : c.pool u = some th) : d.pool u = some th := by
  obtain ⟨-, hnew, rfl⟩ := step_start h
  refine (Function.update_of_ne ?_ _ _).trans hu
  rintro rfl
  cases hnew.symm.trans hu

/-- What an operation of a thread does: the inversion lemma of `step`. -/
structure Acts (m : Machine Op Res Label Tid σ Env) (t : Tid) (env : Env)
    (c d : Config Op Res Label Tid σ) (l : Label) (o : Op)
    (k : Res o → Prog Op Res (Option Label)) : Prop where
  thread : c.pool t = some ⟨l, .op o k⟩
  ready : m.ready c.pool t env o c.shared = true
  shared : d.shared = (m.effect t env o c.shared).2
  /-- The pool changes at the acting thread and at a created one only. -/
  self : (∀ lu, m.spawn o (m.effect t env o c.shared).1 d.shared ≠ some (t, lu)) ∧
    d.pool t = some (m.resume l (k (m.effect t env o c.shared).1))
  created : ∀ u lu, m.spawn o (m.effect t env o c.shared).1 d.shared = some (u, lu) →
    c.pool u = none ∧ d.pool u = some ⟨lu, m.body lu⟩
  others : ∀ u, u ≠ t →
    (∀ lu, m.spawn o (m.effect t env o c.shared).1 d.shared ≠ some (u, lu)) →
    d.pool u = c.pool u

theorem step_act {t : Tid} {env : Env} (h : m.step (.act t env) c = some d) :
    ∃ l o k, Acts m t env c d l o k := by
  simp only [step] at h
  cases hp : c.pool t with
  | none => simp [hp] at h
  | some th =>
      obtain ⟨l, code⟩ := th
      cases code with
      | ret a => simp [hp] at h
      | op o k =>
          simp only [hp] at h
          split at h
          · rename_i hready
            refine ⟨l, o, k, ?_⟩
            simp only [after] at h
            split at h
            · rename_i hspawn
              cases h
              exact ⟨hp, hready, rfl, ⟨by simp [hspawn], by simp⟩, by simp [hspawn],
                fun u hu _ => Function.update_of_ne hu _ _⟩
            · rename_i u lu hspawn
              split at h
              · rename_i hfree
                cases h
                have hut : u ≠ t := by
                  rintro rfl
                  simp [hp] at hfree
                refine ⟨hp, hready, rfl, ⟨?_, ?_⟩, ?_, ?_⟩
                · intro lu' hs
                  rw [hspawn] at hs
                  cases hs
                  exact hut rfl
                · simp [Function.update_of_ne hut.symm]
                · intro u' lu' hs
                  rw [hspawn] at hs
                  cases hs
                  exact ⟨by simpa using hfree, by simp⟩
                · intro u' hu' hs
                  have hne : u' ≠ u := by
                    rintro rfl
                    exact hs lu hspawn
                  simp [Function.update_of_ne hne, Function.update_of_ne hu']
              · cases h
          · cases h

theorem Acts.exists {t : Tid} {env : Env} {l : Label} {o : Op}
    {k : Res o → Prog Op Res (Option Label)} (h : Acts m t env c d l o k) (u : Tid)
    (hu : (c.pool u).isSome) : (d.pool u).isSome := by
  by_cases hut : u = t
  · subst hut
    simp [h.self.2]
  · rw [h.others u hut]
    · exact hu
    · intro lu hs
      simp [(h.created u lu hs).1] at hu

omit [DecidableEq Tid] in
theorem Acts.kept {t : Tid} {env : Env} {l : Label} {o : Op}
    {k : Res o → Prog Op Res (Option Label)} (h : Acts m t env c d l o k) {u : Tid}
    {th : Thread Op Res Label} (hut : u ≠ t) (hu : c.pool u = some th) :
    d.pool u = some th := by
  rw [h.others u hut, hu]
  intro lu hspawn
  rw [(h.created u lu hspawn).1] at hu
  cases hu

/-- A thread of the pool after a step: the acting one, a created one, or one
that has not moved. -/
theorem Acts.cases {t : Tid} {env : Env} {l : Label} {o : Op}
    {k : Res o → Prog Op Res (Option Label)} (h : Acts m t env c d l o k) {u : Tid}
    {th : Thread Op Res Label} (hu : d.pool u = some th) :
    (u = t ∧ th = m.resume l (k (m.effect t env o c.shared).1)) ∨
    (∃ lu, m.spawn o (m.effect t env o c.shared).1 d.shared = some (u, lu) ∧
      th = ⟨lu, m.body lu⟩) ∨
    (u ≠ t ∧ c.pool u = some th) := by
  by_cases hut : u = t
  · subst hut
    rw [h.self.2] at hu
    exact .inl ⟨rfl, (Option.some.inj hu).symm⟩
  · by_cases hspawn : ∃ lu, m.spawn o (m.effect t env o c.shared).1 d.shared = some (u, lu)
    · obtain ⟨lu, hlu⟩ := hspawn
      rw [(h.created u lu hlu).2] at hu
      exact .inr (.inl ⟨lu, hlu, (Option.some.inj hu).symm⟩)
    · rw [h.others u hut fun lu hlu => hspawn ⟨lu, hlu⟩] at hu
      exact .inr (.inr ⟨hut, hu⟩)

/-- What holds of every operation of every label's program holds of what each
thread has still to run. -/
def PoolAlways (P : Label → (o : Op) → (Res o → Prog Op Res (Option Label)) → Prop)
    (c : Config Op Res Label Tid σ) : Prop :=
  ∀ t th, c.pool t = some th → th.code.Always (P th.label)

theorem poolAlways_step {P : Label → (o : Op) → (Res o → Prog Op Res (Option Label)) → Prop}
    (hbody : ∀ l, (m.body l).Always (P l)) (h : PoolAlways P c) {mv : Move Label Tid Env}
    (hs : m.step mv c = some d) : PoolAlways P d := by
  intro u th hu
  cases mv with
  | start t l =>
      rcases step_start_cases hs hu with ⟨-, rfl⟩ | ⟨-, hold⟩
      · exact hbody l
      · exact h u th hold
  | act t env =>
      obtain ⟨l, o, k, ha⟩ := step_act hs
      rcases ha.cases hu with ⟨rfl, rfl⟩ | ⟨lu, -, rfl⟩ | ⟨-, hold⟩
      · have hk := (h u _ ha.thread).2 (m.effect u env o c.shared).1
        rcases m.resume_cases l (k (m.effect u env o c.shared).1) with ⟨l', -, hr⟩ | hr
        · rw [hr]
          exact hbody l'
        · rw [hr]
          exact hk
      · exact hbody lu
      · exact h u th hold

/-- In what each thread outside the exempt labels has still to run, an operation that `needs` it
follows directly on an answer that `backs` it; what `v` says was answered before. -/
def PoolBacked (exempt : Label → Prop) (needs : Op → Prop) (backs : (o : Op) → Res o → Prop)
    (v : Prop) (c : Config Op Res Label Tid σ) : Prop :=
  ∀ t th, c.pool t = some th → ¬ exempt th.label → th.code.Backed needs backs v

/-- What a thread may do next is backed by what it has just been answered. -/
theorem poolBacked_step {exempt : Label → Prop} {needs : Op → Prop}
    {backs : (o : Op) → Res o → Prop} {v : Prop}
    (hbody : ∀ l, ¬ exempt l → (m.body l).Backed needs backs v)
    (h : PoolBacked exempt needs backs v c) {mv : Move Label Tid Env}
    (hs : m.step mv c = some d)
    (hanswer : ∀ t env l o k, mv = .act t env → c.pool t = some ⟨l, .op o k⟩ → ¬ exempt l →
      backs o (m.effect t env o c.shared).1 → v) : PoolBacked exempt needs backs v d := by
  intro u th hu hl
  cases mv with
  | start t l =>
      rcases step_start_cases hs hu with ⟨-, rfl⟩ | ⟨-, hold⟩
      · exact hbody l hl
      · exact h u th hold hl
  | act t env =>
      obtain ⟨l, o, k, ha⟩ := step_act hs
      rcases ha.cases hu with ⟨rfl, rfl⟩ | ⟨lu, -, rfl⟩ | ⟨-, hold⟩
      · rcases m.resume_cases l (k (m.effect u env o c.shared).1) with ⟨l', -, hr⟩ | hr
        · rw [hr] at hl ⊢
          exact hbody l' hl
        · rw [hr] at hl ⊢
          exact ((h u _ ha.thread hl).2 _).mono (hanswer u env l o k rfl ha.thread hl)
      · exact hbody lu hl
      · exact h u th hold hl

/-- What each thread has still to run returns what its label's program may. -/
def PoolReturns (P : Label → Option Label → Prop) (c : Config Op Res Label Tid σ) : Prop :=
  ∀ t th, c.pool t = some th → th.code.Returns (P th.label)

theorem poolReturns_step {P : Label → Option Label → Prop}
    (hbody : ∀ l, (m.body l).Returns (P l)) (h : PoolReturns P c) {mv : Move Label Tid Env}
    (hs : m.step mv c = some d) : PoolReturns P d := by
  intro u th hu
  cases mv with
  | start t l =>
      rcases step_start_cases hs hu with ⟨-, rfl⟩ | ⟨-, hold⟩
      · exact hbody l
      · exact h u th hold
  | act t env =>
      obtain ⟨l, o, k, ha⟩ := step_act hs
      rcases ha.cases hu with ⟨rfl, rfl⟩ | ⟨lu, -, rfl⟩ | ⟨-, hold⟩
      · have hk := h u _ ha.thread (m.effect u env o c.shared).1
        rcases m.resume_cases l (k (m.effect u env o c.shared).1) with ⟨l', -, hr⟩ | hr
        · rw [hr]
          exact hbody l'
        · rw [hr]
          exact hk
      · exact hbody lu
      · exact h u th hold

/-- Only threads of the list are started or created. -/
def stays (m : Machine Op Res Label Tid σ Env) (us : List Tid) (c : Config Op Res Label Tid σ) :
    Move Label Tid Env → Bool
  | .start t _ => decide (t ∈ us)
  | .act t env =>
    (c.pool t).all fun th =>
      match th.code with
      | .ret _ => true
      | .op o _ => (m.spawn o (m.effect t env o c.shared).1 (m.effect t env o c.shared).2).all
          fun u => decide (u.1 ∈ us)

theorem pool_stays {us : List Tid} (h : m.Path (fun x mv => m.stays us x mv = true) c d)
    (hnew : ∀ t, c.pool t = none) {u : Tid} {th : Thread Op Res Label} (hu : d.pool u = some th) :
    u ∈ us := by
  refine h.invariant (I := fun x => ∀ u th, x.pool u = some th → u ∈ us) ?_ ?_ u th hu
  · intro x mv y hx hmv hs u th hu
    cases mv with
    | start t l =>
        rcases step_start_cases hs hu with ⟨rfl, -⟩ | ⟨-, hold⟩
        · exact of_decide_eq_true hmv
        · exact hx u th hold
    | act t env =>
        obtain ⟨l, o, k, ha⟩ := step_act hs
        rcases ha.cases hu with ⟨rfl, -⟩ | ⟨lu, hspawn, -⟩ | ⟨-, hold⟩
        · exact hx u _ ha.thread
        · rw [ha.shared] at hspawn
          simpa [stays, ha.thread, hspawn] using hmv
        · exact hx u th hold
  · intro u th hth
    cases (hnew u).symm.trans hth

end steps

end Machine

section projection
variable {Op : Type} {Res : Op → Type} {Label Tid σ σ' Env Env' : Type}

/-- `m'` runs the programs of `m` on a larger state, where it may be ready less
often. -/
structure Machine.Projects (m' : Machine Op Res Label Tid σ' Env')
    (m : Machine Op Res Label Tid σ Env) (f : σ' → σ) (g : Env' → Env) : Prop where
  body : m'.body = m.body
  entry : m'.entry = m.entry
  ready : ∀ {pool t env o s}, m'.ready pool t env o s = true →
    m.ready pool t (g env) o (f s) = true
  effect : ∀ t env o s, m.effect t (g env) o (f s) =
    ((m'.effect t env o s).1, f (m'.effect t env o s).2)
  spawn : ∀ o r s, m'.spawn o r s = m.spawn o r (f s)

def Config.project (f : σ' → σ) (c : Config Op Res Label Tid σ') : Config Op Res Label Tid σ :=
  ⟨f c.shared, c.pool⟩

def Move.project (g : Env' → Env) : Move Label Tid Env' → Move Label Tid Env
  | .start t l => .start t l
  | .act t env => .act t (g env)

variable [DecidableEq Tid] {m : Machine Op Res Label Tid σ Env}
  {m' : Machine Op Res Label Tid σ' Env'} {f : σ' → σ} {g : Env' → Env}
  {c d : Config Op Res Label Tid σ'}

omit [DecidableEq Tid] in
theorem Machine.Projects.resume (h : m'.Projects m f g) (l : Label)
    (p : Prog Op Res (Option Label)) : m.resume l p = m'.resume l p := by
  cases p with
  | ret a =>
      cases a with
      | none => rfl
      | some l' => rw [Machine.resume, Machine.resume, h.body]
  | op o k => rfl

theorem Machine.Projects.step (h : m'.Projects m f g) {mv : Move Label Tid Env'}
    (hs : m'.step mv c = some d) : m.step (mv.project g) (c.project f) = some (d.project f) := by
  cases mv with
  | start t l =>
      obtain ⟨hentry, hnew, rfl⟩ := Machine.step_start hs
      rw [h.entry] at hentry
      simp [Machine.step, Move.project, Config.project, hentry, hnew, h.body]
  | act t env =>
      obtain ⟨l, o, k, ha⟩ := Machine.step_act hs
      simp only [Machine.step, ha.thread, ha.ready, if_true, Machine.after] at hs
      simp only [Machine.step, Move.project, Config.project, ha.thread, h.ready ha.ready, if_true,
        Machine.after, h.effect, h.resume, ← h.spawn, ← h.body]
      split at hs
      · cases hs
        simp
      · split at hs
        · rename_i hfree
          cases hs
          simp [hfree]
        · cases hs

/-- A run of the larger machine is one of the smaller, with what its steps meet. -/
theorem Machine.Projects.path (h : m'.Projects m f g)
    {C : Config Op Res Label Tid σ → Move Label Tid Env → Prop}
    (hC : ∀ x mv y, m'.step mv x = some y → C (x.project f) (mv.project g))
    (hp : m'.Reachable c d) : m.Path C (c.project f) (d.project f) := by
  induction hp with
  | refl => exact .refl _
  | tail _ _ hs ih => exact .tail ih (hC _ _ _ hs) (h.step hs)

/-- A run of the larger machine is one of the smaller. -/
theorem Machine.Projects.reachable (h : m'.Projects m f g) (hp : m'.Reachable c d) :
    m.Reachable (c.project f) (d.project f) := by
  induction hp with
  | refl => exact .refl _
  | tail _ _ hs ih => exact .tail ih trivial (h.step hs)

end projection
end Concurrency

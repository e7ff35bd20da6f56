import AntHal.Concurrency.Machine

/-!
A thread on record.

Threads of one kind are created one at a time: who creates one records it, under a
lock and while nothing is recorded. A thread is taken off the record when it has
terminated, or by itself behind its loop. So a thread of the kind that has not left
its loop is the recorded one.
-/

namespace Concurrency

variable {Op : Type} {Res : Op → Type} {Label Tid σ Env : Type}

structure Registry (m : Machine Op Res Label Tid σ Env) where
  /-- The thread that holds the lock. -/
  owner : σ → Option Tid
  recorded : σ → Option Tid
  /-- The threads of the kind. -/
  member : Tid → Prop
  clears : Op → Prop
  creates : Op → Prop
  unlocks : Op → Prop
  /-- The blocks up to the end of the loop, and those behind it. -/
  within : Label → Prop
  left : Label → Prop
  apart : ∀ {l}, left l → ¬ within l
  entry : ∀ {t l}, m.entry t l = true → ¬ member t
  spawn : ∀ {t env o s u l},
    m.spawn o (m.effect t env o s).1 (m.effect t env o s).2 = some (u, l) →
      recorded (m.effect t env o s).2 = some u

namespace Registry

variable {m : Machine Op Res Label Tid σ Env} (R : Registry m) {c d : Config Op Res Label Tid σ}

/-- The rest of the program does not clear the record. -/
abbrev Leaves {α : Type} (p : Prog Op Res α) : Prop := p.Only (fun o => ¬ R.clears o) fun _ => True

/-- Behind the loop a thread that has created another one, or has released the lock,
leaves the record alone; in the loop it does so anyway. -/
structure ForgetsOnce (l : Label) (o : Op) (k : Res o → Prog Op Res (Option Label)) : Prop where
  behind : R.left l → R.creates o ∨ R.unlocks o → ∀ r, R.Leaves (k r)
  within : R.within l → ¬ R.clears o

/-- The blocks behind the loop are the last ones. -/
def EndsIfLeft (l : Label) (a : Option Label) : Prop := R.left l → a = none

/-- Where a thread of the kind stands towards the record. -/
inductive Standing (c : Config Op Res Label Tid σ) (t : Tid) (th : Thread Op Res Label) : Prop where
  | recorded (thread : R.recorded c.shared = some t)
  /-- It holds the lock and has forgotten itself. -/
  | forgotten (owner : R.owner c.shared = some t) (thread : R.recorded c.shared = none)
      (left : R.left th.label)
  | retired (left : R.left th.label) (rest : R.Leaves th.code)

def AllStand (c : Config Op Res Label Tid σ) : Prop :=
  ∀ t th, R.member t → c.pool t = some th → th.terminated = true ∨ R.Standing c t th

/-- The blocks that a thread of the kind may be in. -/
def Roles (c : Config Op Res Label Tid σ) : Prop :=
  ∀ t th, R.member t → c.pool t = some th → R.within th.label ∨ R.left th.label

/-- What a step does to the record and to the lock. -/
inductive Step (t : Tid) (o : Op) (c d : Config Op Res Label Tid σ) : Prop where
  | cleared (op : R.clears o) (thread : R.recorded d.shared = none)
      (owner : R.owner c.shared = some t) (same : R.owner d.shared = R.owner c.shared)
      (check : ¬ R.member t → ∀ u th, R.recorded c.shared = some u → c.pool u = some th →
        th.terminated = true)
  | created (op : R.creates o) (none : R.recorded c.shared = none)
      (owner : R.owner c.shared = some t)
  | unlocked (op : R.unlocks o) (thread : R.recorded d.shared = R.recorded c.shared)
      (owner : R.owner c.shared = some t)
  | kept (thread : R.recorded d.shared = R.recorded c.shared)
      (owner : ∀ u, R.owner c.shared = some u → R.owner d.shared = some u)

section step
variable {R} {t u : Tid} {l : Label} {o : Op} {k : Res o → Prog Op Res (Option Label)}
  {th : Thread Op Res Label}

/-- A thread of the kind in its loop is the recorded one. -/
theorem AllStand.recorded (h : R.AllStand c) (hu : R.member u) (hth : c.pool u = some th)
    (hlive : th.terminated = false) (hwithin : R.within th.label) :
    R.recorded c.shared = some u := by
  rcases h u th hu hth with hend | hstand
  · cases hlive.symm.trans hend
  cases hstand with
  | recorded thread => exact thread
  | forgotten _ _ left => exact absurd hwithin (R.apart left)
  | retired left _ => exact absurd hwithin (R.apart left)

/-- Another thread's step. -/
theorem standing_other (hI : R.AllStand c) (hstep : R.Step t o c d) (hu : R.member u)
    (hth : c.pool u = some th) (hut : u ≠ t) (hact : c.pool t = some ⟨l, .op o k⟩) :
    th.terminated = true ∨ R.Standing d u th := by
  rcases hI u th hu hth with hend | hold
  · exact .inl hend
  cases hold with
  | retired left rest => exact .inr (.retired left rest)
  | forgotten owner thread left =>
      cases hstep with
      | cleared op thread' owner' same check =>
          exact absurd (Option.some.inj (owner.symm.trans owner')) hut
      | created op none owner' => exact absurd (Option.some.inj (owner.symm.trans owner')) hut
      | unlocked op thread' owner' => exact absurd (Option.some.inj (owner.symm.trans owner')) hut
      | kept thread' owner' => exact .inr (.forgotten (owner' u owner) (thread'.trans thread) left)
  | recorded thread =>
      cases hstep with
      | created op none owner => cases thread.symm.trans none
      | unlocked op thread' owner => exact .inr (.recorded (thread'.trans thread))
      | kept thread' owner => exact .inr (.recorded (thread'.trans thread))
      | cleared op thread' owner same check =>
          by_cases hmember : R.member t
          · rcases hI t _ hmember hact with hend | hstand
            · cases hend
            cases hstand with
            | recorded thread'' => exact absurd (Option.some.inj (thread.symm.trans thread'')) hut
            | forgotten _ thread'' _ => cases thread.symm.trans thread''
            | retired _ rest => exact absurd op ((Prog.only_op _ _).mp rest).1
          · exact .inl (check hmember u th thread hth)

/-- The thread's own step, as long as its block goes on. -/
theorem standing_self (hold : R.Standing c t ⟨l, .op o k⟩) (hstep : R.Step t o c d)
    (honce : R.ForgetsOnce l o k) (hrole : R.within l ∨ R.left l) (r : Res o) :
    R.Standing d t ⟨l, k r⟩ := by
  cases hold with
  | retired left rest => exact .retired left (((Prog.only_op _ _).mp rest).2 r)
  | forgotten owner thread left =>
      cases hstep with
      | cleared op thread' owner' same check => exact .forgotten (same.trans owner) thread' left
      | created op none owner' => exact .retired left (honce.behind left (.inl op) r)
      | unlocked op thread' owner' => exact .retired left (honce.behind left (.inr op) r)
      | kept thread' owner' => exact .forgotten (owner' t owner) (thread'.trans thread) left
  | recorded thread =>
      cases hstep with
      | created op none owner => cases thread.symm.trans none
      | unlocked op thread' owner => exact .recorded (thread'.trans thread)
      | kept thread' owner => exact .recorded (thread'.trans thread)
      | cleared op thread' owner same check =>
          refine .forgotten (same.trans owner) thread' (hrole.resolve_left fun hwithin => ?_)
          exact honce.within hwithin op

/-- A block of a thread in the loop that ends is followed by the next one. -/
theorem standing_resume {p : Prog Op Res (Option Label)} (hends : p.Returns (R.EndsIfLeft l))
    (h : R.Standing c t ⟨l, p⟩) : R.Standing c t (m.resume l p) := by
  rcases m.resume_cases l p with ⟨l', rfl, hresume⟩ | hresume
  · have hnot : ¬ R.left l := fun hl => by cases hends hl
    rw [hresume]
    cases h with
    | recorded thread => exact .recorded thread
    | forgotten _ _ left => exact absurd left hnot
    | retired left _ => exact absurd left hnot
  · rw [hresume]
    exact h

variable [DecidableEq Tid]

theorem allStand_step (hI : R.AllStand c) (hpool : Machine.PoolAlways R.ForgetsOnce c)
    (hends : Machine.PoolReturns R.EndsIfLeft c) (hroles : R.Roles c) {mv : Move Label Tid Env}
    (hstep : ∀ t env l o k, mv = .act t env → m.Acts t env c d l o k → R.Step t o c d)
    (hs : m.step mv c = some d) : R.AllStand d := by
  intro u th hu hth
  cases mv with
  | start t l =>
      obtain ⟨hentry, -, rfl⟩ := Machine.step_start hs
      rcases Machine.step_start_cases hs hth with ⟨rfl, -⟩ | ⟨-, hold⟩
      · exact absurd hu (R.entry hentry)
      · refine (hI u th hu hold).imp_right fun hstand => ?_
        cases hstand with
        | recorded thread => exact .recorded thread
        | forgotten owner thread left => exact .forgotten owner thread left
        | retired left rest => exact .retired left rest
  | act t env =>
      obtain ⟨l, o, k, ha⟩ := Machine.step_act hs
      rcases ha.cases hth with ⟨rfl, rfl⟩ | ⟨lu, hspawn, -⟩ | ⟨hut, hold⟩
      · rcases hI u _ hu ha.thread with hend | hold
        · cases hend
        have hself := standing_self hold (hstep u env l o k rfl ha) (hpool u _ ha.thread).1
          (hroles u _ hu ha.thread) (m.effect u env o c.shared).1
        exact .inr (standing_resume (hends u _ ha.thread _) hself)
      · refine .inr (.recorded ?_)
        rw [ha.shared] at hspawn ⊢
        exact R.spawn hspawn
      · exact standing_other hI (hstep t env l o k rfl ha) hu hold hut ha.thread

/-- In every run whose steps are of these kinds, every thread of the kind stands in
one of these ways towards the record. -/
theorem allStand_path {C : Config Op Res Label Tid σ → Move Label Tid Env → Prop}
    (hbody : ∀ l, (m.body l).Always (R.ForgetsOnce l))
    (hends : ∀ l, (m.body l).Returns (R.EndsIfLeft l))
    (hroles : ∀ x, m.Path C c x → R.Roles x)
    (hstep : ∀ x y t env l o k, m.Path C c x → C x (.act t env) → m.Acts t env x y l o k →
      R.Step t o x y)
    (hnew : ∀ t, c.pool t = none) (hp : m.Path C c d) : R.AllStand d := by
  have hI : m.Path C c d ∧ R.AllStand d ∧ Machine.PoolAlways R.ForgetsOnce d ∧
      Machine.PoolReturns R.EndsIfLeft d := by
    refine hp.invariant (I := fun x => m.Path C c x ∧ R.AllStand x ∧
      Machine.PoolAlways R.ForgetsOnce x ∧ Machine.PoolReturns R.EndsIfLeft x) ?_
      ⟨.refl c, ?_, ?_, ?_⟩
    · rintro x mv y ⟨hx, hstand, hpool, hreturns⟩ hC hs
      refine ⟨.tail hx hC hs, allStand_step hstand hpool hreturns (hroles x hx) ?_ hs,
        Machine.poolAlways_step hbody hpool hs, Machine.poolReturns_step hends hreturns hs⟩
      rintro t env l o k rfl ha
      exact hstep x y t env l o k hx hC ha
    · intro t th _ hth
      cases (hnew t).symm.trans hth
    · intro t th hth
      cases (hnew t).symm.trans hth
    · intro t th hth
      cases (hnew t).symm.trans hth
  exact hI.2.1

end step
end Registry
end Concurrency

import AntHal.Concurrency.Machine

/-!
What a thread owns.

A typestate says what a thread holds at each point of its program: a lock, a
descriptor, an answer it was given. It changes by the operations of the thread
itself, and no operation that is permitted takes from another thread what that
one holds. Unlike a lock invariant it may be held across the blocks of a thread.
-/

namespace Concurrency

variable {Op : Type} {Res : Op → Type} {Label Tid σ Env π : Type}

structure Typestate (m : Machine Op Res Label Tid σ Env) (π : Type) where
  /-- What a thread may do with what it holds. -/
  permits : π → Op → Prop
  next : π → (o : Op) → Res o → π
  /-- What a thread holds where a block begins. -/
  enters : Label → π → Prop
  owns : σ → Tid → π → Prop
  /-- The steps that a run may take. -/
  allow : Tid → Env → Op → σ → Prop
  entry : ∀ {t l}, m.entry t l = true → ∀ s, ∃ v, enters l v ∧ owns s t v
  spawn : ∀ {o r s u l}, m.spawn o r s = some (u, l) → ∃ v, enters l v ∧ owns s u v
  self : ∀ {env pool t o s v}, owns s t v → permits v o → m.ready pool t env o s = true →
    allow t env o s → owns (m.effect t env o s).2 t (next v o (m.effect t env o s).1)
  frame : ∀ {env pool t o s v u w}, owns s t v → permits v o → m.ready pool t env o s = true →
    allow t env o s → u ≠ t → owns s u w → owns (m.effect t env o s).2 u w

namespace Typestate

variable {m : Machine Op Res Label Tid σ Env} {α β : Type}

/-- The program is permitted all it does, and what it returns fits what it holds. -/
def Sat (T : Typestate m π) (Q : α → π → Prop) : π → Prog Op Res α → Prop
  | v, .ret a => Q a v
  | v, .op o k => T.permits v o ∧ ∀ r, T.Sat Q (T.next v o r) (k r)

section rules
variable (T : Typestate m π) {Q R : α → π → Prop} {v : π}

theorem Sat.mono {p : Prog Op Res α} (h : T.Sat Q v p) (hQR : ∀ a w, Q a w → R a w) :
    T.Sat R v p := by
  induction p generalizing v with
  | ret a => exact hQR a v h
  | op o k ih => exact ⟨h.1, fun r => ih r (h.2 r)⟩

theorem sat_bind {p : Prog Op Res α} {f : α → Prog Op Res β} {Q : β → π → Prop}
    (h : T.Sat (fun a w => T.Sat Q w (f a)) v p) : T.Sat Q v (p >>= f) := by
  induction p generalizing v with
  | ret a => exact h
  | op o k ih => exact ⟨h.1, fun r => ih r (h.2 r)⟩

/-- Operations that change nothing of what is held. -/
theorem sat_only {p : Prog Op Res α} {P : Op → Prop} {Q : α → Prop} (h : p.Only P Q)
    (hP : ∀ o, P o → T.permits v o ∧ ∀ r, T.next v o r = v) :
    T.Sat (fun a w => w = v ∧ Q a) v p := by
  induction p with
  | ret a => exact ⟨rfl, h⟩
  | op o k ih =>
      obtain ⟨ho, hk⟩ := (Prog.only_op o k).mp h
      obtain ⟨hpermits, hnext⟩ := hP o ho
      exact ⟨hpermits, fun r => (hnext r).symm ▸ ih r (hk r)⟩

/-- A check carries over to a typestate that sees less of what is held. -/
theorem Sat.map {Tid' σ' Env' ρ : Type} {m' : Machine Op Res Label Tid' σ' Env'} {T : Typestate m π}
    {T' : Typestate m' ρ} {R : α → ρ → Prop} {f : π → ρ} {p : Prog Op Res α} (h : T.Sat Q v p)
    (hpermits : ∀ w o, T.permits w o → T'.permits (f w) o)
    (hnext : ∀ w o r, T'.next (f w) o r = f (T.next w o r)) (hQ : ∀ a w, Q a w → R a (f w)) :
    T'.Sat R (f v) p := by
  induction p generalizing v with
  | ret a => exact hQ a v h
  | op o k ih => exact ⟨hpermits v o h.1, fun r => hnext v o r ▸ ih r (h.2 r)⟩

end rules

/-- A block ends with what the next one begins with. -/
def Done (T : Typestate m π) (a : Option Label) (v : π) : Prop := ∀ l, a = some l → T.enters l v

/-- The check of every block, needed once for each label. -/
def Checked (T : Typestate m π) : Prop :=
  ∀ l v, T.enters l v → T.Sat T.Done v (m.body l)

/-- Every thread holds what it needs for the rest of its program. -/
def Holds (T : Typestate m π) (c : Config Op Res Label Tid σ) : Prop :=
  ∀ t th, c.pool t = some th → ∃ v, T.owns c.shared t v ∧ T.Sat T.Done v th.code

/-- A move that the typestate is about. -/
def Allowed (T : Typestate m π) (c : Config Op Res Label Tid σ) : Move Label Tid Env → Prop
  | .start _ _ => True
  | .act t env => ∀ o, (c.pool t).bind Thread.head? = some o → T.allow t env o c.shared

variable {T : Typestate m π} {c d : Config Op Res Label Tid σ}

theorem Holds.permitted (h : T.Holds c) {t : Tid} {l : Label} {o : Op}
    {k : Res o → Prog Op Res (Option Label)} (hth : c.pool t = some ⟨l, .op o k⟩) :
    ∃ v, T.owns c.shared t v ∧ T.permits v o := by
  obtain ⟨v, howns, hsat⟩ := h t _ hth
  exact ⟨v, howns, hsat.1⟩

theorem sat_resume (hbody : T.Checked) {l : Label} {p : Prog Op Res (Option Label)} {v : π}
    (h : T.Sat T.Done v p) : T.Sat T.Done v (m.resume l p).code := by
  obtain ⟨l', rfl, hr⟩ | hr := m.resume_cases l p
  · rw [hr]
    exact hbody l' v (h l' rfl)
  · rw [hr]
    exact h

variable [DecidableEq Tid]

theorem holds_step (hbody : T.Checked) (h : T.Holds c) {mv : Move Label Tid Env}
    (hC : T.Allowed c mv) (hs : m.step mv c = some d) : T.Holds d := by
  intro u th hth
  cases mv with
  | start t l =>
      obtain ⟨hentry, -, hd⟩ := Machine.step_start hs
      have hshared : d.shared = c.shared := by rw [hd]
      rw [hshared]
      obtain ⟨rfl, rfl⟩ | ⟨-, hold⟩ := Machine.step_start_cases hs hth
      · obtain ⟨v, henters, howns⟩ := T.entry hentry c.shared
        exact ⟨v, howns, hbody l v henters⟩
      · exact h u th hold
  | act t env =>
      obtain ⟨l, o, k, ha⟩ := Machine.step_act hs
      have hallow : T.allow t env o c.shared := hC o (by rw [ha.thread]; rfl)
      obtain ⟨v, howns, hpermits, hsat⟩ := h t _ ha.thread
      obtain ⟨rfl, rfl⟩ | ⟨lu, hspawn, rfl⟩ | ⟨hut, hold⟩ := ha.cases hth
      · refine ⟨_, ?_, sat_resume hbody (hsat (m.effect u env o c.shared).1)⟩
        rw [ha.shared]
        exact T.self howns hpermits ha.ready hallow
      · obtain ⟨w, henters, hnew⟩ := T.spawn hspawn
        exact ⟨w, hnew, hbody lu w henters⟩
      · obtain ⟨w, hkept, hrest⟩ := h u th hold
        refine ⟨w, ?_, hrest⟩
        rw [ha.shared]
        exact T.frame howns hpermits ha.ready hallow hut hkept

theorem holds_path {C : Config Op Res Label Tid σ → Move Label Tid Env → Prop}
    (hbody : T.Checked) (hC : ∀ x mv, C x mv → T.Allowed x mv) (hnew : ∀ t, c.pool t = none)
    (hp : m.Path C c d) : T.Holds d := by
  refine hp.invariant (fun _ _ _ hx hc hs => holds_step hbody hx (hC _ _ hc) hs) ?_
  intro t th hth
  cases (hnew t).symm.trans hth

end Typestate
end Concurrency

import AntHal.Concurrency.Machine

/-!
What a thread still has to do.

A thread that takes a lock has to release it, and a thread that raises a flag has
to lower it. The obligation is read off the rest of its program. That of a lock is
handed from block to block, where a block ends with the lock.
-/

namespace Concurrency

variable {Op : Type} {Res : Op → Type} {Label Tid σ Env : Type}

section custody

/-- A lock whose owner releases it before it does anything that `stop` names. -/
structure Custody (m : Machine Op Res Label Tid σ Env) where
  owner : σ → Option Tid
  acquires : (o : Op) → Res o → Prop
  release : Op → Prop
  stop : Op → Prop
  /-- The blocks that begin with the lock. -/
  inside : Label → Prop
  effect : ∀ {pool t env o s u}, m.ready pool t env o s = true →
    owner (m.effect t env o s).2 = some u →
    (u = t ∧ acquires o (m.effect t env o s).1) ∨ (owner s = some u ∧ (u = t → ¬ release o))

namespace Custody

variable {m : Machine Op Res Label Tid σ Env}

/-- Along every path the lock is released, or handed to the next block. -/
def Owed (C : Custody m) (p : Prog Op Res (Option Label)) : Prop :=
  p.Until (fun _ _ => True) C.release C.stop fun a => ∃ l, a = some l ∧ C.inside l

/-- What has the lock behind an operation owes its release. -/
def Acquiring (C : Custody m) (o : Op) (k : Res o → Prog Op Res (Option Label)) : Prop :=
  ∀ r, C.acquires o r → C.Owed (k r)

structure Checked (C : Custody m) : Prop where
  acquiring : ∀ l, (m.body l).Always C.Acquiring
  inside : ∀ l, C.inside l → ∃ o k, m.body l = .op o k ∧ C.Owed (.op o k)

structure Holds (C : Custody m) (c : Config Op Res Label Tid σ) : Prop where
  acquiring : Machine.PoolAlways (fun _ => C.Acquiring) c
  owed : ∀ u, C.owner c.shared = some u → ∃ l o k, c.pool u = some ⟨l, .op o k⟩ ∧ C.Owed (.op o k)

variable {C : Custody m} {c d : Config Op Res Label Tid σ}

/-- The owner is at an operation, which is its release or may come before. -/
theorem Holds.head (h : C.Holds c) {u : Tid} (hu : C.owner c.shared = some u) :
    ∃ l o k, c.pool u = some ⟨l, .op o k⟩ ∧ (C.release o ∨ ¬ C.stop o) := by
  obtain ⟨l, o, k, hth, howed⟩ := h.owed u hu
  exact ⟨l, o, k, hth, howed.imp id And.left⟩

/-- What is owed is still owed when the block ends. -/
theorem owed_resume (hbody : C.Checked) (l : Label) {p : Prog Op Res (Option Label)}
    (h : C.Owed p) : ∃ l' o k, m.resume l p = ⟨l', .op o k⟩ ∧ C.Owed (.op o k) := by
  cases p with
  | op o k => exact ⟨l, o, k, rfl, h⟩
  | ret a =>
      obtain ⟨l', rfl, hl'⟩ := h
      obtain ⟨o, k, hcode, howed⟩ := hbody.inside l' hl'
      exact ⟨l', o, k, by simp only [Machine.resume, hcode], howed⟩

variable [DecidableEq Tid]

theorem owed_act (hbody : C.Checked) (h : C.Holds c) {t u : Tid} {env : Env} {l : Label} {o : Op}
    {k : Res o → Prog Op Res (Option Label)} (ha : m.Acts t env c d l o k)
    (hu : C.owner d.shared = some u) :
    ∃ l' o' k', d.pool u = some ⟨l', .op o' k'⟩ ∧ C.Owed (.op o' k') := by
  rw [ha.shared] at hu
  have hself {p : Prog Op Res (Option Label)} (hp : C.Owed p)
      (hcode : p = k (m.effect t env o c.shared).1) :
      ∃ l' o' k', d.pool t = some ⟨l', .op o' k'⟩ ∧ C.Owed (.op o' k') := by
    obtain ⟨l', o', k', hresume, howed⟩ := owed_resume hbody l hp
    exact ⟨l', o', k', by rw [ha.self.2, ← hcode, hresume], howed⟩
  rcases C.effect ha.ready hu with ⟨rfl, hgot⟩ | ⟨hold, hkept⟩
  · exact hself ((h.acquiring u _ ha.thread).1 _ hgot) rfl
  · obtain ⟨l₁, o₁, k₁, hth, howed⟩ := h.owed u hold
    by_cases hut : u = t
    · subst hut
      cases hth.symm.trans ha.thread
      obtain hrelease | ⟨-, hrest⟩ := howed
      · exact absurd hrelease (hkept rfl)
      · exact hself (hrest _ trivial) rfl
    · exact ⟨l₁, o₁, k₁, ha.kept hut hth, howed⟩

theorem holds_step (hbody : C.Checked) (h : C.Holds c) {mv : Move Label Tid Env}
    (hs : m.step mv c = some d) : C.Holds d := by
  refine ⟨Machine.poolAlways_step hbody.acquiring h.acquiring hs, fun u hu => ?_⟩
  cases mv with
  | start t l =>
      have hshared : d.shared = c.shared := by
        obtain ⟨-, -, rfl⟩ := Machine.step_start hs
        rfl
      obtain ⟨l', o, k, hth, howed⟩ := h.owed u (hshared ▸ hu)
      exact ⟨l', o, k, Machine.step_start_kept hs hth, howed⟩
  | act t env =>
      obtain ⟨l, o, k, ha⟩ := Machine.step_act hs
      exact owed_act hbody h ha hu

/-- In every run the owner of the lock owes its release. -/
theorem holds_reachable (hbody : C.Checked) (hfree : C.owner c.shared = none)
    (hnew : ∀ t, c.pool t = none) (h : m.Reachable c d) : C.Holds d := by
  refine h.invariant (fun _ _ _ hx _ hs => holds_step hbody hx hs)
    ⟨fun t th hth => ?_, fun u hu => ?_⟩
  · cases (hnew t).symm.trans hth
  · cases hfree.symm.trans hu

end Custody
end custody

section flag

/-- A flag that some operations raise, within some blocks, and others lower. -/
structure Flag (m : Machine Op Res Label Tid σ Env) where
  raised : σ → Bool
  raises : Op → Prop
  lowers : Op → Prop
  within : Label → Prop
  effect : ∀ t env o s, raised (m.effect t env o s).2 = true →
    raises o ∨ (raised s = true ∧ ¬ lowers o)

namespace Flag

variable {m : Machine Op Res Label Tid σ Env}

/-- The rest of a block that has raised the flag. -/
def Owed (F : Flag m) (l : Label) (p : Prog Op Res (Option Label)) : Prop :=
  F.within l ∧ p.Passes F.lowers

/-- Behind an operation that raises the flag comes one that lowers it. -/
def Raising (F : Flag m) (l : Label) (o : Op) (k : Res o → Prog Op Res (Option Label)) : Prop :=
  F.raises o → ∀ r, F.Owed l (k r)

/-- A raised flag is one that some thread will lower. -/
structure Holds (F : Flag m) (c : Config Op Res Label Tid σ) : Prop where
  raising : Machine.PoolAlways F.Raising c
  owed : F.raised c.shared = true → ∃ t th, c.pool t = some th ∧ F.Owed th.label th.code

variable {F : Flag m} {c d : Config Op Res Label Tid σ}

/-- A block does not end before it has lowered the flag. -/
theorem resume_owed {l : Label} {p : Prog Op Res (Option Label)} (h : F.Owed l p) :
    m.resume l p = ⟨l, p⟩ := by
  cases p with
  | ret a => exact h.2.elim
  | op o k => rfl

variable [DecidableEq Tid]

theorem owed_act (h : F.Holds c) {t : Tid} {env : Env} {l : Label} {o : Op}
    {k : Res o → Prog Op Res (Option Label)} (ha : m.Acts t env c d l o k)
    (hraised : F.raised d.shared = true) :
    ∃ u th, d.pool u = some th ∧ F.Owed th.label th.code := by
  have hself (hp : F.Owed l (k (m.effect t env o c.shared).1)) :
      ∃ u th, d.pool u = some th ∧ F.Owed th.label th.code :=
    ⟨t, _, ha.self.2, by rw [resume_owed hp]; exact hp⟩
  rw [ha.shared] at hraised
  rcases F.effect t env o c.shared hraised with hraise | ⟨hold, hkeeps⟩
  · exact hself ((h.raising t _ ha.thread).1 hraise _)
  · obtain ⟨u, th, hth, hwithin, hpass⟩ := h.owed hold
    by_cases hut : u = t
    · subst hut
      cases hth.symm.trans ha.thread
      exact hself ⟨hwithin, hpass.resolve_left hkeeps _⟩
    · exact ⟨u, th, ha.kept hut hth, hwithin, hpass⟩

theorem holds_step (hbody : ∀ l, (m.body l).Always (F.Raising l)) (h : F.Holds c)
    {mv : Move Label Tid Env} (hs : m.step mv c = some d) : F.Holds d := by
  refine ⟨Machine.poolAlways_step hbody h.raising hs, fun hraised => ?_⟩
  cases mv with
  | start t l =>
      have hshared : d.shared = c.shared := by
        obtain ⟨-, -, rfl⟩ := Machine.step_start hs
        rfl
      obtain ⟨u, th, hth, howed⟩ := h.owed (hshared ▸ hraised)
      exact ⟨u, th, Machine.step_start_kept hs hth, howed⟩
  | act t env =>
      obtain ⟨l, o, k, ha⟩ := Machine.step_act hs
      exact owed_act h ha hraised

theorem holds_reachable (hbody : ∀ l, (m.body l).Always (F.Raising l))
    (hlow : F.raised c.shared = false) (hnew : ∀ t, c.pool t = none) (h : m.Reachable c d) :
    F.Holds d := by
  refine h.invariant (fun _ _ _ hx _ hs => holds_step hbody hx hs)
    ⟨fun t th hth => ?_, fun hup => ?_⟩
  · cases (hnew t).symm.trans hth
  · cases hlow.symm.trans hup

end Flag
end flag
end Concurrency

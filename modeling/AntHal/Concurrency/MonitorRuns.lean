import AntHal.Concurrency.Monitor

/-!
Soundness of the check of a monitor.

A program is checked once, by itself. `Holds` is what the checks of all threads
mean in one state, with what each of them knows about the guarded part;
`holds_step` is the soundness for every interleaving.
-/

namespace Concurrency
namespace Monitor

variable {Op : Type} {Res : Op → Type} {Label Tid σ Env π : Type}
  {m : Machine Op Res Label Tid σ Env} {α β : Type} (M : Monitor m π) (t : Tid)

/-- A move that the monitor is about. -/
def Allowed (c : Config Op Res Label Tid σ) : Move Label Tid Env → Prop
  | .start _ _ => True
  | .act t env => ∀ o, (c.pool t).bind Thread.head? = some o → M.allow t env o c.shared

theorem allowed_of_forall {M : Monitor m π} (h : ∀ t env o s, M.allow t env o s)
    (c : Config Op Res Label Tid σ) (mv : Move Label Tid Env) : M.Allowed c mv := by
  cases mv with
  | start t l => trivial
  | act t env => exact fun o _ => h t env o c.shared

variable [DecidableEq Tid]

/-- What thread `t` knows about the guarded part. -/
def view (c : Config Op Res Label Tid σ) : Option π :=
  if M.owner c.shared = some t then some (M.guarded c.shared) else none

structure Holds (M : Monitor m π) (c : Config Op Res Label Tid σ) : Prop where
  free : M.owner c.shared = none → M.inv (M.guarded c.shared)
  owner : ∀ t, M.owner c.shared = some t → (c.pool t).isSome
  roles : ∀ t th, c.pool t = some th → M.role t th.label
  threads : ∀ t th, c.pool t = some th → M.Sat t (M.Done t) (M.view t c) th.code

variable {M} {t} {c d : Config Op Res Label Tid σ}

theorem view_owner (h : M.owner c.shared = some t) :
    M.view t c = some (M.guarded c.shared) := by
  simp [view, h]

theorem view_other (h : M.owner c.shared ≠ some t) : M.view t c = none := by
  simp [view, h]

theorem Holds.view_absent (h : M.Holds c) (hnone : c.pool t = none) : M.view t c = none :=
  view_other fun howner => by simpa [hnone] using h.owner t howner

/-- A thread that has to release the lock before it takes it owns the lock. -/
theorem Holds.owner_of_owes (h : M.Holds c) (env : Env) (hallow : ∀ o, M.allow t env o c.shared)
    {l : Label} {p : Prog Op Res (Option Label)} (hth : c.pool t = some ⟨l, p⟩)
    (howes : p.Until (fun _ _ => True) (M.lockAct · = .unlock) (M.lockAct · = .lock)
      fun _ => False) : M.owner c.shared = some t := by
  by_contra hother
  have hs := h.threads t _ hth
  rw [view_other hother] at hs
  refine not_sat_owes M t (p := M.guarded c.shared) (fun o hact => ?_) howes hs
  obtain ⟨-, hreact⟩ := M.plain_spec t env c.shared hact (hallow o)
  exact ⟨_, _, hreact false (by simp [hother])⟩

/-- The operation the owner is about to perform is not the lock, and its
obligation is met. -/
theorem Holds.checks (h : M.Holds c) {l : Label} {o : Op}
    {k : Res o → Prog Op Res (Option Label)} (hth : c.pool t = some ⟨l, .op o k⟩)
    (ht : M.owner c.shared = some t) :
    M.lockAct o ≠ .lock ∧ M.check t o (M.guarded c.shared) := by
  have hs := h.threads t _ hth
  rw [view_owner ht] at hs
  cases hact : M.lockAct o with
  | plain =>
      rw [sat_plain_in M t hact] at hs
      exact ⟨LockAct.noConfusion, (hs _ (M.rely_refl _)).1⟩
  | lock => exact absurd hs (not_sat_lock_in M t hact)
  | unlock =>
      rw [sat_unlock_in M t hact] at hs
      exact ⟨LockAct.noConfusion, (hs _ (M.rely_refl _)).1⟩

/-- The owner is at an operation: no block ends inside the lock. -/
theorem Holds.head (h : M.Holds c) (ht : M.owner c.shared = some t) :
    ∃ l o k, c.pool t = some ⟨l, .op o k⟩ := by
  obtain ⟨⟨l, code⟩, hth⟩ := Option.isSome_iff_exists.mp (h.owner t ht)
  have hs := h.threads t _ hth
  rw [view_owner ht] at hs
  cases code with
  | ret a => cases (hs _ (M.rely_refl _)).1
  | op o k => exact ⟨l, o, k, hth⟩

/-- The owner is about to perform an operation, and its obligation is met. -/
theorem Holds.checked (h : M.Holds c) (ht : M.owner c.shared = some t) :
    ∃ l o k, c.pool t = some ⟨l, .op o k⟩ ∧ M.check t o (M.guarded c.shared) := by
  obtain ⟨l, o, k, hth⟩ := h.head ht
  exact ⟨l, o, k, hth, (h.checks hth ht).2⟩

/-- Who is about to break the rely owns the lock. -/
theorem Holds.inside (h : M.Holds c) {l : Label} {o : Op}
    {k : Res o → Prog Op Res (Option Label)} (hth : c.pool t = some ⟨l, .op o k⟩)
    (hact : M.lockAct o = .plain) (p p' : π) (r : Res o) (hreact : M.react false o p r p')
    (hbreaks : ¬ M.rely p p') :
    M.owner c.shared = some t ∧ M.check t o (M.guarded c.shared) := by
  have howner : M.owner c.shared = some t := by
    by_contra hother
    have hs := h.threads t _ hth
    rw [view_other hother, sat_plain_out M t hact] at hs
    exact hbreaks (hs p r p' hreact).1
  exact ⟨howner, (h.checks hth howner).2⟩

/-- What a step does to the lock and to what it guards. -/
inductive LockStep (M : Monitor m π) (t : Tid) (o : Op) (r : Res o)
    (c d : Config Op Res Label Tid σ) : Prop where
  | plain (act : M.lockAct o = .plain) (same : M.owner d.shared = M.owner c.shared)
      (reacts : ∀ inside : Bool, (inside = true ↔ M.owner c.shared = some t) →
        M.react inside o (M.guarded c.shared) r (M.guarded d.shared))
  | locked (act : M.lockAct o = .lock) (answer : M.lockAnswer o r true)
      (free : M.owner c.shared = none) (mine : M.owner d.shared = some t)
      (kept : M.guarded d.shared = M.guarded c.shared)
  | refused (act : M.lockAct o = .lock) (answer : M.lockAnswer o r false)
      (other : M.owner c.shared ≠ some t) (same : M.owner d.shared = M.owner c.shared)
      (kept : M.guarded d.shared = M.guarded c.shared)
  | unlocked (act : M.lockAct o = .unlock) (mine : M.owner c.shared = some t)
      (free : M.owner d.shared = none) (kept : M.guarded d.shared = M.guarded c.shared)

section step
variable {env : Env} {l : Label} {o : Op} {k : Res o → Prog Op Res (Option Label)}

theorem lockStep (h : M.Holds c) (ha : m.Acts t env c d l o k)
    (hallow : M.allow t env o c.shared) :
    M.LockStep t o (m.effect t env o c.shared).1 c d := by
  have hs := h.threads t _ ha.thread
  have hd := ha.shared
  cases hact : M.lockAct o with
  | plain =>
      obtain ⟨hsame, hreact⟩ := M.plain_spec t env c.shared hact hallow
      rw [← hd] at hsame hreact
      exact .plain hact hsame hreact
  | lock =>
      obtain ⟨hg, hans⟩ := M.lock_spec env hact ha.ready hallow
      rw [← hd] at hg hans
      have hown : M.owner c.shared ≠ some t := by
        intro hown
        rw [view_owner hown] at hs
        exact not_sat_lock_in M t hact hs
      obtain ⟨hgot, hfree, hmine⟩ | ⟨hgot, hsame⟩ := hans
      · exact .locked hact hgot hfree hmine hg
      · exact .refused hact hgot hown hsame hg
  | unlock =>
      obtain ⟨hg, hfree⟩ := M.unlock_spec t env c.shared hact
      rw [← hd] at hg hfree
      have hown : M.owner c.shared = some t := by
        by_contra hown
        rw [view_other hown] at hs
        exact not_sat_unlock_out M t hact hs
      exact .unlocked hact hown hfree hg

/-- A thread that does not own the lock stays within the rely. -/
theorem rely_step (h : M.Holds c) (ha : m.Acts t env c d l o k)
    (hallow : M.allow t env o c.shared) (ht : M.owner c.shared ≠ some t) :
    M.rely (M.guarded c.shared) (M.guarded d.shared) := by
  have hs := h.threads t _ ha.thread
  rw [view_other ht] at hs
  cases lockStep h ha hallow with
  | plain act same reacts =>
      rw [sat_plain_out M t act] at hs
      exact (hs _ _ _ (reacts false (by simp [ht]))).1
  | locked act answer free mine kept => exact kept ▸ M.rely_refl _
  | refused act answer other same kept => exact kept ▸ M.rely_refl _
  | unlocked act mine free kept => exact absurd mine ht

/-- The rest of the acting thread's program checks, with its new view. -/
theorem sat_next (h : M.Holds c) (ha : m.Acts t env c d l o k)
    (hallow : M.allow t env o c.shared) :
    M.Sat t (M.Done t) (M.view t d) (k (m.effect t env o c.shared).1) := by
  have hs := h.threads t _ ha.thread
  cases lockStep h ha hallow with
  | plain act same reacts =>
      by_cases hown : M.owner c.shared = some t
      · rw [view_owner hown, sat_plain_in M t act] at hs
        rw [view_owner (same.trans hown)]
        exact (hs _ (M.rely_refl _)).2 _ _ (reacts true (by simp [hown]))
      · rw [view_other hown, sat_plain_out M t act] at hs
        rw [view_other (same ▸ hown)]
        exact (hs _ _ _ (reacts false (by simp [hown]))).2
  | locked act answer free mine kept =>
      rw [view_other (by simp [free]), sat_lock_out M t act] at hs
      rw [view_owner mine, kept]
      exact (hs _).1 answer _ (h.free free)
  | refused act answer other same kept =>
      rw [view_other other, sat_lock_out M t act] at hs
      rw [view_other (same ▸ other)]
      exact (hs _).2 answer
  | unlocked act mine free kept =>
      rw [view_owner mine, sat_unlock_in M t act] at hs
      rw [view_other (by simp [free])]
      exact (hs _ (M.rely_refl _)).2.2 _

/-- A free lock has its invariant: it was free before, or is released with it. -/
theorem inv_next (h : M.Holds c) (ha : m.Acts t env c d l o k)
    (hallow : M.allow t env o c.shared) (hfree : M.owner d.shared = none) :
    M.inv (M.guarded d.shared) := by
  have hkept : M.owner c.shared = none → M.inv (M.guarded d.shared) := fun hc =>
    M.inv_rely (h.free hc) (rely_step h ha hallow (by simp [hc]))
  cases lockStep h ha hallow with
  | plain act same reacts => exact hkept (same.symm.trans hfree)
  | locked act answer free mine kept => cases mine.symm.trans hfree
  | refused act answer other same kept => exact hkept (same.symm.trans hfree)
  | unlocked act mine free kept =>
      have hs := h.threads t _ ha.thread
      rw [view_owner mine, sat_unlock_in M t act] at hs
      rw [kept]
      exact (hs _ (M.rely_refl _)).2.1

theorem owner_next (h : M.Holds c) (ha : m.Acts t env c d l o k)
    (hallow : M.allow t env o c.shared) {u : Tid} (hu : M.owner d.shared = some u) :
    u = t ∨ M.owner c.shared = some u := by
  cases lockStep h ha hallow with
  | plain act same reacts => exact .inr (same.symm.trans hu)
  | locked act answer free mine kept => exact .inl (Option.some.inj (hu.symm.trans mine))
  | refused act answer other same kept => exact .inr (same.symm.trans hu)
  | unlocked act mine free kept => cases free.symm.trans hu

/-- What another thread has to run still checks. -/
theorem sat_other (h : M.Holds c) (ha : m.Acts t env c d l o k)
    (hallow : M.allow t env o c.shared) {u : Tid} (hut : u ≠ t)
    {prog : Prog Op Res (Option Label)} (hs : M.Sat u (M.Done u) (M.view u c) prog) :
    M.Sat u (M.Done u) (M.view u d) prog := by
  by_cases howner : M.owner c.shared = some u
  · have ht : M.owner c.shared ≠ some t := fun ht => hut (Option.some.inj (howner.symm.trans ht))
    have hrely := rely_step h ha hallow ht
    have hsame : M.owner d.shared = some u := by
      cases lockStep h ha hallow with
      | plain act same reacts => exact same.trans howner
      | locked act answer free mine kept => cases free.symm.trans howner
      | refused act answer other same kept => exact same.trans howner
      | unlocked act mine free kept => exact absurd mine ht
    rw [view_owner howner] at hs
    rw [view_owner hsame]
    exact hs.rely M u hrely
  · have hnot : M.owner d.shared ≠ some u := fun hd => by
      obtain rfl | hc := owner_next h ha hallow hd
      · exact hut rfl
      · exact howner hc
    rw [view_other howner] at hs
    rwa [view_other hnot]

end step

omit [DecidableEq Tid] in
private theorem rely_resume (hbody : M.Checked) {v : Option π} {l : Label}
    {prog : Prog Op Res (Option Label)} (hl : M.role t l) (h : M.Sat t (M.Done t) v prog) :
    M.role t (m.resume l prog).label ∧ M.Sat t (M.Done t) v (m.resume l prog).code := by
  unfold Machine.resume
  split
  · cases v with
    | none => exact ⟨h.2 _ rfl, hbody t _ (h.2 _ rfl)⟩
    | some p => cases (h p (M.rely_refl p)).1
  · exact ⟨hl, h⟩

private theorem rely_new (hbody : M.Checked) {l : Label} (hl : M.role t l)
    (hview : M.view t d = none) :
    M.role t l ∧ M.Sat t (M.Done t) (M.view t d) (m.body l) := by
  rw [hview]
  exact ⟨hl, hbody t l hl⟩

/-- Soundness: if every block checks, the check holds along every allowed run. -/
theorem holds_step (hbody : M.Checked) (h : M.Holds c) {mv : Move Label Tid Env}
    (hC : M.Allowed c mv) (hs : m.step mv c = some d) : M.Holds d := by
  cases mv with
  | start t l =>
      obtain ⟨hentry, hnew, hd⟩ := Machine.step_start hs
      have hshared : d.shared = c.shared := by rw [hd]
      have hview : ∀ u, M.view u d = M.view u c := fun u => by rw [view, hshared, view]
      have hthreads : ∀ u th, d.pool u = some th →
          M.role u th.label ∧ M.Sat u (M.Done u) (M.view u d) th.code := by
        intro u th hu
        obtain ⟨rfl, rfl⟩ | ⟨-, hold⟩ := Machine.step_start_cases hs hu
        · exact rely_new hbody (M.role_entry hentry) ((hview u).trans (h.view_absent hnew))
        · exact ⟨h.roles u th hold, (hview u).symm ▸ h.threads u th hold⟩
      refine ⟨hshared ▸ h.free, fun u hu => ?_, fun u th hu => (hthreads u th hu).1,
        fun u th hu => (hthreads u th hu).2⟩
      obtain ⟨th, hth⟩ := Option.isSome_iff_exists.mp (h.owner u (hshared ▸ hu))
      simp [Machine.step_start_kept hs hth]
  | act t env =>
      obtain ⟨l, o, k, ha⟩ := Machine.step_act hs
      have hallow : M.allow t env o c.shared := hC o (by rw [ha.thread]; rfl)
      have hthreads : ∀ u th, d.pool u = some th →
          M.role u th.label ∧ M.Sat u (M.Done u) (M.view u d) th.code := by
        intro u th hu
        obtain ⟨rfl, rfl⟩ | ⟨lu, hspawn, rfl⟩ | ⟨hut, hold⟩ := ha.cases hu
        · exact rely_resume hbody (h.roles u _ ha.thread) (sat_next h ha hallow)
        · have hnone := (ha.created u lu hspawn).1
          have hnot : M.owner d.shared ≠ some u := fun hd => by
            obtain rfl | hc := owner_next h ha hallow hd
            · cases hnone.symm.trans ha.thread
            · simpa [hnone] using h.owner u hc
          exact rely_new hbody (M.role_spawn hspawn) (view_other hnot)
        · exact ⟨h.roles u th hold, sat_other h ha hallow hut (h.threads u th hold)⟩
      refine ⟨inv_next h ha hallow, fun u hu => ?_, fun u th hu => (hthreads u th hu).1,
        fun u th hu => (hthreads u th hu).2⟩
      obtain rfl | howner := owner_next h ha hallow hu
      · simp [ha.self.2]
      · exact ha.exists u (h.owner u howner)

/-- A thread does not leave its block while it owns the lock. -/
theorem Holds.kept {env : Env} {l : Label} {o : Op} {k : Res o → Prog Op Res (Option Label)}
    (h : M.Holds c) (ha : m.Acts t env c d l o k) (hallow : M.allow t env o c.shared)
    (ht : M.owner d.shared = some t) :
    d.pool t = some ⟨l, k (m.effect t env o c.shared).1⟩ := by
  have hs := sat_next h ha hallow
  rw [view_owner ht] at hs
  rw [ha.self.2]
  cases hk : k (m.effect t env o c.shared).1 with
  | ret a =>
      rw [hk] at hs
      cases (hs _ (M.rely_refl _)).1
  | op o' k' => rfl

/-- The owner is in a block of the kind in which the lock is taken. -/
theorem owner_label_step {P : Label → Prop} (h : M.Holds c)
    (hpool : Machine.PoolAlways (fun l o _ => M.lockAct o = .lock → P l) c)
    (hP : ∀ u th, M.owner c.shared = some u → c.pool u = some th → P th.label)
    {mv : Move Label Tid Env} (hC : M.Allowed c mv) (hs : m.step mv c = some d) :
    ∀ u th, M.owner d.shared = some u → d.pool u = some th → P th.label := by
  intro u th hu hth
  cases mv with
  | start t l =>
      obtain ⟨-, hnew, hd⟩ := Machine.step_start hs
      rw [show d.shared = c.shared by rw [hd]] at hu
      obtain ⟨rfl, -⟩ | ⟨-, hold⟩ := Machine.step_start_cases hs hth
      · simpa [hnew] using h.owner u hu
      · exact hP u th hu hold
  | act t env =>
      obtain ⟨l, o, k, ha⟩ := Machine.step_act hs
      have hallow : M.allow t env o c.shared := hC o (by rw [ha.thread]; rfl)
      by_cases hut : u = t
      · subst hut
        rw [h.kept ha hallow hu] at hth
        obtain rfl := Option.some.inj hth
        cases lockStep h ha hallow with
        | plain act same reacts => exact hP u ⟨l, .op o k⟩ (same.symm.trans hu) ha.thread
        | locked act answer free mine kept => exact (hpool u _ ha.thread).1 act
        | refused act answer other same kept => exact absurd (same.symm.trans hu) other
        | unlocked act mine free kept => cases free.symm.trans hu
      · have howner : M.owner c.shared = some u := (owner_next h ha hallow hu).resolve_left hut
        obtain ⟨th', hth'⟩ := Option.isSome_iff_exists.mp (h.owner u howner)
        obtain rfl := Option.some.inj ((ha.kept hut hth').symm.trans hth)
        exact hP u th' howner hth'

theorem holds_path {C : Config Op Res Label Tid σ → Move Label Tid Env → Prop}
    (hbody : M.Checked) (hC : ∀ x mv, C x mv → M.Allowed x mv) (h : M.Holds c)
    (hp : m.Path C c d) : M.Holds d :=
  hp.invariant (fun _ _ _ hx hc hs => holds_step hbody hx (hC _ _ hc) hs) h

theorem owner_label {P : Label → Prop} {C : Config Op Res Label Tid σ → Move Label Tid Env → Prop}
    (hbody : M.Checked) (hC : ∀ x mv, C x mv → M.Allowed x mv)
    (hlock : ∀ l, (m.body l).Always fun o _ => M.lockAct o = .lock → P l)
    (h : M.Holds c) (hnew : ∀ t, c.pool t = none) (hp : m.Path C c d) :
    ∀ t th, M.owner d.shared = some t → d.pool t = some th → P th.label := by
  have hI : M.Holds d ∧ Machine.PoolAlways (fun l o _ => M.lockAct o = .lock → P l) d ∧
      ∀ t th, M.owner d.shared = some t → d.pool t = some th → P th.label := by
    refine hp.invariant (I := fun x => M.Holds x ∧
      Machine.PoolAlways (fun l o _ => M.lockAct o = .lock → P l) x ∧
        ∀ t th, M.owner x.shared = some t → x.pool t = some th → P th.label) ?_ ⟨h, ?_, ?_⟩
    · rintro x mv y ⟨hx, hpool, hP⟩ hCx hs
      exact ⟨holds_step hbody hx (hC x mv hCx) hs, Machine.poolAlways_step hlock hpool hs,
        owner_label_step hx hpool hP (hC x mv hCx) hs⟩
    · intro t th hth
      cases (hnew t).symm.trans hth
    · intro t th _ hth
      cases (hnew t).symm.trans hth
  exact hI.2.2

section sections

/-- The block at a label takes the lock, runs `prog` under it and ends with `tail`, which
begins with the release of the lock. -/
structure Section (M : Monitor m π) (l : Label) (prog : Prog Op Res α)
    (tail : α → Prog Op Res (Option Label)) (J : α → π → Prop) : Prop where
  locks : (m.body l).Always fun o k =>
    M.lockAct o = .lock → ∀ r, M.lockAnswer o r true → k r = prog >>= tail
  plain : prog.Only (M.lockAct · = .plain) fun _ => True
  triple : ∀ t, M.role t l → M.Triple t M.inv prog J
  releases : ∀ a, ∃ o k, tail a = .op o k ∧ M.lockAct o = .unlock

/-- The owner of the lock is at some point of the section. -/
def Within (M : Monitor m π) (t : Tid) (tail : α → Prog Op Res (Option Label))
    (J : α → π → Prop) (p : π) (code : Prog Op Res (Option Label)) : Prop :=
  ∃ prog : Prog Op Res α, code = prog >>= tail ∧
    prog.Only (M.lockAct · = .plain) (fun _ => True) ∧
    M.Sat t (fun a v => ∃ p', v = some p' ∧ J a p') (some p) prog

variable {l₀ : Label} {prog : Prog Op Res α} {tail : α → Prog Op Res (Option Label)}
  {J : α → π → Prop}

omit [DecidableEq Tid] in
/-- At the release the section has ended. -/
theorem Within.ended {p : π} {o : Op} {k : Res o → Prog Op Res (Option Label)}
    (h : M.Within t tail J p (.op o k)) (hact : M.lockAct o = .unlock) :
    ∃ a, tail a = .op o k ∧ J a p := by
  obtain ⟨q, hcode, honly, hsat⟩ := h
  cases q with
  | ret a =>
      obtain ⟨p', hp', hJ⟩ := hsat p (M.rely_refl p)
      cases hp'
      exact ⟨a, hcode.symm, hJ⟩
  | op o' k' =>
      cases hcode
      cases hact.symm.trans ((Prog.only_op _ _).mp honly).1

omit [DecidableEq Tid] in
/-- A plain operation of the owner is one of the section. -/
theorem Within.plain {p p' : π} {o : Op} {k : Res o → Prog Op Res (Option Label)} {r : Res o}
    (htail : ∀ a, ∃ o k, tail a = .op o k ∧ M.lockAct o = .unlock)
    (h : M.Within t tail J p (.op o k)) (hact : M.lockAct o = .plain)
    (hreact : M.react true o p r p') : M.Within t tail J p' (k r) := by
  obtain ⟨q, hcode, honly, hsat⟩ := h
  cases q with
  | ret a =>
      obtain ⟨o', k', hend, hunlock⟩ := htail a
      rw [Prog.ret_bind, hend] at hcode
      cases hcode
      cases hact.symm.trans hunlock
  | op o' k' =>
      cases hcode
      rw [sat_plain_in M t hact] at hsat
      exact ⟨k' r, rfl, ((Prog.only_op _ _).mp honly).2 r,
        (hsat p (M.rely_refl p)).2 r p' hreact⟩

/-- The owner of the lock, where it is in a block of this kind, is within its section. -/
theorem within_step (hsec : M.Section l₀ prog tail J) (h : M.Holds c)
    (hpool : Machine.PoolAlways (fun l o k => l = l₀ → M.lockAct o = .lock →
      ∀ r, M.lockAnswer o r true → k r = prog >>= tail) c)
    (hin : ∀ u p, M.owner c.shared = some u → c.pool u = some ⟨l₀, p⟩ →
      M.Within u tail J (M.guarded c.shared) p)
    {mv : Move Label Tid Env} (hC : M.Allowed c mv) (hs : m.step mv c = some d) :
    ∀ u p, M.owner d.shared = some u → d.pool u = some ⟨l₀, p⟩ →
      M.Within u tail J (M.guarded d.shared) p := by
  intro u p hu hp
  cases mv with
  | start t l =>
      obtain ⟨-, hnew, hd⟩ := Machine.step_start hs
      rw [show d.shared = c.shared by rw [hd]] at hu ⊢
      obtain ⟨rfl, -⟩ | ⟨-, hold⟩ := Machine.step_start_cases hs hp
      · simpa [hnew] using h.owner u hu
      · exact hin u p hu hold
  | act t env =>
      obtain ⟨l, o, k, ha⟩ := Machine.step_act hs
      have hallow : M.allow t env o c.shared := hC o (by rw [ha.thread]; rfl)
      by_cases hut : u = t
      · subst hut
        rw [h.kept ha hallow hu] at hp
        cases hp
        cases lockStep h ha hallow with
        | plain act same reacts =>
            have hmine : M.owner c.shared = some u := same.symm.trans hu
            exact (hin u _ hmine ha.thread).plain hsec.releases act (reacts true (by simp [hmine]))
        | locked act answer free mine kept =>
            rw [(hpool u _ ha.thread).1 rfl act _ answer, kept]
            exact ⟨prog, rfl, hsec.plain, hsec.triple u (h.roles u _ ha.thread) _ (h.free free)⟩
        | refused act answer other same kept => exact absurd (same.symm.trans hu) other
        | unlocked act mine free kept => cases free.symm.trans hu
      · have howner : M.owner c.shared = some u := (owner_next h ha hallow hu).resolve_left hut
        obtain ⟨th, hth⟩ := Option.isSome_iff_exists.mp (h.owner u howner)
        have hkept := ha.kept hut hth
        rw [hp] at hkept
        cases hkept
        obtain ⟨q, hcode, honly, hsat⟩ := hin u p howner hth
        have ht : M.owner c.shared ≠ some t := fun ht =>
          hut (Option.some.inj (howner.symm.trans ht))
        exact ⟨q, hcode, honly, hsat.rely M u (rely_step h ha hallow ht)⟩

/-- Where a thread is about to release the lock, its section has met its postcondition. -/
theorem Section.released {C : Config Op Res Label Tid σ → Move Label Tid Env → Prop}
    (hsec : M.Section l₀ prog tail J) (hbody : M.Checked) (hC : ∀ x mv, C x mv → M.Allowed x mv)
    (h : M.Holds c) (hnew : ∀ t, c.pool t = none) (hp : m.Path C c d) {o : Op}
    {k : Res o → Prog Op Res (Option Label)} (hth : d.pool t = some ⟨l₀, .op o k⟩)
    (hact : M.lockAct o = .unlock) : ∃ a, tail a = .op o k ∧ J a (M.guarded d.shared) := by
  have hlock : ∀ l, (m.body l).Always fun o k => l = l₀ → M.lockAct o = .lock →
      ∀ r, M.lockAnswer o r true → k r = prog >>= tail := by
    intro l
    by_cases hl : l = l₀
    · subst hl
      exact hsec.locks.mono fun _ _ hk _ => hk
    · exact Prog.always_of_forall fun _ _ heq => absurd heq hl
  have hI : M.Holds d ∧
      Machine.PoolAlways (fun l o k => l = l₀ → M.lockAct o = .lock →
        ∀ r, M.lockAnswer o r true → k r = prog >>= tail) d ∧
      ∀ u p, M.owner d.shared = some u → d.pool u = some ⟨l₀, p⟩ →
        M.Within u tail J (M.guarded d.shared) p := by
    refine hp.invariant (I := fun x => M.Holds x ∧
      Machine.PoolAlways (fun l o k => l = l₀ → M.lockAct o = .lock →
        ∀ r, M.lockAnswer o r true → k r = prog >>= tail) x ∧
      ∀ u p, M.owner x.shared = some u → x.pool u = some ⟨l₀, p⟩ →
        M.Within u tail J (M.guarded x.shared) p) ?_ ⟨h, ?_, ?_⟩
    · rintro x mv y ⟨hx, hpool, hin⟩ hCx hs
      exact ⟨holds_step hbody hx (hC x mv hCx) hs, Machine.poolAlways_step hlock hpool hs,
        within_step hsec hx hpool hin (hC x mv hCx) hs⟩
    · intro t th hth
      cases (hnew t).symm.trans hth
    · intro u p _ hth
      cases (hnew u).symm.trans hth
  obtain ⟨hholds, -, hin⟩ := hI
  have hmine : M.owner d.shared = some t := by
    by_contra hother
    have hs := hholds.threads t _ hth
    rw [view_other hother] at hs
    exact not_sat_unlock_out M t hact hs
  exact (hin t _ hmine hth).ended hact

end sections

end Monitor
end Concurrency

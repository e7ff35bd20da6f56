import AntHal.Concurrency.Machine

/-!
Lock invariants for interleaved programs.

A monitor is a lock together with the part of the shared state that it guards
and an invariant of that part. The threads outside the lock may change the
guarded part within a relation, the monitor's rely; where the rely is equality
only the owner of the lock changes it.

`Sat` reads a program against a monitor: outside the lock the program must stay
within the rely, taking the lock gives it any guarded value that meets the
invariant, and the invariant must be back when the lock is released. Inside the
lock the guarded part is known up to what the others may do to it.

A monitor may leave out steps: it is about the runs whose steps it allows.
-/

namespace Concurrency

/-- How an operation acts on the lock of a monitor. -/
inductive LockAct where
  | plain
  | lock
  | unlock
  deriving DecidableEq

variable {Op : Type} {Res : Op → Type} {Label Tid σ Env π : Type}

structure Monitor (m : Machine Op Res Label Tid σ Env) (π : Type) where
  owner : σ → Option Tid
  guarded : σ → π
  inv : π → Prop
  /-- What the threads outside the lock may do. -/
  rely : π → π → Prop
  rely_refl : ∀ p, rely p p
  rely_trans : ∀ {p q r}, rely p q → rely q r → rely p r
  inv_rely : ∀ {p q}, inv p → rely p q → inv q
  lockAct : Op → LockAct
  /-- What a locking operation may answer, with or without obtaining the lock. -/
  lockAnswer : (o : Op) → Res o → Bool → Prop
  /-- What a plain operation may answer and do to the guarded part, by a thread
  without or with the lock. -/
  react : (inside : Bool) → (o : Op) → π → Res o → π → Prop
  /-- An obligation on the operations performed while holding the lock. -/
  check : Tid → (o : Op) → π → Prop
  /-- The steps that a run may take. -/
  allow : Tid → Env → Op → σ → Prop
  role : Tid → Label → Prop
  role_entry : ∀ {t l}, m.entry t l = true → role t l
  role_spawn : ∀ {o r s u l}, m.spawn o r s = some (u, l) → role u l
  lock_spec : ∀ env {pool t o s}, lockAct o = .lock → m.ready pool t env o s = true →
    allow t env o s →
    guarded (m.effect t env o s).2 = guarded s ∧
    (lockAnswer o (m.effect t env o s).1 true ∧
        owner s = none ∧ owner (m.effect t env o s).2 = some t ∨
      lockAnswer o (m.effect t env o s).1 false ∧
        owner (m.effect t env o s).2 = owner s)
  unlock_spec : ∀ t env s {o}, lockAct o = .unlock →
    guarded (m.effect t env o s).2 = guarded s ∧ owner (m.effect t env o s).2 = none
  plain_spec : ∀ t env s {o}, lockAct o = .plain → allow t env o s →
    owner (m.effect t env o s).2 = owner s ∧
    ∀ inside : Bool, (inside = true ↔ owner s = some t) →
      react inside o (guarded s) (m.effect t env o s).1 (guarded (m.effect t env o s).2)

namespace Monitor

variable {m : Machine Op Res Label Tid σ Env} {α β : Type}

/-- The program of thread `t` respects the monitor: outside the lock it stays
within the rely, inside it knows the guarded part up to the rely. -/
def Sat (M : Monitor m π) (t : Tid) (Q : α → Option π → Prop) :
    Option π → Prog Op Res α → Prop
  | none, .ret a => Q a none
  | some p, .ret a => ∀ q, M.rely p q → Q a (some q)
  | v, .op o k =>
    match M.lockAct o, v with
    | .plain, none => ∀ p r p', M.react false o p r p' → M.rely p p' ∧ M.Sat t Q none (k r)
    | .plain, some p => ∀ q, M.rely p q →
        M.check t o q ∧ ∀ r q', M.react true o q r q' → M.Sat t Q (some q') (k r)
    | .lock, none => ∀ r,
        (M.lockAnswer o r true → ∀ p, M.inv p → M.Sat t Q (some p) (k r)) ∧
        (M.lockAnswer o r false → M.Sat t Q none (k r))
    | .lock, some _ => False
    | .unlock, none => False
    | .unlock, some p => ∀ q, M.rely p q →
        M.check t o q ∧ M.inv q ∧ ∀ r, M.Sat t Q none (k r)

variable (M : Monitor m π) (t : Tid)

section rules
variable {Q : α → Option π → Prop} {o : Op} {k : Res o → Prog Op Res α} {p : π}

@[simp] theorem sat_ret_out (a : α) :
    M.Sat t Q none (.ret a : Prog Op Res α) ↔ Q a none := Iff.rfl

@[simp] theorem sat_ret_in (a : α) :
    M.Sat t Q (some p) (.ret a : Prog Op Res α) ↔ ∀ q, M.rely p q → Q a (some q) := Iff.rfl

theorem sat_plain_out (h : M.lockAct o = .plain) :
    M.Sat t Q none (.op o k) ↔
      ∀ p r p', M.react false o p r p' → M.rely p p' ∧ M.Sat t Q none (k r) := by
  conv => lhs; unfold Sat
  rw [h]

theorem sat_plain_in (h : M.lockAct o = .plain) :
    M.Sat t Q (some p) (.op o k) ↔ ∀ q, M.rely p q →
      M.check t o q ∧ ∀ r q', M.react true o q r q' → M.Sat t Q (some q') (k r) := by
  conv => lhs; unfold Sat
  rw [h]

theorem sat_lock_out (h : M.lockAct o = .lock) :
    M.Sat t Q none (.op o k) ↔ ∀ r,
      (M.lockAnswer o r true → ∀ p, M.inv p → M.Sat t Q (some p) (k r)) ∧
      (M.lockAnswer o r false → M.Sat t Q none (k r)) := by
  conv => lhs; unfold Sat
  rw [h]

theorem not_sat_lock_in (h : M.lockAct o = .lock) : ¬ M.Sat t Q (some p) (.op o k) := by
  unfold Sat
  rw [h]
  exact id

theorem not_sat_unlock_out (h : M.lockAct o = .unlock) : ¬ M.Sat t Q none (.op o k) := by
  unfold Sat
  rw [h]
  exact id

theorem sat_unlock_in (h : M.lockAct o = .unlock) :
    M.Sat t Q (some p) (.op o k) ↔ ∀ q, M.rely p q →
      M.check t o q ∧ M.inv q ∧ ∀ r, M.Sat t Q none (k r) := by
  conv => lhs; unfold Sat
  rw [h]

/-- What the others do inside the rely does not spoil the check. -/
theorem Sat.rely {q : π} {prog : Prog Op Res α} (h : M.Sat t Q (some p) prog)
    (hpq : M.rely p q) : M.Sat t Q (some q) prog := by
  cases prog with
  | ret a => exact fun r hqr => h r (M.rely_trans hpq hqr)
  | op o k =>
      cases hact : M.lockAct o with
      | plain =>
          rw [sat_plain_in M t hact] at h ⊢
          exact fun r hqr => h r (M.rely_trans hpq hqr)
      | lock => exact absurd h (not_sat_lock_in M t hact)
      | unlock =>
          rw [sat_unlock_in M t hact] at h ⊢
          exact fun r hqr => h r (M.rely_trans hpq hqr)

theorem Sat.mono {Q' : α → Option π → Prop} {v : Option π} {prog : Prog Op Res α}
    (h : M.Sat t Q v prog) (hQ : ∀ a v', Q a v' → Q' a v') : M.Sat t Q' v prog := by
  induction prog generalizing v with
  | ret a =>
      cases v with
      | none => exact hQ a none h
      | some p => exact fun q hpq => hQ a _ (h q hpq)
  | op o k ih =>
      cases hact : M.lockAct o <;> cases v
      · rw [sat_plain_out M t hact] at h ⊢
        exact fun p r p' hr => ⟨(h p r p' hr).1, ih r (h p r p' hr).2⟩
      · rw [sat_plain_in M t hact] at h ⊢
        exact fun q hpq => ⟨(h q hpq).1, fun r q' hr => ih r ((h q hpq).2 r q' hr)⟩
      · rw [sat_lock_out M t hact] at h ⊢
        intro r
        exact ⟨fun hg p hp => ih r ((h r).1 hg p hp), fun hg => ih r ((h r).2 hg)⟩
      · exact absurd h (not_sat_lock_in M t hact)
      · exact absurd h (not_sat_unlock_out M t hact)
      · rw [sat_unlock_in M t hact] at h ⊢
        exact fun q hpq => ⟨(h q hpq).1, (h q hpq).2.1, fun r => ih r ((h q hpq).2.2 r)⟩

/-- What a program returns in any case it returns here. -/
theorem Sat.returns {R : α → Prop} {v : Option π} {prog : Prog Op Res α}
    (h : M.Sat t Q v prog) (hR : prog.Returns R) :
    M.Sat t (fun a v' => Q a v' ∧ R a) v prog := by
  induction prog generalizing v with
  | ret a =>
      cases v with
      | none => exact ⟨h, hR⟩
      | some p => exact fun q hpq => ⟨h q hpq, hR⟩
  | op o k ih =>
      cases hact : M.lockAct o <;> cases v
      · rw [sat_plain_out M t hact] at h ⊢
        exact fun p r p' hr => ⟨(h p r p' hr).1, ih r (h p r p' hr).2 (hR r)⟩
      · rw [sat_plain_in M t hact] at h ⊢
        exact fun q hpq => ⟨(h q hpq).1, fun r q' hr => ih r ((h q hpq).2 r q' hr) (hR r)⟩
      · rw [sat_lock_out M t hact] at h ⊢
        intro r
        exact ⟨fun hg p hp => ih r ((h r).1 hg p hp) (hR r), fun hg => ih r ((h r).2 hg) (hR r)⟩
      · exact absurd h (not_sat_lock_in M t hact)
      · exact absurd h (not_sat_unlock_out M t hact)
      · rw [sat_unlock_in M t hact] at h ⊢
        exact fun q hpq => ⟨(h q hpq).1, (h q hpq).2.1, fun r => ih r ((h q hpq).2.2 r) (hR r)⟩

/-- The sequencing rule. -/
theorem sat_bind {Q : β → Option π → Prop} {v : Option π} {prog : Prog Op Res α}
    {f : α → Prog Op Res β}
    (h : M.Sat t (fun a v' => M.Sat t Q v' (f a)) v prog) : M.Sat t Q v (prog >>= f) := by
  induction prog generalizing v with
  | ret a =>
      cases v with
      | none => exact h
      | some p => exact h p (M.rely_refl p)
  | op o k ih =>
      rw [Prog.op_bind]
      cases hact : M.lockAct o <;> cases v
      · rw [sat_plain_out M t hact] at h ⊢
        exact fun p r p' hr => ⟨(h p r p' hr).1, ih r (h p r p' hr).2⟩
      · rw [sat_plain_in M t hact] at h ⊢
        exact fun q hpq => ⟨(h q hpq).1, fun r q' hr => ih r ((h q hpq).2 r q' hr)⟩
      · rw [sat_lock_out M t hact] at h ⊢
        intro r
        exact ⟨fun hg p hp => ih r ((h r).1 hg p hp), fun hg => ih r ((h r).2 hg)⟩
      · exact absurd h (not_sat_lock_in M t hact)
      · exact absurd h (not_sat_unlock_out M t hact)
      · rw [sat_unlock_in M t hact] at h ⊢
        exact fun q hpq => ⟨(h q hpq).1, (h q hpq).2.1, fun r => ih r ((h q hpq).2.2 r)⟩

/-- A program that has to release the lock before it takes it is not outside. -/
theorem not_sat_owes (hstep : ∀ o, M.lockAct o = .plain → ∃ r p', M.react false o p r p')
    {prog : Prog Op Res α}
    (howes : prog.Until (fun _ _ => True) (M.lockAct · = .unlock) (M.lockAct · = .lock)
      fun _ => False) : ¬ M.Sat t Q none prog := by
  induction prog with
  | ret a => exact howes.elim
  | op o k ih =>
      intro h
      rcases howes with hunlock | ⟨hlock, hk⟩
      · exact not_sat_unlock_out M t hunlock h
      · cases hact : M.lockAct o with
        | plain =>
            obtain ⟨r, p', hr⟩ := hstep o hact
            rw [sat_plain_out M t hact] at h
            exact ih r (hk r trivial) (h p r p' hr).2
        | lock => exact hlock hact
        | unlock => exact not_sat_unlock_out M t hact h

end rules

section steady
variable {M t}

/-- An assertion that the others cannot spoil. -/
def Stable (M : Monitor m π) (I : π → Prop) : Prop :=
  ∀ p q, I p → M.rely p q → I q

/-- Only the owner of the lock changes the guarded part, and so knows it. -/
def Exact (M : Monitor m π) : Prop :=
  ∀ p q, M.rely p q → q = p

/-- Where nobody else changes the guarded part, every assertion is stable. -/
theorem Exact.stable (hM : M.Exact) (I : π → Prop) : M.Stable I := by
  intro p q hp hq
  rw [hM p q hq]
  exact hp

/-- From `I` inside the lock the program ends inside the lock, with `J`. -/
def Triple (M : Monitor m π) (t : Tid) (I : π → Prop) (prog : Prog Op Res α)
    (J : α → π → Prop) : Prop :=
  ∀ p, I p → M.Sat t (fun a v => ∃ p', v = some p' ∧ J a p') (some p) prog

section triple
variable {I : π → Prop} {J : α → π → Prop}

theorem Triple.ret {a : α} (hI : M.Stable I) (h : ∀ p, I p → J a p) :
    M.Triple t I (.ret a : Prog Op Res α) J :=
  fun p hp q hq => ⟨q, rfl, h q (hI p q hp hq)⟩

theorem Triple.op {o : Op} {k : Res o → Prog Op Res α} {K : Res o → π → Prop}
    (hI : M.Stable I) (hact : M.lockAct o = .plain)
    (ho : ∀ p, I p → M.check t o p ∧ ∀ r p', M.react true o p r p' → K r p')
    (hk : ∀ r, M.Triple t (K r) (k r) J) : M.Triple t I (.op o k) J := by
  refine fun p hp => (M.sat_plain_in t hact).mpr fun q hq => ?_
  obtain ⟨hcheck, hreact⟩ := ho q (hI p q hp hq)
  exact ⟨hcheck, fun r q' hr => hk r q' (hreact r q' hr)⟩

theorem Triple.bind {J : β → π → Prop} {K : α → π → Prop} {prog : Prog Op Res α}
    {f : α → Prog Op Res β} (h : M.Triple t I prog K) (hf : ∀ a, M.Triple t (K a) (f a) J) :
    M.Triple t I (prog >>= f) J := by
  refine fun p hp => M.sat_bind t ((h p hp).mono M t fun a v hv => ?_)
  obtain ⟨p', rfl, hp'⟩ := hv
  exact hf a p' hp'

theorem Triple.mono {I' : π → Prop} {J' : α → π → Prop} {prog : Prog Op Res α}
    (h : M.Triple t I prog J) (hI : ∀ p, I' p → I p) (hJ : ∀ a p, J a p → J' a p) :
    M.Triple t I' prog J' := by
  refine fun p hp => (h p (hI p hp)).mono M t fun a v hv => ?_
  obtain ⟨p', rfl, hp'⟩ := hv
  exact ⟨p', rfl, hJ a p' hp'⟩

theorem Triple.ite {c : Prop} [Decidable c] {prog prog' : Prog Op Res α}
    (h : c → M.Triple t I prog J) (h' : ¬ c → M.Triple t I prog' J) :
    M.Triple t I (if c then prog else prog') J := by
  split
  · exact h ‹_›
  · exact h' ‹_›

/-- What every operation of the program keeps holds at its end. -/
theorem Triple.only {prog : Prog Op Res α} {P : Op → Prop} {Q : α → Prop} (hI : M.Stable I)
    (h : prog.Only P Q) (hP : ∀ o, P o → M.lockAct o = .plain ∧
      ∀ p, I p → M.check t o p ∧ ∀ r p', M.react true o p r p' → I p') :
    M.Triple t I prog fun a p => Q a ∧ I p := by
  induction prog with
  | ret a => exact .ret hI fun p hp => ⟨h, hp⟩
  | op o k ih =>
      obtain ⟨ho, hk⟩ := (Prog.only_op o k).mp h
      exact .op hI (hP o ho).1 (hP o ho).2 fun r => ih r (hk r)

/-- An operation that leaves the guarded part alone keeps what is known of it. -/
theorem Triple.unchanged {o : Op} {k : Res o → Prog Op Res α} (hI : M.Stable I)
    (hact : M.lockAct o = .plain) (hcheck : ∀ p, I p → M.check t o p)
    (hreact : ∀ p r p', M.react true o p r p' → p' = p) (hk : ∀ r, M.Triple t I (k r) J) :
    M.Triple t I (.op o k) J := by
  refine .op hI hact (fun p hp => ⟨hcheck p hp, fun r p' hr => ?_⟩) hk
  rw [hreact p r p' hr]
  exact hp

theorem Triple.unchanged_only {prog : Prog Op Res α} {P : Op → Prop} {Q : α → Prop}
    (hI : M.Stable I) (h : prog.Only P Q)
    (hP : ∀ o, P o → M.lockAct o = .plain ∧ (∀ p, I p → M.check t o p) ∧
      ∀ p r p', M.react true o p r p' → p' = p) : M.Triple t I prog fun _ => I := by
  refine (Triple.only hI h fun o ho => ?_).mono (fun _ hp => hp) fun _ _ hp => hp.2
  obtain ⟨hact, hcheck, hreact⟩ := hP o ho
  refine ⟨hact, fun p hp => ⟨hcheck p hp, fun r p' hr => ?_⟩⟩
  rw [hreact p r p' hr]
  exact hp

end triple

/-- The program runs outside the lock and stays within the rely. -/
def Outside (M : Monitor m π) (t : Tid) (prog : Prog Op Res α) : Prop :=
  M.Sat t (fun _ v => v = none) none prog

/-- The program runs inside the lock and gives the invariant back. -/
def Inside (M : Monitor m π) (t : Tid) (prog : Prog Op Res α) : Prop :=
  M.Triple t M.inv prog fun _ => M.inv

/-- From `I` inside the lock the program releases it. -/
def Releases (M : Monitor m π) (t : Tid) (I : π → Prop) (prog : Prog Op Res α) : Prop :=
  ∀ p, I p → M.Sat t (fun _ v => v = none) (some p) prog

/-- An operation that any thread may perform outside the lock. -/
def HarmlessOut (M : Monitor m π) (o : Op) : Prop :=
  M.lockAct o = .plain ∧ ∀ p r p', M.react false o p r p' → M.rely p p'

/-- An operation that keeps the invariant by itself. -/
def HarmlessIn (M : Monitor m π) (t : Tid) (o : Op) : Prop :=
  M.lockAct o = .plain ∧
    ∀ p, M.inv p → M.check t o p ∧ ∀ r p', M.react true o p r p' → M.inv p'

theorem harmlessIn_of_eq {o : Op} (hact : M.lockAct o = .plain)
    (hcheck : ∀ p, M.inv p → M.check t o p)
    (hreact : ∀ p r p', M.react true o p r p' → p' = p) : M.HarmlessIn t o := by
  refine ⟨hact, fun p hp => ⟨hcheck p hp, fun r p' hr => ?_⟩⟩
  rw [hreact p r p' hr]
  exact hp

theorem stable_inv : M.Stable M.inv := fun _ _ hp hq => M.inv_rely hp hq

theorem Outside.ret (a : α) : M.Outside t (.ret a : Prog Op Res α) := rfl

theorem Outside.op {o : Op} {k : Res o → Prog Op Res α} (h : M.HarmlessOut o)
    (hk : ∀ r, M.Outside t (k r)) : M.Outside t (.op o k) :=
  (M.sat_plain_out t h.1).mpr fun p r p' hr => ⟨h.2 p r p' hr, hk r⟩

theorem Outside.bind {prog : Prog Op Res α} {f : α → Prog Op Res β} (h : M.Outside t prog)
    (hf : ∀ a, M.Outside t (f a)) : M.Outside t (prog >>= f) := by
  refine M.sat_bind t (h.mono M t fun a v hv => ?_)
  subst hv
  exact hf a

theorem Outside.only {prog : Prog Op Res α} {P : Op → Prop} {Q : α → Prop}
    (h : prog.Only P Q) (hP : ∀ o, P o → M.HarmlessOut o) : M.Outside t prog := by
  induction prog with
  | ret a => exact .ret a
  | op o k ih =>
      obtain ⟨ho, hk⟩ := (Prog.only_op o k).mp h
      exact .op (hP o ho) fun r => ih r (hk r)

theorem Inside.ret (a : α) : M.Inside t (.ret a : Prog Op Res α) :=
  Triple.ret stable_inv fun _ hp => hp

theorem Inside.op {o : Op} {k : Res o → Prog Op Res α} (h : M.HarmlessIn t o)
    (hk : ∀ r, M.Inside t (k r)) : M.Inside t (.op o k) :=
  Triple.op stable_inv h.1 h.2 hk

theorem Inside.bind {prog : Prog Op Res α} {f : α → Prog Op Res β} (h : M.Inside t prog)
    (hf : ∀ a, M.Inside t (f a)) : M.Inside t (prog >>= f) :=
  Triple.bind h hf

theorem Inside.only {prog : Prog Op Res α} {P : Op → Prop} {Q : α → Prop}
    (h : prog.Only P Q) (hP : ∀ o, P o → M.HarmlessIn t o) : M.Inside t prog :=
  (Triple.only stable_inv h hP).mono (fun _ hp => hp) fun _ _ hp => hp.2

section releases
variable {I : π → Prop}

theorem Triple.releases {K : α → π → Prop} {prog : Prog Op Res α} {f : α → Prog Op Res β}
    (h : M.Triple t I prog K) (hf : ∀ a, M.Releases t (K a) (f a)) :
    M.Releases t I (prog >>= f) := by
  refine fun p hp => M.sat_bind t ((h p hp).mono M t fun a v hv => ?_)
  obtain ⟨p', rfl, hp'⟩ := hv
  exact hf a p' hp'

theorem Inside.releases {prog : Prog Op Res α} {f : α → Prog Op Res β} (h : M.Inside t prog)
    (hf : ∀ a, M.Releases t M.inv (f a)) : M.Releases t M.inv (prog >>= f) :=
  Triple.releases h hf

theorem Releases.plain {o : Op} {k : Res o → Prog Op Res α} {K : Res o → π → Prop}
    (hI : M.Stable I) (hact : M.lockAct o = .plain)
    (ho : ∀ p, I p → M.check t o p ∧ ∀ r p', M.react true o p r p' → K r p')
    (hk : ∀ r, M.Releases t (K r) (k r)) : M.Releases t I (.op o k) := by
  refine fun p hp => (M.sat_plain_in t hact).mpr fun q hq => ?_
  obtain ⟨hcheck, hreact⟩ := ho q (hI p q hp hq)
  exact ⟨hcheck, fun r q' hr => hk r q' (hreact r q' hr)⟩

theorem Releases.op {o : Op} {k : Res o → Prog Op Res α} (h : M.HarmlessIn t o)
    (hk : ∀ r, M.Releases t M.inv (k r)) : M.Releases t M.inv (.op o k) :=
  .plain stable_inv h.1 h.2 hk

theorem Releases.unlock {o : Op} {k : Res o → Prog Op Res α} (hI : M.Stable I)
    (hact : M.lockAct o = .unlock) (hfree : ∀ p, I p → M.check t o p ∧ M.inv p)
    (hk : ∀ r, M.Outside t (k r)) : M.Releases t I (.op o k) := by
  refine fun p hp => (M.sat_unlock_in t hact).mpr fun q hq => ?_
  obtain ⟨hcheck, hinv⟩ := hfree q (hI p q hp hq)
  exact ⟨hcheck, hinv, hk⟩

/-- A program that ends outside the lock is followed by one that starts there. -/
theorem Releases.bind {prog : Prog Op Res α} {f : α → Prog Op Res β} (h : M.Releases t I prog)
    (hf : ∀ a, M.Outside t (f a)) : M.Releases t I (prog >>= f) := by
  refine fun p hp => M.sat_bind t ((h p hp).mono M t fun a v hv => ?_)
  subst hv
  exact hf a

end releases

theorem Outside.lock {o : Op} {k : Res o → Prog Op Res α} (h : M.lockAct o = .lock)
    (hgot : ∀ r, M.lockAnswer o r true → M.Releases t M.inv (k r))
    (hnot : ∀ r, M.lockAnswer o r false → M.Outside t (k r)) : M.Outside t (.op o k) :=
  (M.sat_lock_out t h).mpr fun r => ⟨hgot r, hnot r⟩

end steady

/-- A block ends outside the lock and names a label its thread can be at. -/
def Done (a : Option Label) (v : Option π) : Prop :=
  v = none ∧ ∀ l, a = some l → M.role t l

/-- The check of every block, needed once for each label and role. -/
def Checked (M : Monitor m π) : Prop :=
  ∀ t l, M.role t l → M.Sat t (M.Done t) none (m.body l)

section transfer
variable {σ' Env' : Type} {m' : Machine Op Res Label Tid σ' Env'}

/-- The same rules for programs, where another machine keeps more in its state. -/
structure SameRules (M' : Monitor m' π) (M : Monitor m π) : Prop where
  body : m'.body = m.body
  inv : M'.inv = M.inv
  rely : M'.rely = M.rely
  lockAct : M'.lockAct = M.lockAct
  lockAnswer : M'.lockAnswer = M.lockAnswer
  react : M'.react = M.react
  check : M'.check = M.check
  role : M'.role = M.role

variable {M' : Monitor m' π} {M} {t}

theorem SameRules.sat (hs : M'.SameRules M) {Q : α → Option π → Prop} {v : Option π}
    {prog : Prog Op Res α} (h : M.Sat t Q v prog) : M'.Sat t Q v prog := by
  induction prog generalizing v with
  | ret a =>
      cases v with
      | none => exact h
      | some p => exact fun q hq => h q (hs.rely ▸ hq)
  | op o k ih =>
      have hsame : M'.lockAct o = M.lockAct o := congrFun hs.lockAct o
      cases hact : M.lockAct o <;> rw [hact] at hsame <;> cases v
      · rw [sat_plain_out M t hact] at h
        rw [sat_plain_out M' t hsame, hs.react, hs.rely]
        exact fun p r p' hr => ⟨(h p r p' hr).1, ih r (h p r p' hr).2⟩
      · rw [sat_plain_in M t hact] at h
        rw [sat_plain_in M' t hsame, hs.react, hs.rely, hs.check]
        exact fun q hpq => ⟨(h q hpq).1, fun r q' hr => ih r ((h q hpq).2 r q' hr)⟩
      · rw [sat_lock_out M t hact] at h
        rw [sat_lock_out M' t hsame, hs.lockAnswer, hs.inv]
        exact fun r => ⟨fun hg p hp => ih r ((h r).1 hg p hp), fun hg => ih r ((h r).2 hg)⟩
      · exact absurd h (not_sat_lock_in M t hact)
      · exact absurd h (not_sat_unlock_out M t hact)
      · rw [sat_unlock_in M t hact] at h
        rw [sat_unlock_in M' t hsame, hs.rely, hs.check, hs.inv]
        exact fun q hpq => ⟨(h q hpq).1, (h q hpq).2.1, fun r => ih r ((h q hpq).2.2 r)⟩

/-- Programs are checked once for all machines they run on. -/
theorem SameRules.checked (hs : M'.SameRules M) (h : M.Checked) : M'.Checked := by
  intro t l hl
  rw [hs.body]
  refine (hs.sat (h t l (hs.role ▸ hl))).mono M' t fun a v hv => ⟨hv.1, fun l' hl' => ?_⟩
  rw [hs.role]
  exact hv.2 l' hl'

end transfer

end Monitor
end Concurrency

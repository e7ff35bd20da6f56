import AntHal.Concurrency.Machine

/-!
Sequential runs of a machine, and a program logic for them.

In a sequential run one thread takes a turn at a time. A turn ends when the
thread has terminated or has reached a resting point, an operation at which it
lets the others go on. An invariant then needs to hold only while everybody
rests: a program may break it on its way, if it is back at the next resting
point and at the end.

A program is checked once, by itself, against what the operations do to a view
of the state. `calm_sequential` is the soundness of that check.
-/

namespace Concurrency

variable {Op : Type} {Res : Op → Type} {Label Tid σ Env ν : Type}

def Move.thread : Move Label Tid Env → Tid
  | .start t _ => t
  | .act t _ => t

/-- The thread has terminated, or its next operation is a resting point. -/
def Thread.resting (rests : Label → Op → Bool) (th : Thread Op Res Label) : Bool :=
  th.head?.all (rests th.label)

theorem Thread.resting_of_terminated {rests : Label → Op → Bool} {th : Thread Op Res Label}
    (h : th.terminated = true) : th.resting rests = true := by
  simp [Thread.resting, Option.isNone_iff_eq_none.mp h]

namespace Machine

variable [DecidableEq Tid]

/-- Thread `t` moves, and nobody else. -/
abbrev Turn (m : Machine Op Res Label Tid σ Env)
    (C : Config Op Res Label Tid σ → Move Label Tid Env → Prop) (t : Tid) :
    Config Op Res Label Tid σ → Config Op Res Label Tid σ → Prop :=
  m.Path fun x mv => C x mv ∧ mv.thread = t

/-- What the threads reach by taking turns. -/
inductive Sequential (m : Machine Op Res Label Tid σ Env) (rests : Label → Op → Bool)
    (C : Config Op Res Label Tid σ → Move Label Tid Env → Prop)
    (init : Config Op Res Label Tid σ) : Config Op Res Label Tid σ → Prop where
  | refl : Sequential m rests C init init
  | turn {c d t} : Sequential m rests C init c → m.Turn C t c d →
      (d.pool t).all (Thread.resting rests) = true → Sequential m rests C init d

/-- The configuration after a list of turns, if all their moves can be taken,
each meets the check, and each turn ends at rest. -/
def play (m : Machine Op Res Label Tid σ Env) (rests : Label → Op → Bool)
    (check : Config Op Res Label Tid σ → Move Label Tid Env → Bool) :
    List (Tid × List (Move Label Tid Env)) → Config Op Res Label Tid σ →
      Option (Config Op Res Label Tid σ)
  | [], c => some c
  | (t, mvs) :: turns, c =>
    (m.exec (fun x mv => check x mv && mv.thread = t) mvs c).bind fun d =>
      if (d.pool t).all (Thread.resting rests) then m.play rests check turns d else none

variable {m : Machine Op Res Label Tid σ Env} {rests : Label → Op → Bool}
  {check : Config Op Res Label Tid σ → Move Label Tid Env → Bool}
  {init c d : Config Op Res Label Tid σ}

theorem exec_turn {t : Tid} {mvs : List (Move Label Tid Env)}
    (h : m.exec (fun x mv => check x mv && mv.thread = t) mvs c = some d) :
    m.Turn (fun x mv => check x mv = true) t c d :=
  (exec_path h).mono fun _ _ hC => by simpa using hC

theorem play_sequential {turns : List (Tid × List (Move Label Tid Env))}
    (hc : m.Sequential rests (fun x mv => check x mv = true) init c)
    (h : m.play rests check turns c = some d) :
    m.Sequential rests (fun x mv => check x mv = true) init d := by
  induction turns generalizing c with
  | nil =>
      cases h
      exact hc
  | cons turn turns ih =>
      obtain ⟨x, hx, hrest⟩ := Option.bind_eq_some_iff.mp h
      split at hrest
      · rename_i hrests
        exact ih (.turn hc (exec_turn hx) hrests) hrest
      · cases hrest

theorem play_any (m : Machine Op Res Label Tid σ Env) (rests : Label → Op → Bool)
    (check : Config Op Res Label Tid σ → Move Label Tid Env → Bool)
    (turns : List (Tid × List (Move Label Tid Env))) (c : Config Op Res Label Tid σ)
    (p : Config Op Res Label Tid σ → Bool) (h : (m.play rests check turns c).any p = true) :
    ∃ d, m.Sequential rests (fun x mv => check x mv = true) c d ∧ p d = true := by
  obtain ⟨d, hd, hp⟩ := Option.any_eq_true _ _ |>.mp h
  exact ⟨d, play_sequential .refl hd, hp⟩

theorem Sequential.mono {C D : Config Op Res Label Tid σ → Move Label Tid Env → Prop}
    (h : m.Sequential rests C init c) (hCD : ∀ x mv, C x mv → D x mv) :
    m.Sequential rests D init c := by
  induction h with
  | refl => exact .refl
  | turn _ hturn hrests ih =>
      exact .turn ih (hturn.mono fun x mv => And.imp_left (hCD x mv)) hrests

end Machine

/-- How the operations of a machine act on a view of its state, and what the
view has to be like while everybody rests. -/
structure Cooperation (m : Machine Op Res Label Tid σ Env) (ν : Type) where
  view : σ → ν
  inv : ν → Prop
  rests : Label → Op → Bool
  /-- What the environment may decide in a step at a label. -/
  allow : Label → Op → Env → ν → Prop
  /-- What an operation may answer and do to the view. -/
  react : Label → (o : Op) → ν → Res o → ν → Prop
  react_spec : ∀ t env s {l o}, allow l o env (view s) →
    react l o (view s) (m.effect t env o s).1 (view (m.effect t env o s).2)

namespace Cooperation

variable {m : Machine Op Res Label Tid σ Env} {α β : Type}

/-- The program, run at label `l` from a view, has the invariant at each of its
resting points and goes on from there with any view that meets it. At its end
`Q` holds. -/
def Safe (K : Cooperation m ν) (l : Label) (Q : α → ν → Prop) : ν → Prog Op Res α → Prop
  | v, .ret a => Q a v
  | v, .op o k =>
    if K.rests l o = true then
      K.inv v ∧ ∀ v', K.inv v' → ∀ r v'', K.react l o v' r v'' → K.Safe l Q v'' (k r)
    else ∀ r v', K.react l o v r v' → K.Safe l Q v' (k r)

variable {K : Cooperation m ν} {l : Label} {v : ν} {Q : α → ν → Prop}

@[simp] theorem safe_ret (a : α) : K.Safe l Q v (.ret a) ↔ Q a v := Iff.rfl

theorem safe_rest {o : Op} {k : Res o → Prog Op Res α} (h : K.rests l o = true) :
    K.Safe l Q v (.op o k) ↔
      K.inv v ∧ ∀ v', K.inv v' → ∀ r v'', K.react l o v' r v'' → K.Safe l Q v'' (k r) :=
  iff_of_eq (if_pos h)

theorem safe_op {o : Op} {k : Res o → Prog Op Res α} (h : K.rests l o = false) :
    K.Safe l Q v (.op o k) ↔ ∀ r v', K.react l o v r v' → K.Safe l Q v' (k r) :=
  iff_of_eq (if_neg (Bool.eq_false_iff.mp h))

/-- A program that checks goes on from the view it is at, resting or not. -/
theorem Safe.step {o : Op} {k : Res o → Prog Op Res α} (h : K.Safe l Q v (.op o k)) {r : Res o}
    {v' : ν} (hr : K.react l o v r v') : K.Safe l Q v' (k r) := by
  cases hrests : K.rests l o with
  | true =>
      obtain ⟨hinv, hnext⟩ := (safe_rest hrests).mp h
      exact hnext v hinv r v' hr
  | false => exact (safe_op hrests).mp h r v' hr

theorem safe_bind {Q : β → ν → Prop} (p : Prog Op Res α) (f : α → Prog Op Res β) :
    K.Safe l Q v (p >>= f) ↔ K.Safe l (fun a v' => K.Safe l Q v' (f a)) v p := by
  induction p generalizing v with
  | ret a => rfl
  | op o k ih =>
      rw [Prog.op_bind]
      cases hrests : K.rests l o with
      | true => simp only [safe_rest hrests, ih]
      | false => simp only [safe_op hrests, ih]

theorem Safe.mono {Q' : α → ν → Prop} {p : Prog Op Res α} (h : K.Safe l Q v p)
    (hQ : ∀ a v', Q a v' → Q' a v') : K.Safe l Q' v p := by
  induction p generalizing v with
  | ret a => exact hQ a v h
  | op o k ih =>
      cases hrests : K.rests l o with
      | true =>
          obtain ⟨hinv, hnext⟩ := (safe_rest hrests).mp h
          exact (safe_rest hrests).mpr ⟨hinv, fun v' hv' r v'' hr => ih r (hnext v' hv' r v'' hr)⟩
      | false => exact (safe_op hrests).mpr fun r v' hr => ih r ((safe_op hrests).mp h r v' hr)

/-- A program is called with `P` as its postcondition. -/
theorem Safe.bind {P : α → ν → Prop} {Q : β → ν → Prop} {p : Prog Op Res α}
    {f : α → Prog Op Res β} (h : K.Safe l P v p)
    (hf : ∀ a v', P a v' → K.Safe l Q v' (f a)) : K.Safe l Q v (p >>= f) :=
  (safe_bind p f).mpr (h.mono hf)

/-- A program all of whose operations keep the invariant. -/
theorem safe_of_only {P : Op → Prop} {Q : α → Prop} {p : Prog Op Res α} (h : p.Only P Q)
    (hP : ∀ o, P o → ∀ v r v', K.inv v → K.react l o v r v' → K.inv v') (hv : K.inv v) :
    K.Safe l (fun a v' => Q a ∧ K.inv v') v p := by
  induction p generalizing v with
  | ret a => exact ⟨h, hv⟩
  | op o k ih =>
      obtain ⟨ho, hk⟩ := (Prog.only_op o k).mp h
      have hnext : ∀ v', K.inv v' → ∀ r v'', K.react l o v' r v'' →
          K.Safe l (fun a v' => Q a ∧ K.inv v') v'' (k r) :=
        fun v' hv' r v'' hr => ih r (hk r) (hP o ho v' r v'' hv' hr)
      cases hrests : K.rests l o with
      | true => exact (safe_rest hrests).mpr ⟨hv, hnext⟩
      | false => exact (safe_op hrests).mpr (hnext v hv)

variable (K)

/-- The check of every block, from and to the invariant. -/
def Checked : Prop := ∀ l v, K.inv v → K.Safe l (fun _ v' => K.inv v') v (m.body l)

/-- The thread can go on from any view that meets the invariant. -/
def Parked (th : Thread Op Res Label) : Prop :=
  ∀ v, K.inv v → K.Safe th.label (fun _ v' => K.inv v') v th.code

def Allows (c : Config Op Res Label Tid σ) : Move Label Tid Env → Prop
  | .start _ _ => True
  | .act t env => ∀ l o k, c.pool t = some ⟨l, .op o k⟩ → K.allow l o env (K.view c.shared)

structure Calm (c : Config Op Res Label Tid σ) : Prop where
  inv : K.inv (K.view c.shared)
  parked : ∀ u th, c.pool u = some th → K.Parked th

structure InTurn (t : Tid) (c : Config Op Res Label Tid σ) : Prop where
  idle : c.pool t = none → K.inv (K.view c.shared)
  active : ∀ th, c.pool t = some th →
    K.Safe th.label (fun _ v' => K.inv v') (K.view c.shared) th.code
  parked : ∀ u th, u ≠ t → c.pool u = some th → K.Parked th

variable {K} {t : Tid} {c d : Config Op Res Label Tid σ}

theorem Calm.inTurn (h : K.Calm c) (t : Tid) : K.InTurn t c :=
  ⟨fun _ => h.inv, fun th hth => h.parked t th hth _ h.inv, fun u th _ hth => h.parked u th hth⟩

/-- A resting program has the invariant, and can go on from every view that
meets it. -/
theorem safe_resting {th : Thread Op Res Label} (hrests : th.resting K.rests = true)
    (h : K.Safe th.label (fun _ v' => K.inv v') v th.code) : K.inv v ∧ K.Parked th := by
  obtain ⟨l, p⟩ := th
  cases p with
  | ret a => exact ⟨h, fun _ hv => hv⟩
  | op o k =>
      have hrest : K.rests l o = true := hrests
      obtain ⟨hinv, hnext⟩ := (safe_rest hrest).mp h
      exact ⟨hinv, fun v hv => (safe_rest hrest).mpr ⟨hv, hnext⟩⟩

theorem InTurn.calm (h : K.InTurn t c) (hrests : (c.pool t).all (Thread.resting K.rests) = true) :
    K.Calm c := by
  cases ht : c.pool t with
  | none =>
      refine ⟨h.idle ht, fun u th hu => h.parked u th ?_ hu⟩
      rintro rfl
      exact nomatch ht.symm.trans hu
  | some th =>
      obtain ⟨hinv, hparked⟩ := safe_resting (by simpa [ht] using hrests) (h.active th ht)
      refine ⟨hinv, fun u th' hu => ?_⟩
      by_cases hut : u = t
      · subst hut
        obtain rfl : th = th' := Option.some.inj (ht.symm.trans hu)
        exact hparked
      · exact h.parked u th' hut hu

variable [DecidableEq Tid]

omit [DecidableEq Tid] in
theorem safe_resume (hbody : K.Checked) {p : Prog Op Res (Option Label)}
    (h : K.Safe l (fun _ v' => K.inv v') v p) :
    K.Safe (m.resume l p).label (fun _ v' => K.inv v') v (m.resume l p).code := by
  rcases m.resume_cases l p with ⟨l', rfl, hresume⟩ | hresume
  · rw [hresume]
    exact hbody l' v h
  · rw [hresume]
    exact h

theorem inTurn_step (hbody : K.Checked) (h : K.InTurn t c) {mv : Move Label Tid Env}
    (hallows : K.Allows c mv) (hmv : mv.thread = t) (hs : m.step mv c = some d) :
    K.InTurn t d := by
  cases mv with
  | start u l =>
      obtain rfl : u = t := hmv
      obtain ⟨-, hnew, hd⟩ := Machine.step_start hs
      have hinv : K.inv (K.view d.shared) := hd ▸ h.idle hnew
      refine ⟨fun _ => hinv, fun th hth => ?_, fun u' th hne hth => ?_⟩
      · rcases Machine.step_start_cases hs hth with ⟨-, rfl⟩ | ⟨hne, -⟩
        · exact hbody l _ hinv
        · exact absurd rfl hne
      · rcases Machine.step_start_cases hs hth with ⟨heq, -⟩ | ⟨-, hold⟩
        · exact absurd heq hne
        · exact h.parked u' th hne hold
  | act u env =>
      obtain rfl : u = t := hmv
      obtain ⟨l, o, k, ha⟩ := Machine.step_act hs
      refine ⟨fun hnone => ?_, fun th hth => ?_, fun u' th hne hth => ?_⟩
      · rw [ha.self.2] at hnone
        cases hnone
      · rw [ha.self.2] at hth
        cases hth
        have hreact := K.react_spec u env c.shared (hallows l o k ha.thread)
        rw [← ha.shared] at hreact
        exact safe_resume hbody ((h.active _ ha.thread).step hreact)
      · rcases ha.cases hth with ⟨rfl, -⟩ | ⟨lu, -, rfl⟩ | ⟨-, hold⟩
        · exact absurd rfl hne
        · exact hbody lu
        · exact h.parked u' th hne hold

theorem inTurn_path (hbody : K.Checked) (h : K.InTurn t c) (hturn : m.Turn K.Allows t c d) :
    K.InTurn t d :=
  hturn.invariant (fun _ _ _ hx hC hs => inTurn_step hbody hx hC.1 hC.2 hs) h

/-- Soundness: if every block checks, the invariant holds whenever everybody rests. -/
theorem calm_sequential (hbody : K.Checked) {init : Config Op Res Label Tid σ}
    (hinit : K.Calm init) (h : m.Sequential K.rests K.Allows init c) : K.Calm c := by
  induction h with
  | refl => exact hinit
  | turn _ hturn hrests ih => exact (inTurn_path hbody (ih.inTurn _) hturn).calm hrests

end Cooperation
end Concurrency

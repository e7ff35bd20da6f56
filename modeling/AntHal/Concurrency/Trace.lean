import AntHal.Concurrency.Machine

/-!
What a thread has done.

A call is seen as the list of its operations with their answers. Such a list is
read along the programs of the labels that the call goes through, whatever the
answers are. In a run of a machine every thread leaves a list of this kind, so
what holds of all lists of a call holds of the call in every run.
-/

namespace Concurrency

/-- An operation, with its answer. -/
abbrev Step (Op : Type) (Res : Op → Type) : Type := (o : Op) × Res o

namespace Prog

variable {Op : Type} {Res : Op → Type} {α β : Type}

/-- After these steps the rest of the program is the second one. -/
inductive Steps : Prog Op Res α → List (Step Op Res) → Prog Op Res α → Prop where
  | refl (p : Prog Op Res α) : Steps p [] p
  | head {o : Op} {k : Res o → Prog Op Res α} {r : Res o} {es : List (Step Op Res)}
      {q : Prog Op Res α} : Steps (k r) es q → Steps (.op o k) (⟨o, r⟩ :: es) q

variable {p : Prog Op Res α} {es : List (Step Op Res)}

theorem steps_ret_iff {a b : α} :
    (ret a : Prog Op Res α).Steps es (ret b) ↔ es = [] ∧ b = a := by
  constructor
  · intro h
    cases h
    exact ⟨rfl, rfl⟩
  · rintro ⟨rfl, rfl⟩
    exact .refl _

theorem steps_op_iff {o : Op} {k : Res o → Prog Op Res α} {a : α} :
    (op o k).Steps es (ret a) ↔ ∃ r fs, es = ⟨o, r⟩ :: fs ∧ (k r).Steps fs (ret a) := by
  constructor
  · intro h
    cases h with
    | head h => exact ⟨_, _, rfl, h⟩
  · rintro ⟨r, fs, rfl, h⟩
    exact .head h

theorem Steps.snoc {o : Op} {k : Res o → Prog Op Res α} (h : p.Steps es (op o k)) (r : Res o) :
    p.Steps (es ++ [⟨o, r⟩]) (k r) := by
  generalize hq : op o k = q at h
  induction h with
  | refl =>
      subst hq
      exact .head (.refl _)
  | head _ ih => exact .head (ih hq)

/-- The steps of a sequence are those of its parts. -/
theorem steps_bind_iff {f : α → Prog Op Res β} {b : β} :
    (p >>= f).Steps es (ret b) ↔
      ∃ fs gs a, es = fs ++ gs ∧ p.Steps fs (ret a) ∧ (f a).Steps gs (ret b) := by
  induction p generalizing es with
  | ret a =>
      rw [ret_bind]
      constructor
      · exact fun h => ⟨[], es, a, rfl, .refl _, h⟩
      · rintro ⟨fs, gs, a', rfl, hfs, hgs⟩
        obtain ⟨rfl, rfl⟩ := steps_ret_iff.mp hfs
        exact hgs
  | op o k ih =>
      rw [op_bind, steps_op_iff]
      constructor
      · rintro ⟨r, es', rfl, h⟩
        obtain ⟨fs, gs, a, rfl, hfs, hgs⟩ := (ih r).mp h
        exact ⟨⟨o, r⟩ :: fs, gs, a, rfl, .head hfs, hgs⟩
      · rintro ⟨fs, gs, a, rfl, hfs, hgs⟩
        obtain ⟨r, fs', rfl, hfs'⟩ := steps_op_iff.mp hfs
        exact ⟨r, fs' ++ gs, rfl, (ih r).mpr ⟨fs', gs, a, rfl, hfs', hgs⟩⟩

/-- The steps of a program that only does `P` are all `P`. -/
theorem Only.steps {P : Op → Prop} {Q : α → Prop} {a : α} (h : p.Only P Q)
    (hes : p.Steps es (ret a)) : (∀ e ∈ es, P e.1) ∧ Q a := by
  induction p generalizing es with
  | ret a' =>
      obtain ⟨rfl, rfl⟩ := steps_ret_iff.mp hes
      exact ⟨fun e he => absurd he List.not_mem_nil, h⟩
  | op o k ih =>
      obtain ⟨ho, hk⟩ := (only_op o k).mp h
      obtain ⟨r, fs, rfl, hfs⟩ := steps_op_iff.mp hes
      obtain ⟨hall, hret⟩ := ih r (hk r) hfs
      exact ⟨List.forall_mem_cons.mpr ⟨ho, hall⟩, hret⟩

end Prog

section calls
variable {Op : Type} {Res : Op → Type} {Label : Type}

/-- The steps of a call from a label to its return. -/
inductive CallTrace (body : Label → Prog Op Res (Option Label)) :
    Label → List (Step Op Res) → Prop where
  | last {l : Label} {es : List (Step Op Res)} :
      (body l).Steps es (.ret none) → CallTrace body l es
  | next {l l' : Label} {es fs : List (Step Op Res)} :
      (body l).Steps es (.ret (some l')) → CallTrace body l' fs → CallTrace body l (es ++ fs)

/-- The steps behind a program that has returned. -/
def Continues (body : Label → Prog Op Res (Option Label)) :
    Option Label → List (Step Op Res) → Prop
  | none, es => es = []
  | some l, es => CallTrace body l es

/-- What is left of a call after some steps. -/
inductive CallPrefix (body : Label → Prog Op Res (Option Label)) :
    Label → List (Step Op Res) → Thread Op Res Label → Prop where
  | last {l : Label} {es : List (Step Op Res)} {p : Prog Op Res (Option Label)} :
      (body l).Steps es p → CallPrefix body l es ⟨l, p⟩
  | next {l l' : Label} {es fs : List (Step Op Res)} {th : Thread Op Res Label} :
      (body l).Steps es (.ret (some l')) → CallPrefix body l' fs th →
      CallPrefix body l (es ++ fs) th

variable {body : Label → Prog Op Res (Option Label)} {l l' : Label}
  {es : List (Step Op Res)}

/-- A call goes through the program of its label and on from there. -/
theorem CallTrace.inv (h : CallTrace body l es) :
    ∃ fs gs a, es = fs ++ gs ∧ (body l).Steps fs (.ret a) ∧ Continues body a gs := by
  cases h with
  | last h => exact ⟨es, [], none, (List.append_nil es).symm, h, rfl⟩
  | next h hrest => exact ⟨_, _, _, rfl, h, hrest⟩

theorem CallPrefix.returned (h : CallPrefix body l es ⟨l', .ret none⟩) :
    CallTrace body l es := by
  generalize hth : (⟨l', .ret none⟩ : Thread Op Res Label) = th at h
  induction h with
  | last h =>
      cases hth
      exact .last h
  | next h _ ih => exact .next h (ih hth)

/-- A step of the thread is a step of the call; a label that is named is taken. -/
theorem CallPrefix.step {Tid σ Env : Type} {m : Machine Op Res Label Tid σ Env} {o : Op}
    {k : Res o → Prog Op Res (Option Label)} (h : CallPrefix m.body l es ⟨l', .op o k⟩)
    (r : Res o) : CallPrefix m.body l (es ++ [⟨o, r⟩]) (m.resume l' (k r)) := by
  generalize hth : (⟨l', .op o k⟩ : Thread Op Res Label) = th at h
  induction h with
  | last h =>
      cases hth
      have hsnoc := h.snoc r
      obtain ⟨l'', hnext, hresume⟩ | hresume := m.resume_cases l' (k r)
      · rw [hresume, ← List.append_nil (_ ++ _)]
        rw [hnext] at hsnoc
        exact .next hsnoc (.last (.refl _))
      · rw [hresume]
        exact .last hsnoc
  | next h _ ih =>
      rw [List.append_assoc]
      exact .next h (ih hth)

end calls

namespace Machine

variable {Op : Type} {Res : Op → Type} {Label Tid σ Env : Type} [DecidableEq Tid]

/-- A run, with the steps that thread `t` takes in it. -/
inductive ThreadRun (m : Machine Op Res Label Tid σ Env) (t : Tid) :
    Config Op Res Label Tid σ → List (Step Op Res) → Config Op Res Label Tid σ → Prop where
  | refl (c : Config Op Res Label Tid σ) : ThreadRun m t c [] c
  | own {c d e : Config Op Res Label Tid σ} {es : List (Step Op Res)} {env : Env} {l : Label}
      {o : Op} {k : Res o → Prog Op Res (Option Label)} :
      ThreadRun m t c es d → Acts m t env d e l o k →
      ThreadRun m t c (es ++ [⟨o, (m.effect t env o d.shared).1⟩]) e
  | other {c d e : Config Op Res Label Tid σ} {es : List (Step Op Res)}
      {mv : Move Label Tid Env} :
      ThreadRun m t c es d → (∀ env, mv ≠ .act t env) → m.step mv d = some e →
      ThreadRun m t c es e

variable {m : Machine Op Res Label Tid σ Env} {t : Tid} {c d : Config Op Res Label Tid σ}
  {l : Label} {es : List (Step Op Res)}

/-- Every thread leaves its steps in every run. -/
theorem exists_threadRun (t : Tid) (h : m.Reachable c d) : ∃ es, m.ThreadRun t c es d := by
  induction h with
  | refl => exact ⟨[], .refl _⟩
  | @tail d e mv _ _ hs ih =>
      obtain ⟨es, hrun⟩ := ih
      by_cases hown : ∃ env, mv = .act t env
      · obtain ⟨env, rfl⟩ := hown
        obtain ⟨l, o, k, ha⟩ := step_act hs
        exact ⟨_, .own hrun ha⟩
      · exact ⟨es, .other hrun (fun env heq => hown ⟨env, heq⟩) hs⟩

/-- The steps that a thread has taken since a call began are steps of the call. -/
theorem ThreadRun.callPrefix (h : m.ThreadRun t c es d) (hstart : c.pool t = some ⟨l, m.body l⟩) :
    ∃ th, d.pool t = some th ∧ CallPrefix m.body l es th := by
  induction h with
  | refl => exact ⟨_, hstart, .last (.refl _)⟩
  | own _ ha ih =>
      obtain ⟨th, hth, hpre⟩ := ih
      cases ha.thread.symm.trans hth
      exact ⟨_, ha.self.2, hpre.step _⟩
  | @other d e es mv _ hne hs ih =>
      obtain ⟨th, hth, hpre⟩ := ih
      refine ⟨th, ?_, hpre⟩
      cases mv with
      | start u l' => exact step_start_kept hs hth
      | act u env =>
          obtain ⟨l', o, k, ha⟩ := step_act hs
          refine ha.kept ?_ hth
          rintro rfl
          exact hne env rfl

/-- A call that has returned has taken the steps of a whole call. -/
theorem ThreadRun.callTrace (h : m.ThreadRun t c es d) (hstart : c.pool t = some ⟨l, m.body l⟩)
    {l' : Label} (hend : d.pool t = some ⟨l', .ret none⟩) : CallTrace m.body l es := by
  obtain ⟨th, hth, hpre⟩ := h.callPrefix hstart
  cases hend.symm.trans hth
  exact hpre.returned

end Machine
end Concurrency

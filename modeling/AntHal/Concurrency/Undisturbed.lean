import AntHal.Concurrency.Trace

/-!
A thread that nobody disturbs.

In the runs considered here the operations of one thread are answered as one
environment says, and the steps of the others meet a condition. Where these leave
alone a projection of the state that decides what the thread's operations answer
and do to it, the others can be left out: the thread runs its program alone.
-/

namespace Concurrency

variable {Op : Type} {Res : Op → Type} {Label Tid σ τ Env α : Type}

namespace Prog

variable (exec : (o : Op) → σ → Res o × σ)

/-- The steps of a program that is run alone. -/
def trace : Prog Op Res α → σ → List (Step Op Res)
  | .ret _, _ => []
  | .op o k, s => ⟨o, (exec o s).1⟩ :: (k (exec o s).1).trace (exec o s).2

/-- The projection decides what the operation answers, and does to it. -/
def Decides (abs : σ → τ) (o : Op) : Prop :=
  ∀ s s', abs s = abs s' →
    (exec o s).1 = (exec o s').1 ∧ abs (exec o s).2 = abs (exec o s').2

end Prog

namespace Machine

variable [DecidableEq Tid]

/-- A run from `c`, with the steps that thread `t` takes in it: they have the
effect that `env` gives them, and the steps of the others are in `R`. -/
inductive Beside (m : Machine Op Res Label Tid σ Env) (t : Tid) (env : Env)
    (R : Config Op Res Label Tid σ → Config Op Res Label Tid σ → Prop) :
    Config Op Res Label Tid σ → List (Step Op Res) → Config Op Res Label Tid σ → Prop where
  | refl (c : Config Op Res Label Tid σ) : Beside m t env R c [] c
  | own {c d e : Config Op Res Label Tid σ} {es : List (Step Op Res)} {env' : Env} {l : Label}
      {o : Op} {k : Res o → Prog Op Res (Option Label)} :
      Beside m t env R c es d → d.pool t = some ⟨l, .op o k⟩ →
      m.step (.act t env') d = some e →
      m.effect t env' o d.shared = m.effect t env o d.shared →
      Beside m t env R c (es ++ [⟨o, (m.effect t env o d.shared).1⟩]) e
  | other {c d e : Config Op Res Label Tid σ} {es : List (Step Op Res)}
      {mv : Move Label Tid Env} :
      Beside m t env R c es d → (∀ env', mv ≠ .act t env') → m.step mv d = some e → R d e →
      Beside m t env R c es e

section beside
variable {m : Machine Op Res Label Tid σ Env} {t : Tid} {env : Env}
  {R : Config Op Res Label Tid σ → Config Op Res Label Tid σ → Prop}
  {c d e : Config Op Res Label Tid σ} {es fs : List (Step Op Res)}

theorem Beside.trans (h : m.Beside t env R c es d) (h' : m.Beside t env R d fs e) :
    m.Beside t env R c (es ++ fs) e := by
  induction h' with
  | refl => exact (List.append_nil es).symm ▸ h
  | own _ hcode hs heffect ih =>
      rw [← List.append_assoc]
      exact .own ih hcode hs heffect
  | other _ hne hs hR ih => exact .other ih hne hs hR

theorem Beside.mono {R' : Config Op Res Label Tid σ → Config Op Res Label Tid σ → Prop}
    (h : m.Beside t env R c es d) (hR : ∀ x y, R x y → R' x y) : m.Beside t env R' c es d := by
  induction h with
  | refl => exact .refl _
  | own _ hcode hs heffect ih => exact .own ih hcode hs heffect
  | other _ hne hs hx ih => exact .other ih hne hs (hR _ _ hx)

/-- Without the others the thread runs what is left of its program alone; the rest
of that run is the rest of the program, from a state that agrees with the present one. -/
theorem Beside.alone {abs : σ → τ} {l : Label} {p : Prog Op Res (Option Label)}
    (h : m.Beside t env R c es d) (hp : c.pool t = some ⟨l, p⟩)
    (honly : p.Only (Prog.Decides (m.effect t env) abs) (· = none))
    (hothers : ∀ x mv y, m.Reachable c x → (∀ env', mv ≠ .act t env') → m.step mv x = some y →
      R x y → abs y.shared = abs x.shared) :
    m.Reachable c d ∧ ∃ q s, d.pool t = some ⟨l, q⟩ ∧
      q.Only (Prog.Decides (m.effect t env) abs) (· = none) ∧ abs d.shared = abs s ∧
      p.trace (m.effect t env) c.shared = es ++ q.trace (m.effect t env) s ∧
      p.run (m.effect t env) c.shared = q.run (m.effect t env) s := by
  induction h with
  | refl => exact ⟨.refl _, p, _, hp, honly, rfl, rfl, rfl⟩
  | @own d e es env' l' o k _ hcode hs heffect ih =>
      obtain ⟨hreach, q, s, hq, hrest, habs, htrace, hrun⟩ := ih
      cases hq.symm.trans hcode
      obtain ⟨_, _, _, ha⟩ := step_act hs
      cases hcode.symm.trans ha.thread
      obtain ⟨hdecides, hk⟩ := (Prog.only_op o k).mp hrest
      obtain ⟨hanswer, hafter⟩ := hdecides d.shared s habs
      refine ⟨.tail hreach trivial hs, k (m.effect t env o s).1, (m.effect t env o s).2, ?_, hk _,
        ?_, ?_, hrun⟩
      · have hnext := hk (m.effect t env o s).1
        rw [ha.self.2, heffect, hanswer]
        cases hcode : k (m.effect t env o s).1 with
        | ret a =>
            rw [hcode] at hnext
            obtain rfl : a = none := hnext
            rfl
        | op o' k' => rfl
      · rw [ha.shared, heffect]
        exact hafter
      · rw [htrace, List.append_assoc, hanswer]
        rfl
  | @other d e es mv _ hne hs hR ih =>
      obtain ⟨hreach, q, s, hq, hrest, habs, htrace, hrun⟩ := ih
      refine ⟨.tail hreach trivial hs, q, s, ?_, hrest,
        (hothers d mv e hreach hne hs hR).trans habs, htrace, hrun⟩
      cases mv with
      | start u l' => exact step_start_kept hs hq
      | act u env' =>
          obtain ⟨l', o, k, ha⟩ := step_act hs
          refine ha.kept ?_ hq
          rintro rfl
          exact hne env' rfl

/-- A thread that has terminated has run its program alone. -/
theorem Beside.terminated {abs : σ → τ} {l : Label} {p : Prog Op Res (Option Label)}
    (h : m.Beside t env R c es d) (hp : c.pool t = some ⟨l, p⟩)
    (hend : (d.pool t).any Thread.terminated = true)
    (honly : p.Only (Prog.Decides (m.effect t env) abs) (· = none))
    (hothers : ∀ x mv y, m.Reachable c x → (∀ env', mv ≠ .act t env') → m.step mv x = some y →
      R x y → abs y.shared = abs x.shared) :
    es = p.trace (m.effect t env) c.shared ∧
      abs d.shared = abs (p.run (m.effect t env) c.shared).2 := by
  obtain ⟨-, q, s, hq, -, habs, htrace, hrun⟩ := h.alone hp honly hothers
  rw [htrace, hrun]
  rw [hq] at hend
  cases q with
  | ret a => exact ⟨(List.append_nil es).symm, habs⟩
  | op o k => cases hend

/-- The run of a list of moves, where `none` is a step of thread `t`. -/
def execBeside (m : Machine Op Res Label Tid σ Env) (t : Tid) (env : Env)
    (check : Config Op Res Label Tid σ → Config Op Res Label Tid σ → Bool) :
    List (Option (Tid × Env)) → Config Op Res Label Tid σ →
      Option (List (Step Op Res) × Config Op Res Label Tid σ)
  | [], c => some ([], c)
  | none :: mvs, c =>
    match c.pool t with
    | some ⟨_, .op o _⟩ => do
      let d ← m.step (.act t env) c
      let (es, e) ← m.execBeside t env check mvs d
      some (⟨o, (m.effect t env o c.shared).1⟩ :: es, e)
    | _ => none
  | some (u, env') :: mvs, c =>
    if u = t then none
    else do
      let d ← m.step (.act u env') c
      if check c d then m.execBeside t env check mvs d else none

theorem execBeside_beside {check : Config Op Res Label Tid σ → Config Op Res Label Tid σ → Bool}
    {mvs : List (Option (Tid × Env))} (h : m.execBeside t env check mvs c = some (es, d)) :
    m.Beside t env (fun x y => check x y = true) c es d := by
  induction mvs generalizing c es with
  | nil =>
      cases h
      exact .refl _
  | cons mv mvs ih =>
      cases mv with
      | none =>
          simp only [execBeside] at h
          split at h
          · rename_i l o k hcode
            obtain ⟨x, hx, h⟩ := Option.bind_eq_some_iff.mp h
            obtain ⟨⟨fs, e⟩, hfs, h⟩ := Option.bind_eq_some_iff.mp h
            cases h
            have hone : m.Beside t env (fun x y => check x y = true) c
                ([] ++ [⟨o, (m.effect t env o c.shared).1⟩]) x :=
              .own (.refl c) hcode hx rfl
            exact hone.trans (ih hfs)
          · cases h
      | some mv =>
          obtain ⟨u, env'⟩ := mv
          simp only [execBeside] at h
          split at h
          · cases h
          · rename_i hut
            obtain ⟨x, hx, h⟩ := Option.bind_eq_some_iff.mp h
            split at h
            · rename_i hcheck
              have hone : m.Beside t env (fun x y => check x y = true) c [] x := by
                refine .other (.refl c) (fun env'' heq => ?_) hx hcheck
                cases heq
                exact hut rfl
              exact hone.trans (ih h)
            · cases h

end beside
end Machine
end Concurrency

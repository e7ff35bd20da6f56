import AntHal.Concurrency.Waiting
import Mathlib.Data.Nat.Find
import Mathlib.Order.WellFounded

/-!
Infinite runs under a fair scheduler.

At every instant one move is made, or none. A run is fair if a thread that can move
again and again is scheduled again and again. What has to happen is shown by
descent: a measure falls whenever the thread whose turn it is moves, and no other
move raises the measure or passes the turn on.
-/

namespace Concurrency

namespace Prog

variable {Op α : Type} {Res : Op → Type}

/-- The first program is what the second may leave behind its next operation. -/
def Rest : Prog Op Res α → Prog Op Res α → Prop
  | _, .ret _ => False
  | p, .op _ k => ∃ r, p = k r

theorem rest_wf : WellFounded (@Rest Op α Res) := by
  constructor
  intro p
  induction p with
  | ret a => exact ⟨_, fun q hq => hq.elim⟩
  | op o k ih =>
      constructor
      rintro q ⟨r, rfl⟩
      exact ih r

end Prog

variable {Op : Type} {Res : Op → Type} {Label Tid σ Env : Type} [DecidableEq Tid]
  {m : Machine Op Res Label Tid σ Env} {init : Config Op Res Label Tid σ}

/-- One instant: a move, or none. -/
def Machine.tick (m : Machine Op Res Label Tid σ Env) :
    Option (Move Label Tid Env) → Config Op Res Label Tid σ → Option (Config Op Res Label Tid σ)
  | none, c => some c
  | some mv, c => m.step mv c

structure Run (m : Machine Op Res Label Tid σ Env) (init : Config Op Res Label Tid σ) where
  config : Nat → Config Op Res Label Tid σ
  move : Nat → Option (Move Label Tid Env)
  start : config 0 = init
  next : ∀ n, m.tick (move n) (config n) = some (config (n + 1))

namespace Run

variable (r : Run m init)

/-- Thread `t` moves at the instant `n`. -/
def Takes (t : Tid) (n : Nat) : Prop := ∃ env, r.move n = some (.act t env)

/-- A thread that can move again and again moves again and again. -/
def Fair (P : Env → Prop) : Prop :=
  ∀ t, (∀ n, ∃ k, n ≤ k ∧ m.CanMove P (r.config k) t) → ∀ n, ∃ k, n ≤ k ∧ r.Takes t k

variable {r} {P : Env → Prop} {t : Tid} {n : Nat} {th : Thread Op Res Label}

theorem reachable (n : Nat) : m.Reachable init (r.config n) := by
  induction n with
  | zero =>
      rw [r.start]
      exact .refl init
  | succ n ih =>
      have hnext := r.next n
      cases hmv : r.move n with
      | none =>
          rw [hmv] at hnext
          exact Option.some.inj hnext ▸ ih
      | some mv =>
          rw [hmv] at hnext
          exact .tail ih trivial hnext

theorem Takes.acts (h : r.Takes t n) :
    ∃ env l o k, m.Acts t env (r.config n) (r.config (n + 1)) l o k := by
  obtain ⟨env, hmv⟩ := h
  have hnext := r.next n
  rw [hmv] at hnext
  exact ⟨env, Machine.step_act hnext⟩

/-- A thread that moves can move. -/
theorem Takes.canMove (h : r.Takes t n) : m.CanMove (fun _ => True) (r.config n) t := by
  obtain ⟨env, hmv⟩ := h
  have hnext := r.next n
  rw [hmv] at hnext
  exact ⟨env, _, trivial, hnext⟩

/-- The shared state changes by the moves of threads only. -/
theorem shared_next (h : ∀ t, ¬ r.Takes t n) :
    (r.config (n + 1)).shared = (r.config n).shared := by
  have hnext := r.next n
  cases hmv : r.move n with
  | none =>
      rw [hmv] at hnext
      exact Option.some.inj hnext ▸ rfl
  | some mv =>
      rw [hmv] at hnext
      cases mv with
      | start t l => rw [(Machine.step_start hnext).2.2]
      | act t env => exact absurd ⟨env, hmv⟩ (h t)

/-- A thread that does not move is left as it is. -/
theorem pool_next (hth : (r.config n).pool t = some th) (h : ¬ r.Takes t n) :
    (r.config (n + 1)).pool t = some th := by
  have hnext := r.next n
  cases hmv : r.move n with
  | none =>
      rw [hmv] at hnext
      exact Option.some.inj hnext ▸ hth
  | some mv =>
      rw [hmv] at hnext
      cases mv with
      | start u l => exact Machine.step_start_kept hnext hth
      | act u env =>
          obtain ⟨l, o, k, ha⟩ := Machine.step_act hnext
          refine ha.kept ?_ hth
          rintro rfl
          exact h ⟨env, hmv⟩

theorem pool_while (hth : (r.config n).pool t = some th) (h : ∀ k, n ≤ k → ¬ r.Takes t k) {k : Nat}
    (hk : n ≤ k) : (r.config k).pool t = some th := by
  induction k, hk using Nat.le_induction with
  | base => exact hth
  | succ k hk ih => exact pool_next ih (h k hk)

/-- A thread that can always move is scheduled. -/
theorem Fair.scheduled (h : r.Fair P) (hmove : ∀ k, n ≤ k → m.CanMove P (r.config k) t) :
    ∃ k, n ≤ k ∧ r.Takes t k :=
  h t (fun i => ⟨max n i, le_max_right _ _, hmove _ (le_max_left _ _)⟩) n

section descent
variable {W : Type} {lt : W → W → Prop} {μ : Config Op Res Label Tid σ → W}
  {turn : Config Op Res Label Tid σ → Tid} {A B : Config Op Res Label Tid σ → Prop}

/-- What an instant does to a measure: it falls, or nothing has changed and the
thread whose turn it is has not moved. -/
def Descends (r : Run m init) (lt : W → W → Prop) (μ : Config Op Res Label Tid σ → W)
    (turn : Config Op Res Label Tid σ → Tid) (n : Nat) : Prop :=
  lt (μ (r.config (n + 1))) (μ (r.config n)) ∨
    ¬ r.Takes (turn (r.config n)) n ∧ μ (r.config (n + 1)) = μ (r.config n) ∧
      turn (r.config (n + 1)) = turn (r.config n)

/-- The descent rule. From `A` the run comes to `B`, since the thread whose turn it
is can move, and the measure cannot fall for ever. -/
theorem Fair.eventually (h : r.Fair P) (hwf : WellFounded lt)
    (hmove : ∀ n, A (r.config n) → ¬ B (r.config n) → m.CanMove P (r.config n) (turn (r.config n)))
    (hnext : ∀ n, A (r.config n) → ¬ B (r.config n) →
      B (r.config (n + 1)) ∨ (A (r.config (n + 1)) ∧ r.Descends lt μ turn n))
    (hA : A (r.config n)) : ∃ k, n ≤ k ∧ B (r.config k) := by
  induction hw : μ (r.config n) using hwf.induction generalizing n with
  | _ w ih =>
      subst hw
      by_contra hnever
      have hnot (k : Nat) (hk : n ≤ k) : ¬ B (r.config k) := fun hB => hnever ⟨k, hk, hB⟩
      have hsame (k : Nat) (hk : n ≤ k) : A (r.config k) ∧ μ (r.config k) = μ (r.config n) ∧
          turn (r.config k) = turn (r.config n) := by
        induction k, hk using Nat.le_induction with
        | base => exact ⟨hA, rfl, rfl⟩
        | succ k hk hind =>
            obtain ⟨hAk, hμ, hturn⟩ := hind
            obtain ⟨hAk', hfall | ⟨-, hμ', hturn'⟩⟩ :=
              (hnext k hAk (hnot k hk)).resolve_left (hnot (k + 1) (Nat.le_succ_of_le hk))
            · rw [hμ] at hfall
              obtain ⟨i, hi, hB⟩ := ih _ hfall hAk' rfl
              exact absurd hB (hnot i (le_trans (Nat.le_succ_of_le hk) hi))
            · exact ⟨hAk', hμ'.trans hμ, hturn'.trans hturn⟩
      obtain ⟨k, hk, htakes⟩ := h.scheduled (n := n) (t := turn (r.config n)) fun k hk =>
        (hsame k hk).2.2 ▸ hmove k (hsame k hk).1 (hnot k hk)
      obtain ⟨hAk, hμ, hturn⟩ := hsame k hk
      rcases hnext k hAk (hnot k hk) with hB | ⟨hAk', hfall | ⟨hidle, -⟩⟩
      · exact hnot (k + 1) (Nat.le_succ_of_le hk) hB
      · rw [hμ] at hfall
        obtain ⟨i, hi, hB⟩ := ih _ hfall hAk' rfl
        exact hnot i (le_trans (Nat.le_succ_of_le hk) hi) hB
      · exact hidle (hturn ▸ htakes)

end descent

/-- A thread that can move again and again while it lives, and whose programs do
not go on elsewhere, terminates. -/
theorem Fair.terminates (h : r.Fair P)
    (hends : ∀ n th, (r.config n).pool t = some th → th.code.Returns (· = none))
    (hable : ∀ n, Machine.Live (r.config n) t → ∃ k, n ≤ k ∧ m.CanMove P (r.config k) t)
    (hth : (r.config n).pool t = some th) :
    ∃ k, n ≤ k ∧ ∃ th', (r.config k).pool t = some th' ∧ th'.terminated = true := by
  induction hcode : th.code using Prog.rest_wf.induction generalizing n th with
  | _ code ih =>
      subst hcode
      by_cases hlive : th.terminated = true
      · exact ⟨n, le_refl n, th, hth, hlive⟩
      have hmoves : ∃ k, n ≤ k ∧ r.Takes t k := by
        by_contra hnever
        have hidle (k : Nat) (hk : n ≤ k) : ¬ r.Takes t k := fun ht => hnever ⟨k, hk, ht⟩
        refine hnever (h t (fun i => ?_) n)
        obtain ⟨k, hk, hmove⟩ := hable (max n i)
          ⟨th, pool_while hth hidle (le_max_left _ _), Bool.eq_false_iff.mpr hlive⟩
        exact ⟨k, le_trans (le_max_right _ _) hk, hmove⟩
      -- the first move of the thread
      obtain ⟨k, ⟨hk, htakes⟩, hfirst⟩ : ∃ k, (n ≤ k ∧ r.Takes t k) ∧
          ∀ j, j < k → ¬ (n ≤ j ∧ r.Takes t j) := by
        classical
        exact ⟨Nat.find hmoves, Nat.find_spec hmoves, fun j hj => Nat.find_min hmoves hj⟩
      have hthk : (r.config k).pool t = some th := by
        have hbefore (j : Nat) (hj : n ≤ j) (hjk : j ≤ k) : (r.config j).pool t = some th := by
          induction j, hj using Nat.le_induction with
          | base => exact hth
          | succ j hj hind =>
              exact pool_next (hind (Nat.le_of_succ_le hjk)) fun ht => hfirst j hjk ⟨hj, ht⟩
        exact hbefore k hk (le_refl k)
      obtain ⟨env, l, o, rest, ha⟩ := htakes.acts
      obtain rfl := Option.some.inj (hthk.symm.trans ha.thread)
      have hself := ha.self.2
      have hstay : m.resume l (rest (m.effect t env o (r.config k).shared).1) =
          ⟨l, rest (m.effect t env o (r.config k).shared).1⟩ := by
        rcases m.resume_cases l (rest (m.effect t env o (r.config k).shared).1) with
          ⟨l', hret, -⟩ | hres
        · have hnone := hends k _ hthk (m.effect t env o (r.config k).shared).1
          rw [hret] at hnone
          cases hnone
        · exact hres
      rw [hstay] at hself
      obtain ⟨i, hi, hdone⟩ := ih _ ⟨_, rfl⟩ hself rfl
      exact ⟨i, le_trans (Nat.le_succ_of_le hk) hi, hdone⟩

/-- The configurations of a list of moves. -/
theorem exec_take_succ {mvs : List (Move Label Tid Env)} {c d : Config Op Res Label Tid σ}
    (h : m.exec (fun _ _ => true) mvs c = some d) (n : Nat) :
    ∃ x y, m.exec (fun _ _ => true) (mvs.take n) c = some x ∧
      m.exec (fun _ _ => true) (mvs.take (n + 1)) c = some y ∧ m.tick mvs[n]? x = some y := by
  induction n generalizing mvs c with
  | zero =>
      cases mvs with
      | nil => exact ⟨c, c, rfl, rfl, rfl⟩
      | cons mv mvs =>
          obtain ⟨y, hy, -⟩ := Option.bind_eq_some_iff.mp h
          exact ⟨c, y, rfl, by simp [Machine.exec, hy], hy⟩
  | succ n ih =>
      cases mvs with
      | nil => exact ⟨c, c, rfl, rfl, rfl⟩
      | cons mv mvs =>
          obtain ⟨y, hy, hrest⟩ := Option.bind_eq_some_iff.mp h
          obtain ⟨x, z, hx, hz, htick⟩ := ih hrest
          exact ⟨x, z, by simpa [Machine.exec, hy] using hx, by simpa [Machine.exec, hy] using hz,
            htick⟩

/-- The run that makes the moves of a list, and then none. -/
def ofMoves (mvs : List (Move Label Tid Env)) {d : Config Op Res Label Tid σ}
    (h : m.exec (fun _ _ => true) mvs init = some d) : Run m init where
  config n := (m.exec (fun _ _ => true) (mvs.take n) init).getD init
  move n := mvs[n]?
  start := rfl
  next n := by
    obtain ⟨x, y, hx, hy, htick⟩ := exec_take_succ h n
    rw [hx, hy]
    exact htick

/-- It is fair if nobody can move behind the last of them. -/
theorem ofMoves_fair {mvs : List (Move Label Tid Env)} {d : Config Op Res Label Tid σ}
    (h : m.exec (fun _ _ => true) mvs init = some d) (hstill : ∀ t, ¬ m.CanMove P d t) :
    (ofMoves mvs h).Fair P := by
  intro t hagain
  obtain ⟨k, hk, hmove⟩ := hagain mvs.length
  refine absurd hmove ?_
  have hend : (ofMoves mvs h).config k = d := by
    simp only [ofMoves, List.take_of_length_le hk, h, Option.getD_some]
  rw [hend]
  exact hstill t

end Run
end Concurrency

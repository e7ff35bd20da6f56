import AntHal.Concurrency.Machine
import Mathlib.Logic.Relation

/-!
Threads that wait for each other.

A thread that cannot move waits for another one. It hangs if nobody in the chain
of threads behind it can move. Where waiting leads down a rank there is no cycle, and
every chain ends in a thread that can move.
-/

namespace Concurrency
namespace Machine

variable {Op : Type} {Res : Op → Type} {Label Tid σ Env : Type}

/-- The thread exists and has not terminated. -/
def Live (c : Config Op Res Label Tid σ) (t : Tid) : Prop :=
  ∃ th, c.pool t = some th ∧ th.terminated = false

theorem live_iff {c : Config Op Res Label Tid σ} {t : Tid} :
    Live c t ↔ ∃ l o k, c.pool t = some ⟨l, .op o k⟩ := by
  constructor
  · rintro ⟨⟨l, code⟩, hth, hlive⟩
    cases code with
    | ret a => cases hlive
    | op o k => exact ⟨l, o, k, hth⟩
  · rintro ⟨l, o, k, hth⟩
    exact ⟨_, hth, rfl⟩

variable [DecidableEq Tid]

/-- Some answer of the environment lets the thread take its next operation. -/
def CanMove (m : Machine Op Res Label Tid σ Env) (P : Env → Prop)
    (c : Config Op Res Label Tid σ) (t : Tid) : Prop :=
  ∃ env d, P env ∧ m.step (.act t env) c = some d

/-- The thread waits, and so does everybody it waits for. -/
structure Hangs (m : Machine Op Res Label Tid σ Env) (P : Env → Prop)
    (waits : Config Op Res Label Tid σ → Tid → Tid → Prop)
    (c : Config Op Res Label Tid σ) (t : Tid) : Prop where
  live : Live c t
  chain : ∀ u, Relation.ReflTransGen (waits c) t u → ¬ m.CanMove P c u

section chains
variable {m : Machine Op Res Label Tid σ Env} {P : Env → Prop}
  {waits : Config Op Res Label Tid σ → Tid → Tid → Prop} {c : Config Op Res Label Tid σ}
  {t u : Tid}

/-- An operation that is ready is taken, unless it creates a thread that exists. -/
theorem canMove_of_ready (env : Env) {l : Label} {o : Op} {k : Res o → Prog Op Res (Option Label)}
    (hth : c.pool t = some ⟨l, .op o k⟩) (henv : P env)
    (hready : m.ready c.pool t env o c.shared = true)
    (hspawn : ∀ u lu, m.spawn o (m.effect t env o c.shared).1 (m.effect t env o c.shared).2 =
      some (u, lu) → c.pool u = none) : m.CanMove P c t := by
  refine ⟨env, ?_⟩
  simp only [step, hth, hready, if_true, after]
  split
  · exact ⟨_, henv, rfl⟩
  · rename_i u lu hu
    rw [if_pos (Option.isNone_iff_eq_none.mpr (hspawn u lu hu))]
    exact ⟨_, henv, rfl⟩

theorem Hangs.stuck (h : m.Hangs P waits c t) : ¬ m.CanMove P c t := h.chain t .refl

theorem Hangs.next (h : m.Hangs P waits c t) (hw : waits c t u) (hu : Live c u) :
    m.Hangs P waits c u :=
  ⟨hu, fun v hv => h.chain v (.head hw hv)⟩

/-- If waiting leads down a rank, nobody hangs. -/
theorem not_hangs_of_rank (rank : Tid → Nat) (hblocked : ∀ u, Live c u → ¬ m.CanMove P c u →
      ∃ w, waits c u w ∧ Live c w ∧ rank w < rank u) : ¬ m.Hangs P waits c t := by
  induction hn : rank t using Nat.strongRecOn generalizing t with
  | _ n ih =>
      intro h
      obtain ⟨w, hw, hlive, hlt⟩ := hblocked t h.live h.stuck
      exact ih (rank w) (hn ▸ hlt) rfl (h.next hw hlive)

/-- A live thread does not hang: its chain leads to one that can move. -/
theorem exists_canMove (hlive : Live c t) (h : ¬ m.Hangs P waits c t) :
    ∃ u, Relation.ReflTransGen (waits c) t u ∧ m.CanMove P c u := by
  by_contra hnone
  exact h ⟨hlive, fun u hu hmove => hnone ⟨u, hu, hmove⟩⟩

/-- Two threads that wait for each other only, and cannot move, hang. -/
theorem hangs_of_cycle (ht : Live c t) (htu : ∀ w, waits c t w → w = u)
    (hut : ∀ w, waits c u w → w = t) (hstuck : ¬ m.CanMove P c t) (hstuck' : ¬ m.CanMove P c u) :
    m.Hangs P waits c t := by
  refine ⟨ht, fun w hw => ?_⟩
  have hmem : w = t ∨ w = u := by
    induction hw with
    | refl => exact .inl rfl
    | tail _ hstep ih =>
        rcases ih with rfl | rfl
        · exact .inr (htu _ hstep)
        · exact .inl (hut _ hstep)
  rcases hmem with rfl | rfl
  · exact hstuck
  · exact hstuck'

end chains
end Machine
end Concurrency

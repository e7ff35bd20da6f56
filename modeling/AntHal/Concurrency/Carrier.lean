import AntHal.Concurrency.Machine
import AntHal.Resource.Ledger

/-!
Values in the hands of threads.

A thread may be given a value as the answer of an operation and give it back
with its next one. If every program does so, what is out in the ledger of these
values is what the threads have in hand, one value each, whatever the values are
and however the threads interleave.
-/

namespace Concurrency

variable {Op : Type} {Res : Op → Type} {Label Tid σ Env α : Type} [DecidableEq α]

structure Carrier (m : Machine Op Res Label Tid σ Env) (α : Type) [DecidableEq α] where
  /-- The value that an answer puts into the hands of the thread. -/
  takes : (o : Op) → Res o → Option α
  /-- The value that an operation gives back. -/
  gives : Op → Option α
  book : σ → Option (Multiset α)
  /-- The steps that a run may take. -/
  allow : Tid → Env → Op → σ → Prop
  book_gives : ∀ {t env o s a}, allow t env o s → gives o = some a →
    takes o (m.effect t env o s).1 = none ∧
      book (m.effect t env o s).2 = (book s).bind (Ledger.enter · (.release a))
  book_takes : ∀ {t env o s a}, allow t env o s → takes o (m.effect t env o s).1 = some a →
    book (m.effect t env o s).2 = (book s).bind (Ledger.enter · (.acquire a))
  book_kept : ∀ {t env o s}, allow t env o s → gives o = none →
    takes o (m.effect t env o s).1 = none → book (m.effect t env o s).2 = book s

namespace Carrier

variable {m : Machine Op Res Label Tid σ Env} {β γ : Type}

/-- A program that is started with `v` in hand gives it back at once, and so on. -/
def Hands (C : Carrier m α) : Option α → Prog Op Res β → Prop
  | v, .ret _ => v = none
  | v, .op o k => C.gives o = v ∧ ∀ r, C.Hands (C.takes o r) (k r)

section rules
variable {C : Carrier m α} {v : Option α}

theorem Hands.bind {p : Prog Op Res β} {f : β → Prog Op Res γ} (h : C.Hands v p)
    (hf : ∀ a, C.Hands none (f a)) : C.Hands v (p >>= f) := by
  induction p generalizing v with
  | ret a =>
      obtain rfl : v = none := h
      exact hf a
  | op o k ih => exact ⟨h.1, fun r => ih r (h.2 r)⟩

/-- Operations that neither take nor give. -/
theorem hands_only {p : Prog Op Res β} {P : Op → Prop} {Q : β → Prop} (h : p.Only P Q)
    (hP : ∀ o, P o → C.gives o = none ∧ ∀ r, C.takes o r = none) : C.Hands none p := by
  induction p with
  | ret a => rfl
  | op o k ih =>
      obtain ⟨ho, hk⟩ := (Prog.only_op o k).mp h
      obtain ⟨hgives, htakes⟩ := hP o ho
      exact ⟨hgives, fun r => (htakes r).symm ▸ ih r (hk r)⟩

theorem hands_ite {c : Prop} [Decidable c] {p q : Prog Op Res β} (hp : c → C.Hands v p)
    (hq : ¬ c → C.Hands v q) : C.Hands v (if c then p else q) := by
  split
  · exact hp ‹_›
  · exact hq ‹_›

end rules

/-- The check of every block: it starts and ends with nothing in hand. -/
def Checked (C : Carrier m α) : Prop := ∀ l, C.Hands none (m.body l)

/-- What thread `t` has in hand: it gives that back with its next operation. -/
def inHand (C : Carrier m α) (c : Config Op Res Label Tid σ) (t : Tid) : Option α :=
  ((c.pool t).bind Thread.head?).bind C.gives

/-- A move that the carrier is about. -/
def Allowed (C : Carrier m α) (c : Config Op Res Label Tid σ) : Move Label Tid Env → Prop
  | .start _ _ => True
  | .act t env => ∀ o, (c.pool t).bind Thread.head? = some o → C.allow t env o c.shared

variable {C : Carrier m α} {c d : Config Op Res Label Tid σ} {t : Tid}

theorem inHand_none (h : c.pool t = none) : C.inHand c t = none := by
  rw [inHand, h]
  rfl

theorem inHand_eq {th : Thread Op Res Label} {v : Option α} (hth : c.pool t = some th)
    (h : C.Hands v th.code) : C.inHand c t = v := by
  rw [inHand, hth]
  obtain ⟨l, code⟩ := th
  cases code with
  | ret a => exact h.symm
  | op o k => exact h.1

theorem hands_resume (hbody : C.Checked) {l : Label} {p : Prog Op Res (Option Label)}
    {v : Option α} (h : C.Hands v p) : C.Hands v (m.resume l p).code := by
  obtain ⟨l', rfl, hr⟩ | hr := m.resume_cases l p
  · obtain rfl : v = none := h
    rw [hr]
    exact hbody l'
  · rw [hr]
    exact h

/-- The ledger of the values is what the threads have in hand. -/
structure Holds (C : Carrier m α) (c : Config Op Res Label Tid σ) : Prop where
  code : ∀ t th, c.pool t = some th → C.Hands (C.inHand c t) th.code
  book : ∃ hands : Multiset (Tid × α), hands.Nodup ∧
    (∀ t a, (t, a) ∈ hands ↔ C.inHand c t = some a) ∧
      C.book c.shared = some (hands.map Prod.snd)

/-- Only the acting thread changes what it has in hand. -/
theorem inHand_step (hbody : C.Checked) (h : C.Holds c) {env : Env} {l : Label} {o : Op}
    {k : Res o → Prog Op Res (Option Label)} (ha : m.Acts t env c d l o k) :
    C.inHand d t = C.takes o (m.effect t env o c.shared).1 ∧
      ∀ u, u ≠ t → C.inHand d u = C.inHand c u := by
  refine ⟨inHand_eq ha.self.2 (hands_resume hbody ((h.code t _ ha.thread).2 _)), fun u hut => ?_⟩
  by_cases hspawn : ∃ lu, m.spawn o (m.effect t env o c.shared).1 d.shared = some (u, lu)
  · obtain ⟨lu, hlu⟩ := hspawn
    obtain ⟨hnone, hnew⟩ := ha.created u lu hlu
    rw [inHand_none hnone]
    exact inHand_eq hnew (hbody lu)
  · rw [inHand, inHand, ha.others u hut fun lu hlu => hspawn ⟨lu, hlu⟩]

variable [DecidableEq Tid]

theorem code_step (hbody : C.Checked) (h : C.Holds c) {env : Env} {l : Label} {o : Op}
    {k : Res o → Prog Op Res (Option Label)} (ha : m.Acts t env c d l o k) :
    ∀ u th, d.pool u = some th → C.Hands (C.inHand d u) th.code := by
  intro u th hu
  obtain ⟨hself, hothers⟩ := inHand_step hbody h ha
  obtain ⟨rfl, rfl⟩ | ⟨lu, hspawn, rfl⟩ | ⟨hut, hold⟩ := ha.cases hu
  · rw [hself]
    exact hands_resume hbody ((h.code u _ ha.thread).2 _)
  · rw [inHand_eq hu (hbody lu)]
    exact hbody lu
  · rw [hothers u hut]
    exact h.code u th hold

/-- A step takes one value, or gives one back, or leaves the hands as they are. -/
theorem book_step (hbody : C.Checked) (h : C.Holds c) {env : Env} {l : Label} {o : Op}
    {k : Res o → Prog Op Res (Option Label)} (ha : m.Acts t env c d l o k)
    (hallow : C.allow t env o c.shared) :
    ∃ hands : Multiset (Tid × α), hands.Nodup ∧
      (∀ u a, (u, a) ∈ hands ↔ C.inHand d u = some a) ∧
        C.book d.shared = some (hands.map Prod.snd) := by
  obtain ⟨hands, hnodup, hmem, hbook⟩ := h.book
  obtain ⟨hself, hothers⟩ := inHand_step hbody h ha
  have hbefore : C.gives o = C.inHand c t := (h.code t _ ha.thread).1
  rw [ha.shared]
  cases hgives : C.gives o with
  | some a =>
      obtain ⟨htakes, hd⟩ := C.book_gives hallow hgives
      have hin : (t, a) ∈ hands := (hmem t a).mpr (hbefore.symm.trans hgives)
      refine ⟨hands.erase (t, a), hnodup.erase _, fun u x => ?_, ?_⟩
      · rw [hnodup.mem_erase_iff, hmem]
        by_cases hut : u = t
        · subst hut
          rw [hself, htakes, ← hbefore, hgives]
          simp [eq_comm]
        · simp [hothers u hut, hut]
      · rw [hd, hbook, Option.bind_some, Ledger.enter,
          if_pos (Multiset.mem_map_of_mem Prod.snd hin), Multiset.map_erase_of_mem _ _ hin]
  | none =>
      cases htakes : C.takes o (m.effect t env o c.shared).1 with
      | some a =>
          have hout : (t, a) ∉ hands := by
            rw [hmem, ← hbefore, hgives]
            exact Option.some_ne_none a ∘ Eq.symm
          refine ⟨(t, a) ::ₘ hands, Multiset.nodup_cons.mpr ⟨hout, hnodup⟩, fun u x => ?_, ?_⟩
          · rw [Multiset.mem_cons, hmem]
            by_cases hut : u = t
            · subst hut
              rw [hself, htakes, ← hbefore, hgives]
              simp [eq_comm]
            · simp [hothers u hut, hut]
          · rw [C.book_takes hallow htakes, hbook, Multiset.map_cons]
            rfl
      | none =>
          refine ⟨hands, hnodup, fun u x => ?_, (C.book_kept hallow hgives htakes).trans hbook⟩
          rw [hmem]
          by_cases hut : u = t
          · subst hut
            rw [hself, htakes, ← hbefore, hgives]
          · rw [hothers u hut]

theorem holds_step (hbody : C.Checked) (h : C.Holds c) {mv : Move Label Tid Env}
    (hC : C.Allowed c mv) (hs : m.step mv c = some d) : C.Holds d := by
  cases mv with
  | start t l =>
      obtain ⟨-, hnone, rfl⟩ := Machine.step_start hs
      have hsame : ∀ u, C.inHand ⟨c.shared, Function.update c.pool t (some ⟨l, m.body l⟩)⟩ u =
          C.inHand c u := by
        intro u
        by_cases hut : u = t
        · subst hut
          rw [inHand_none hnone]
          exact inHand_eq (Function.update_self _ _ _) (hbody l)
        · simp [inHand, Function.update_of_ne hut]
      refine ⟨fun u th hu => ?_, ?_⟩
      · rw [hsame]
        obtain ⟨rfl, rfl⟩ | ⟨-, hold⟩ := Machine.step_start_cases hs hu
        · rw [inHand_none hnone]
          exact hbody l
        · exact h.code u th hold
      · simp only [hsame]
        exact h.book
  | act t env =>
      obtain ⟨l, o, k, ha⟩ := Machine.step_act hs
      exact ⟨code_step hbody h ha, book_step hbody h ha (hC o (by rw [ha.thread]; rfl))⟩

theorem holds_path {K : Config Op Res Label Tid σ → Move Label Tid Env → Prop}
    (hbody : C.Checked) (hC : ∀ x mv, K x mv → C.Allowed x mv) (hnew : ∀ t, c.pool t = none)
    (hempty : C.book c.shared = some 0) (hp : m.Path K c d) : C.Holds d := by
  refine hp.invariant (fun _ _ _ hx hk hs => holds_step hbody hx (hC _ _ hk) hs) ⟨?_, 0, ?_⟩
  · intro t th hth
    cases (hnew t).symm.trans hth
  · refine ⟨Multiset.nodup_zero, fun t a => ?_, hempty⟩
    simp [inHand_none (hnew t)]

end Carrier
end Concurrency

import AntHal.Concurrency.Registration
import AntHal.Bluez.LockInvariant

/-!
There is one receiver at most, in the BlueZ back end too.

A join cannot fail here, so this holds of every run: a receive thread that has not
left its loop is the recorded one.
-/

namespace AntHal.Bluez

open Concurrency

/-- The labels up to the end of the loop of the receive thread. -/
def Label.receives : Label → Prop
  | .rxStart | .rxLoop _ | .rxPoll _ | .rxRead _ => True
  | _ => False

/-- The label behind the loop. -/
def Label.closes : Label → Prop
  | .rxClose _ => True
  | _ => False

/-- The receive thread `n` is on its way to its loop, or in it. -/
def Receiving (c : ThreadConfig) (n : Nat) : Prop :=
  ∃ th, c.pool (.rx n) = some th ∧ th.terminated = false ∧ th.label.receives

/-- No thread, or the recorded one. -/
def Shared.recorded (s : Shared) : Option Tid := if s.thread = 0 then none else some (.rx s.thread)

theorem recorded_eq_none {s : Shared} : s.recorded = none ↔ s.thread = 0 := by
  simp [Shared.recorded]

theorem recorded_eq_some {s : Shared} {u : Tid} :
    s.recorded = some u ↔ s.thread ≠ 0 ∧ u = .rx s.thread := by
  simp [Shared.recorded, eq_comm]

/-- The record of the receive threads, and how they leave it. -/
def rxRegistry (b : Build) : Registry (machine b) where
  owner s := s.locks .enableLock
  recorded := Shared.recorded
  member t := ∃ n, t = .rx n
  clears o := o = .clearThread
  creates o := o = .pthreadCreate
  unlocks o := lockAct o = .unlock
  within := Label.receives
  left := Label.closes
  apart {l} h h' := by cases l <;> first | exact h | exact h'
  entry {t l} h := by
    rintro ⟨n, rfl⟩
    cases l <;> cases h
  spawn := by
    intro t env o s u l hspawn
    obtain ⟨rfl, -, -⟩ := spawned_rx hspawn
    simp only [machine, spawned] at hspawn
    split at hspawn
    · rename_i hret
      cases hspawn
      refine recorded_eq_some.mpr ⟨?_, rfl⟩
      simp only [machine, effect] at hret ⊢
      split
      · exact Nat.succ_ne_zero _
      · rename_i herr
        rw [if_neg herr] at hret
        exact absurd hret herr
    · cases hspawn

section programs
variable {b : Build}

theorem forgetsOnce_of_within {l : Label} {p : Cmd (Option Label)} {P : Option Label → Prop}
    (h : Quietly P p) (hl : ¬ l.closes) : p.Always ((rxRegistry b).ForgetsOnce l) := by
  refine h.always fun o k ho => ⟨fun hleft => absurd hleft hl, fun _ => ?_⟩
  rintro rfl
  cases ho

theorem rxClose_forgetsOnce (rxSocket : Int) :
    (rxClose b rxSocket).Always ((rxRegistry b).ForgetsOnce (.rxClose rxSocket)) := by
  have hquiet {α : Type} {P : α → Prop} {p : Cmd α} {f : α → Cmd (Option Label)} (h : Quietly P p)
      (hf : ∀ a, (f a).Always ((rxRegistry b).ForgetsOnce (.rxClose rxSocket))) :
      (p >>= f).Always ((rxRegistry b).ForgetsOnce (.rxClose rxSocket)) := by
    refine h.always_bind (fun o k ho => ⟨fun _ hend => ?_, False.elim⟩) fun a _ => hf a
    rcases hend with rfl | hunlock
    · cases ho
    · cases hunlock.symm.trans (quiet_plain ho (.app 0)).1
  have hend : (close rxSocket >>= fun _ => (.ret none : Cmd (Option Label))).Always
      ((rxRegistry b).ForgetsOnce (.rxClose rxSocket)) :=
    ⟨⟨fun _ _ _ => trivial, False.elim⟩, fun _ => trivial⟩
  simp only [rxClose, Prog.op_bind, Prog.ret_bind, Prog.pure_eq]
  refine ⟨⟨fun _ h => ?_, False.elim⟩, fun result => ?_⟩
  · rcases h with h | h <;> cases h
  · dsimp only [crashCleanUp]
    split
    · simp only [Prog.bind_assoc, Prog.op_bind, Prog.ret_bind]
      refine hquiet crashDisable_quietly fun _ => ⟨⟨fun _ h => ?_, False.elim⟩, fun _ =>
        ⟨⟨fun _ _ _ => ?_, False.elim⟩, fun _ => hend⟩⟩
      · rcases h with h | h <;> cases h
      · exact (Prog.only_op _ _).mpr ⟨by simp [rxRegistry], fun _ => trivial⟩
    · exact hend

theorem body_forgetsOnce (l : Label) : (body b l).Always ((rxRegistry b).ForgetsOnce l) := by
  cases l with
  | enableRadio | disableRadio | radioEnabledStatus | txMessage | txWrite | txWait | txRead |
    txClose =>
      exact Prog.always_of_forall fun _ _ => ⟨False.elim, False.elim⟩
  | rxStart => exact forgetsOnce_of_within (quietly_of_transfers rxStart_transfers) id
  | rxLoop rxSocket => exact forgetsOnce_of_within (rxLoop_quietly rxSocket) id
  | rxPoll rxSocket =>
      exact forgetsOnce_of_within (quietly_of_transfers (rxPoll_transfers rxSocket)) id
  | rxRead rxSocket =>
      exact forgetsOnce_of_within (quietly_of_transfers (rxRead_transfers rxSocket)) id
  | rxClose rxSocket => exact rxClose_forgetsOnce rxSocket

theorem body_endsIfLeft (l : Label) : (body b l).Returns ((rxRegistry b).EndsIfLeft l) := by
  cases l with
  | rxClose rxSocket =>
      exact fun result => Prog.returns_bind (crashCleanUp b result) fun _ _ _ => rfl
  | _ => exact (Prog.returns_true _).mono fun _ _ h => h.elim

end programs

section runs
variable {b : Build} {stateCallback rxCallback : Bool} {c d : ThreadConfig}

theorem joined_effect {t : Tid} {env : Env} {o : Op} {s : Shared} {n : Nat}
    (h : .joined n ∈ (effect t env o s).2.events) : .joined n ∈ s.events ∨ o = .pthreadJoin n := by
  have hlog {e : Event} (he : .joined n ∈ (s.log e).events) (hne : ∀ m, e ≠ .joined m) :
      .joined n ∈ s.events ∨ o = .pthreadJoin n := by
    rcases List.mem_append.mp he with hold | hnew
    · exact .inl hold
    · exact absurd (List.mem_singleton.mp hnew).symm (hne n)
  cases o with
  | pthreadJoin m =>
      rcases List.mem_append.mp h with hold | hnew
      · exact .inl hold
      · cases List.mem_singleton.mp hnew
        exact .inr rfl
  | mutexLock | mutexTrylock | read =>
      simp only [effect] at h
      repeat' split at h
      all_goals exact .inl h
  | pthreadCreate | writev =>
      simp only [effect] at h
      split at h
      · exact hlog h (by simp)
      · exact .inl h
  | funcStart | funcEnd | stateCallback | rxCallback | antEnable | antDisable | unlockReturn =>
      exact hlog h (by simp)
  | _ => exact .inl h

/-- A thread that has been joined has terminated, and stays so. -/
theorem joined_terminated
    (hreach : (machine b).Reachable (initConfig stateCallback rxCallback) c) {n : Nat}
    (hjoined : .joined n ∈ c.shared.events) :
    ∃ th, c.pool (.rx n) = some th ∧ th.terminated = true := by
  refine hreach.invariant (I := fun c => ∀ n, .joined n ∈ c.shared.events →
    ∃ th, c.pool (.rx n) = some th ∧ th.terminated = true) ?_ (fun _ h => nomatch h) n hjoined
  intro c mv d hI _ hs n hjoined
  cases mv with
  | start t l =>
      have hshared : d.shared = c.shared := by
        obtain ⟨-, -, rfl⟩ := Machine.step_start hs
        rfl
      obtain ⟨th, hth, hend⟩ := hI n (hshared ▸ hjoined)
      exact ⟨th, Machine.step_start_kept hs hth, hend⟩
  | act t env =>
      obtain ⟨l, o, k, ha⟩ := Machine.step_act hs
      have hshared : d.shared = (effect t env o c.shared).2 := ha.shared
      rw [hshared] at hjoined
      have hended : ∃ th, c.pool (.rx n) = some th ∧ th.terminated = true := by
        rcases joined_effect hjoined with hold | rfl
        · exact hI n hold
        · have hready : isReady c.pool env (.pthreadJoin n) c.shared = true := ha.ready
          exact Option.any_eq_true _ _ |>.mp hready
      obtain ⟨th, hth, hend⟩ := hended
      refine ⟨th, ha.kept ?_ hth, hend⟩
      rintro rfl
      rw [ha.thread] at hth
      cases hth
      cases hend

theorem recordStep {t : Tid} {env : Env} {l : Label} {o : Op} {k : o.Res → Cmd (Option Label)}
    (hreach : (machine b).Reachable (initConfig stateCallback rxCallback) c)
    (ha : (machine b).Acts t env c d l o k) : (rxRegistry b).Step t o c d := by
  have hholds := enableLock_holds hreach
  have hshared : d.shared = (effect t env o c.shared).2 := ha.shared
  by_cases hclear : o = .clearThread
  · subst hclear
    obtain ⟨howner, hcheck⟩ := inside_record hholds ha.thread (.inl rfl)
    refine .cleared rfl (recorded_eq_none.mpr (by rw [hshared]; rfl)) howner
      (by rw [hshared]; rfl) ?_
    intro hmember u th hu hth
    obtain ⟨hne, rfl⟩ := recorded_eq_some.mp hu
    have happ : ∃ n, t = .app n := by
      cases t with
      | app n => exact ⟨n, rfl⟩
      | rx n => exact absurd ⟨n, rfl⟩ hmember
    rcases hcheck happ with hzero | hjoined
    · exact absurd hzero hne
    · obtain ⟨th', hth', hend⟩ := joined_terminated hreach (of_decide_eq_true hjoined)
      cases hth.symm.trans hth'
      exact hend
  by_cases hcreate : o = .pthreadCreate
  · subst hcreate
    obtain ⟨howner, hcheck⟩ := inside_record hholds ha.thread (.inr (.inl rfl))
    exact .created rfl (recorded_eq_none.mpr hcheck) howner
  have hsame : d.shared.recorded = c.shared.recorded := by
    rw [hshared, Shared.recorded, thread_kept t env c.shared hclear hcreate, Shared.recorded]
  rcases Monitor.lockStep hholds ha trivial with ⟨-, howner, -⟩ | ⟨-, -, hfree, -, -⟩ |
    ⟨-, -, -, howner, -⟩ | ⟨hact, howner, -, -⟩
  · exact .kept hsame fun u hu => howner.trans hu
  · refine .kept hsame fun u hu => ?_
    cases hfree.symm.trans hu
  · exact .kept hsame fun u hu => howner.trans hu
  · exact .unlocked hact hsame howner

theorem rxRoles (hreach : (machine b).Reachable (initConfig stateCallback rxCallback) c) :
    (rxRegistry b).Roles c := by
  rintro t ⟨l, code⟩ ⟨n, rfl⟩ hth
  have hrole : l.isRx = true := (enableLock_holds hreach).roles _ _ hth
  cases l with
  | rxStart | rxLoop | rxPoll | rxRead => exact .inl trivial
  | rxClose => exact .inr trivial
  | _ => cases hrole

theorem allStand (hreach : (machine b).Reachable (initConfig stateCallback rxCallback) c) :
    (rxRegistry b).AllStand c := by
  refine Registry.allStand_path body_forgetsOnce body_endsIfLeft (fun _ => rxRoles) ?_
    (fun _ => rfl)
    hreach
  intro x y t env l o k hx _ ha
  exact recordStep hx ha

/-- In every run a receive thread that is on its way to its loop, or in it, is the
recorded one. -/
theorem receiver_recorded (hreach : (machine b).Reachable (initConfig stateCallback rxCallback) c)
    {n : Nat} (hrx : Receiving c n) : n ≠ 0 ∧ c.shared.thread = n := by
  obtain ⟨th, hth, hlive, hlabel⟩ := hrx
  obtain ⟨hne, heq⟩ := recorded_eq_some.mp ((allStand hreach).recorded ⟨n, rfl⟩ hth hlive hlabel)
  cases heq
  exact ⟨hne, rfl⟩

/-- An enable, a disable that ends the receive thread, and another enable. -/
def enabledAgain : List (Move Label Tid Env) :=
  .start (.app 0) .enableRadio :: List.replicate 14 (.act (.app 0) {}) ++
    List.replicate 6 (.act (.rx 1) {}) ++
    .start (.app 1) .disableRadio :: List.replicate 6 (.act (.app 1) {}) ++
    List.replicate 4 (.act (.rx 1) {}) ++ List.replicate 6 (.act (.app 1) {}) ++
    .start (.app 2) .enableRadio :: List.replicate 14 (.act (.app 2) { handle := 1 }) ++
    List.replicate 6 (.act (.rx 2) {})

theorem receiver_recorded_again :
    ∃ c : ThreadConfig, Receiving c 2 ∧ 2 ≠ 0 ∧ c.shared.thread = 2 := by
  obtain ⟨c, hpath, hc⟩ := Machine.exec_any (machine ⟨.wl12xx, false⟩)
    (fun _ _ => true) enabledAgain
    (initConfig true true)
    (fun c => (c.pool (.rx 2)).any fun th => !th.terminated && th.label = .rxLoop 3) (by decide)
  simp only [Option.any_eq_true, Bool.and_eq_true, Bool.not_eq_true', decide_eq_true_eq] at hc
  obtain ⟨th, hth, hlive, hlabel⟩ := hc
  have hrx : Receiving c 2 := ⟨th, hth, hlive, by rw [hlabel]; trivial⟩
  exact ⟨c, hrx, receiver_recorded hpath.reachable hrx⟩

end runs
end AntHal.Bluez

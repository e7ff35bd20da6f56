import AntHal.Chardev.LockInvariant

/-!
Join against lock.

`ant_disable` joins the receive thread while it holds the state lock, and
`doReset` takes the state lock on the receive thread. Nothing keeps the two
apart: the trylock behind the poll loop is of no help to a thread that leaves
the loop through `doReset`. If a thread is signalled only while it is not
resetting, and does not begin to reset once it is signalled, no run deadlocks.
-/

namespace AntHal

open Concurrency

section deadlock
variable (c : ThreadConfig)

/-- `t` holds the lock and joins the receive thread `h`, which waits for the
lock inside `doReset`. -/
def deadlocked (t : Tid) (h : Nat) : Bool :=
  c.shared.stEnabledStatusLock = some t &&
    (c.pool t).any (fun th => th.head? = some (.pthreadJoin h)) &&
    (c.pool (.rx h)).any (fun th => th.label = .doReset && th.head? = some .mutexLock)

def JoinDeadlock : Prop := ∃ t h, deadlocked c t h = true

/-- The receive thread `h` has begun `doReset` and has not ended. -/
def inReset (h : Nat) : Bool :=
  (c.pool (.rx h)).any fun th =>
    th.label = .doReset && th.head? ≠ some (.funcStart .doReset) && !th.terminated

/-- A shutdown signal is written only to a thread that is not resetting, and a
signalled thread does not begin to reset. -/
def apart : Move Label Tid Env → Bool
  | .start _ _ => true
  | .act t env =>
    match (c.pool t).bind Thread.head? with
    | some .eventfdWrite => !(env.eventfdWrite && inReset c c.shared.stRxThread)
    | some (.funcStart .doReset) => !(t = .rx c.shared.stRxThread && c.shared.signalled)
    | _ => true

end deadlock

section blocked
variable {b : Build} {c d : ThreadConfig} {t : Tid} {h : Nat}

theorem deadlocked_iff : deadlocked c t h = true ↔
    c.shared.stEnabledStatusLock = some t ∧
    (∃ th, c.pool t = some th ∧ th.head? = some (.pthreadJoin h)) ∧
    ∃ th, c.pool (.rx h) = some th ∧ th.label = .doReset ∧ th.head? = some .mutexLock := by
  simp [deadlocked, Option.any_eq_true, and_assoc]

theorem inReset_iff : inReset c h = true ↔
    ∃ th, c.pool (.rx h) = some th ∧ th.label = .doReset ∧
      th.head? ≠ some (.funcStart .doReset) ∧ th.terminated = false := by
  simp [inReset, Option.any_eq_true, and_assoc]

/-- Neither of the two threads can take a step. -/
theorem deadlocked_blocked (hdead : deadlocked c t h = true) (env : Env) :
    (machine b).step (.act t env) c = none ∧ (machine b).step (.act (.rx h) env) c = none := by
  obtain ⟨hlock, ⟨tj, hj, hjoin⟩, tr, hr, hlabel, hmutex⟩ := deadlocked_iff.mp hdead
  obtain ⟨kj, hkj⟩ := Thread.code_of_head hjoin
  obtain ⟨kr, hkr⟩ := Thread.code_of_head hmutex
  obtain ⟨lj, codej⟩ := tj
  obtain ⟨lr, coder⟩ := tr
  cases hkj
  cases hkr
  constructor
  · simp [Machine.step, hj, machine, isReady, hr, Thread.terminated, Thread.head?]
  · simp [Machine.step, hr, machine, isReady, hlock]

/-- How a thread comes to be inside `doReset`: it was, or it has begun. -/
theorem inReset_step {env : Env} {l : Label} {o : Op} {k : Op.Res o → Cmd (Option Label)}
    (ha : (machine b).Acts t env c d l o k) (hd : inReset d h = true) :
    inReset c h = true ∨ t = .rx h ∧ o = .funcStart .doReset := by
  obtain ⟨th, hth, hlabel, hhead, hlive⟩ := inReset_iff.mp hd
  rcases ha.cases hth with ⟨rfl, rfl⟩ | ⟨lu, hspawn, rfl⟩ | ⟨-, hold⟩
  · by_cases ho : o = .funcStart .doReset
    · exact .inr ⟨rfl, ho⟩
    · refine .inl (inReset_iff.mpr ⟨_, ha.thread, ?_, by simpa [Thread.head?] using ho, rfl⟩)
      rcases (machine b).resume_cases l (k ((machine b).effect (.rx h) env o c.shared).1) with
        ⟨l', -, hresume⟩ | hresume
      · rw [hresume] at hlabel hhead
        obtain rfl : l' = .doReset := hlabel
        exact absurd rfl hhead
      · rw [hresume] at hlabel
        exact hlabel
  · cases o <;> simp only [machine, spawned, reduceCtorEq] at hspawn
    split at hspawn
    · cases hspawn
      cases hlabel
    · cases hspawn
  · exact .inl (inReset_iff.mpr ⟨th, hold, hlabel, hhead, hlive⟩)

/-- A signal appears when it is written. -/
theorem signalled_effect {env : Env} {o : Op} {s : Shared}
    (hsig : (effect b t env o s).2.signalled = true) :
    s.signalled = true ∨ o = .eventfdWrite ∧ env.eventfdWrite = true := by
  cases o with
  | eventfdWrite =>
      by_cases hw : env.eventfdWrite = true
      · exact .inr ⟨rfl, hw⟩
      · simp only [effect, hw] at hsig
        exact .inl hsig
  | mutexTrylock =>
      simp only [effect] at hsig
      split at hsig <;> exact .inl hsig
  | openDevice | pthreadCreate | keepAliveCreate =>
      simp only [effect] at hsig
      split at hsig
      · simp only [Shared.log_signalled, Event.signal?, Option.getD_none] at hsig
        exact .inl hsig
      · exact .inl hsig
  | pthreadJoin h => simp [effect, Event.signal?] at hsig
  | readChannelMsg ch =>
      simp only [effect, Shared.log_signalled] at hsig
      exact .inl hsig
  | _ => first | exact .inl hsig | exact .inl (by simpa [effect, Event.signal?] using hsig)

/-- While a signal is on its way, the recorded thread is not resetting. -/
def SignalledApart (c : ThreadConfig) : Prop :=
  c.shared.signalled = true → c.shared.stRxThread ≠ 0 → inReset c c.shared.stRxThread = false

theorem signalledApart_act (hI : SignalledApart c) {env : Env} {l : Label} {o : Op}
    {k : Op.Res o → Cmd (Option Label)} (ha : (machine b).Acts t env c d l o k)
    (hapart : apart c (.act t env) = true) : SignalledApart d := by
  intro hsig hthread
  by_contra hreset
  rw [Bool.not_eq_false] at hreset
  simp only [apart, ha.thread, Option.bind_some, Thread.head?] at hapart
  have hshared : d.shared = (effect b t env o c.shared).2 := ha.shared
  rw [hshared] at hsig hthread
  rcases stRxThread_effect b t env o c.shared with hsame | hzero | hnew
  · rw [hshared, hsame] at hreset
    rw [hsame] at hthread
    rcases inReset_step ha hreset with hold | ⟨rfl, rfl⟩
    · rcases signalled_effect hsig with hwas | ⟨rfl, hwrite⟩
      · rw [hI hwas hthread] at hold
        cases hold
      · simp [hwrite, hold] at hapart
    · rcases signalled_effect hsig with hwas | ⟨ho, -⟩
      · simp [hwas] at hapart
      · cases ho
  · exact hthread hzero
  · rw [hshared] at hreset
    have hspawn := (ha.created _ _ (by rw [hshared]; exact hnew)).2
    obtain ⟨th, hth, hlabel, -⟩ := inReset_iff.mp hreset
    rw [hspawn] at hth
    cases hth
    cases hlabel

theorem signalledApart_step (hI : SignalledApart c) {mv : Move Label Tid Env}
    (hapart : apart c mv = true) (hs : (machine b).step mv c = some d) : SignalledApart d := by
  cases mv with
  | start t l =>
      obtain ⟨hshared, hrx⟩ := start_rx hs
      rw [SignalledApart, hshared, inReset, hrx]
      exact hI
  | act t env =>
      obtain ⟨l, o, k, ha⟩ := Machine.step_act hs
      exact signalledApart_act hI ha hapart

/-- A run that keeps signal and reset apart does not deadlock. -/
theorem not_joinDeadlock {stateCallback rxCallback : Bool}
    (h : (machine b).Path (fun x mv => apart x mv = true)
      (initConfig stateCallback rxCallback) c) : ¬ JoinDeadlock c := by
  have hI : SignalledApart c :=
    h.invariant (fun _ _ _ hx hC hs => signalledApart_step hx hC hs) (fun hsig => nomatch hsig)
  have hholds := stateLock_holds h.reachable
  rintro ⟨t, j, hdead⟩
  obtain ⟨hlock, ⟨th, hth, hjoin⟩, tr, hr, hlabel, hmutex⟩ := deadlocked_iff.mp hdead
  obtain ⟨kj, hkj⟩ := Thread.code_of_head hjoin
  obtain ⟨-, hrecorded, hne, -, hsig⟩ :=
    hholds.checks (l := th.label) (k := kj) (by rw [hth, ← hkj]) hlock
  have hthread : c.shared.stRxThread = j := hrecorded.symm
  have hreset : inReset c j = true := by
    refine inReset_iff.mpr ⟨tr, hr, hlabel, ?_, ?_⟩
    · simp [hmutex]
    · simp [Thread.terminated, hmutex]
  have hapart := hI hsig (hthread ▸ hne)
  rw [hthread, hreset] at hapart
  cases hapart

/-- An enable, a disable, and the receive thread that leaves its loop for it. -/
def enablingDisabling : List (Move Label Tid Env) :=
  enabling ++ .start (.app 1) .disableRadio :: List.replicate 14 (.act (.app 1) {}) ++
    List.replicate 7 (.act (.rx 1) {}) ++ List.replicate 18 (.act (.app 1) {})

/-- The disable has joined the receive thread and returned. -/
def disabledInTurn (c : ThreadConfig) : Bool :=
  (c.pool (.app 1)).any Thread.terminated && (c.pool (.rx 1)).any Thread.terminated &&
    radioEnabledStatus .smd c.shared = .disabled

theorem not_joinDeadlock_disable : ∃ c, disabledInTurn c = true ∧ ¬ JoinDeadlock c := by
  obtain ⟨c, hpath, hc⟩ := Machine.exec_any (machine .smd) apart
    enablingDisabling (initConfig true true) disabledInTurn (by decide)
  exact ⟨c, hc, not_joinDeadlock hpath⟩

/-- The receive thread enters `doReset` after a failing poll, and a disable that
holds the lock joins it. -/
def resettingDisabling : List (Move Label Tid Env) :=
  enabling ++ List.replicate 12 (.act (.rx 1) { poll := ⟨-1, fun _ => 0, 0⟩ }) ++
    .start (.app 1) .disableRadio :: List.replicate 10 (.act (.app 1) {})

theorem joinDeadlock_reachable :
    ¬ ∀ (b : Build) (stateCallback rxCallback : Bool) (c : ThreadConfig),
      (machine b).Reachable (initConfig stateCallback rxCallback) c → ¬ JoinDeadlock c := by
  intro h
  obtain ⟨c, hpath, hc⟩ := Machine.exec_any (machine .smd) (fun _ _ => true)
    resettingDisabling (initConfig true true)
    (fun c => deadlocked c (.app 1) 1) (by decide)
  exact h .smd true true c hpath.reachable ⟨_, _, hc⟩

end blocked
end AntHal

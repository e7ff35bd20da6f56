import AntHal.Concurrency.Undisturbed
import AntHal.Chardev.Operations
import AntHal.Chardev.StatusTruth

/-!
Does a reset tell the truth?

`doReset` and the hard reset do the same under stEnabledStatusLock: they disable,
enable and report. A thread that the others leave alone does so as if it ran by
itself, and then the condition under which its report agrees with the radio is
exact. The lock keeps the others from the channels and from the recorded thread,
but not from the two flags, which a receive thread writes without it.
-/

namespace AntHal

open Concurrency

namespace Radio

variable {b : Build} {env : Env} {r : Radio}

/-- What the statuses told during a reset promise about the radio after it. -/
structure ResetTruth (b : Build) (told : List RadioStatus) (status : RadioStatus)
    (r : Radio) : Prop where
  disabled : .disabled ∈ told → (∀ ch ∈ b.channels, r.iFd ch = -1) ∧ r.stRxThread = 0 ∧
    r.ucRunThread = false ∧ status = .disabled
  reset : .reset ∈ told → status = .enabled

theorem resetTruth_nil (status : RadioStatus) : ResetTruth b [] status r :=
  ⟨nofun, nofun⟩

/-- That a reset has begun is no promise. -/
theorem resetTruth_resetting {told : List RadioStatus} {status : RadioStatus} :
    ResetTruth b (.resetting :: told) status r ↔ ResetTruth b told status r := by
  constructor
  · exact fun h => ⟨fun hmem => h.disabled (List.mem_cons_of_mem _ hmem),
      fun hmem => h.reset (List.mem_cons_of_mem _ hmem)⟩
  · exact fun h => ⟨fun hmem => h.disabled (by simpa using hmem),
      fun hmem => h.reset (by simpa using hmem)⟩

theorem resetTruth_disabled :
    ResetTruth b [.disabled] (r.status b) r ↔ r.status b = .disabled := by
  refine ⟨fun h => (h.disabled (by decide)).2.2.2, fun h => ⟨fun _ => ?_, ?_⟩⟩
  · obtain ⟨-, hrun, hthread, hclosed⟩ := status_eq_disabled_iff.mp h
    exact ⟨hclosed, hthread, hrun, h⟩
  · intro hmem
    simp at hmem

theorem resetTruth_reset :
    ResetTruth b [.reset] (r.status b) r ↔ r.status b = .enabled := by
  refine ⟨fun h => h.reset (by decide), fun h => ⟨?_, fun _ => h⟩⟩
  intro hmem
  simp at hmem

/-- The status that both kinds of reset report at their end. -/
def outcome (e : Int × Radio) : RadioStatus := if e.1 ≠ 0 then .disabled else .reset

/-- The radio at the end of a reset. -/
def settle (e : Int × Radio) : Radio := { e.2.report (outcome e) with ucChipResetting := false }

theorem settle_disabled_iff {e : Int × Radio} :
    (settle e).status b = .disabled ↔
      e.2.ucRunThread = false ∧ e.2.stRxThread = 0 ∧ ∀ ch ∈ b.channels, e.2.iFd ch = -1 := by
  simp [status_eq_disabled_iff, settle]

theorem settle_enabled_iff {e : Int × Radio} :
    (settle e).status b = .enabled ↔
      e.2.ucRunThread = true ∧ e.2.stRxThread ≠ 0 ∧ ∀ ch ∈ b.channels, e.2.iFd ch ≠ -1 := by
  simp [status_eq_enabled_iff, settle]

/-- Enabling a stopped radio: what a reset reports of it is true exactly if
the failure comes before any channel is open, or nothing fails. -/
theorem enable_stopped_truth {q : Radio} (hthread : q.stRxThread = 0)
    (hrun : q.ucRunThread = false) :
    ResetTruth b [outcome (q.enable b env)] ((settle (q.enable b env)).status b)
        (settle (q.enable b env)) ↔
      (env.eventfdRead = .error ∧ ∀ ch ∈ b.channels, q.iFd ch = -1) ∨
      (env.eventfdRead ≠ .error ∧ ¬ Opens b env b.channels q.iFd ∧ b.backend = .vfs ∧
        ∀ ch ∈ b.channels, (openAll b env b.channels q.iFd).2 ch = -1) ∨
      (env.eventfdRead ≠ .error ∧ Opens b env b.channels q.iFd ∧ env.pthreadCreate = 0) := by
  rcases enable_cases b env q with
    ⟨hread, he⟩ | ⟨hread, hopens, he⟩ | ⟨hread, hopens, created, hopen, hcreated, he⟩
  · have hstop : (q.enableOut b).ucRunThread = false := by
      rw [Bool.eq_false_iff, Ne, enableOut_ucRunThread]
      simp [hrun]
    have hout : outcome (q.enable b env) = .disabled := by simp [outcome, he]
    rw [hout, resetTruth_disabled, settle_disabled_iff, he]
    simp [hstop, hthread, hread]
  · have hout : outcome (q.enable b env) = .disabled := by simp [outcome, he]
    rw [hout, resetTruth_disabled, settle_disabled_iff, he]
    rw [← Bool.not_eq_true, enableOut_ucRunThread]
    simp [hthread, hread, hopens]
  · have hrun' : created.ucRunThread = true := by
      rw [hcreated, create]
      split <;> rfl
    have hthread' : created.stRxThread ≠ 0 ↔ env.pthreadCreate = 0 := by
      rw [hcreated, create_stRxThread_ne_zero]
      simp [hthread]
    have hout : outcome (q.enable b env) = .reset := by simp [outcome, he, hrun']
    rw [hout, resetTruth_reset, settle_enabled_iff, he]
    simp only [enableOut_ucRunThread, enableOut_stRxThread, enableOut_iFd]
    rw [hrun', hthread']
    simp only [hread, hopens]
    grind

/-- What a restart needs so that its report is true: from closed channels the
failure must come before any of them is open, and a thread that could not be
stopped leaves open channels behind. -/
def RestartReliable (b : Build) (env : Env) (r : Radio) : Prop :=
  if r.stRxThread ≠ 0 ∧ env.eventfdWrite = false then
    env.eventfdRead ≠ .error ∧ env.pthreadCreate = 0
  else
    env.eventfdRead = .error ∨
    (b.backend = .vfs ∧ openResult b env (b.channels.head b.channels_ne_nil) < 0) ∨
    ((∀ ch ∈ b.channels, 0 ≤ openResult b env ch) ∧ env.pthreadCreate = 0)

theorem restart_truth (hr : ThreadHasChannels b r) :
    let e := (r.disable b env).2.enable b env
    ResetTruth b [outcome e] ((settle e).status b) (settle e) ↔
      RestartReliable b env r := by
  intro e
  unfold RestartReliable
  obtain ⟨first, rest, hlist⟩ := List.exists_cons_of_ne_nil b.channels_ne_nil
  have hfirst : b.channels.head b.channels_ne_nil = first := by simp [hlist]
  have hq : (r.disable b env).2.stRxThread = 0 ∧ (r.disable b env).2.ucRunThread = false := by
    unfold disable
    split <;> exact ⟨rfl, rfl⟩
  rw [enable_stopped_truth hq.1 hq.2]
  split
  · rename_i h
    have hopen : ∀ ch ∈ b.channels, (r.disable b env).2.iFd ch ≠ -1 := by
      simpa [disable, h] using hr h.1
    have hmem : first ∈ b.channels := by simp [hlist]
    have hopens : Opens b env b.channels (r.disable b env).2.iFd :=
      fun ch hch hclosed => absurd hclosed (hopen ch hch)
    have hnot : ¬ ∀ ch ∈ b.channels, (r.disable b env).2.iFd ch = -1 :=
      fun hall => hopen first hmem (hall first hmem)
    simp [hopens, hnot]
  · rename_i h
    have hclosed : ∀ ch ∈ b.channels, (r.disable b env).2.iFd ch = -1 := by
      intro ch hch
      simp [disable, h, closeAll, hch]
    have hopens : Opens b env b.channels (r.disable b env).2.iFd ↔
        ∀ ch ∈ b.channels, 0 ≤ openResult b env ch :=
      forall₂_congr fun ch hch => by simp [hclosed ch hch]
    have hfail : (∀ ch ∈ b.channels, (openAll b env b.channels (r.disable b env).2.iFd).2 ch = -1)
        ↔ openResult b env first = -1 := by
      rw [hlist] at hclosed ⊢
      exact openAll_closed_iff hclosed
    have hneg : b.backend = .vfs → (openResult b env first < 0 ↔ openResult b env first = -1) :=
      fun hb => openResult_lt_zero hb
    have hfirst' : openResult b env first = -1 → ¬ ∀ ch ∈ b.channels, 0 ≤ openResult b env ch := by
      intro hnone hall
      have := hall first (by simp [hlist])
      omega
    rw [hopens, hfail, hfirst]
    grind

variable (b env r) in
theorem disable_callback :
    (r.disable b env).2.gFnStateCallback = r.gFnStateCallback ∧
      (r.disable b env).2.reported = r.reported := by
  unfold disable
  split <;> exact ⟨rfl, rfl⟩

variable (b env r) in
theorem enable_callback :
    (r.enable b env).2.gFnStateCallback = r.gFnStateCallback ∧
      (r.enable b env).2.reported = r.reported := by
  rcases enable_cases b env r with
    ⟨-, he⟩ | ⟨-, -, he⟩ | ⟨-, -, created, -, hcreated, he⟩
  · simp [he]
  · simp [he]
  · rw [he, hcreated, create]
    split <;> simp

theorem restart_eq (r : Radio) :
    r.restart b env = let e := (r.disable b env).2.enable b env
      (e.1, settle e) := rfl

variable (b env r) in
theorem restart_reported :
    (r.restart b env).2.reported = r.reported ++
      if r.gFnStateCallback then [outcome ((r.disable b env).2.enable b env)] else [] := by
  have hd := disable_callback b env r
  have he := enable_callback b env (r.disable b env).2
  simp only [restart_eq, settle, report, he.1, hd.1]
  split <;> simp [he.2, hd.2]

/-- Only the statuses told are different. -/
theorem resetTruth_congr {r' : Radio} {told : List RadioStatus}
    (h : ({ r with reported := [] } : Radio) = { r' with reported := [] }) :
    ResetTruth b told (r.status b) r ↔ ResetTruth b told (r'.status b) r' := by
  obtain ⟨hthread, hrun, hflag, hfd, -, -⟩ := Radio.mk.inj h
  have hstatus : r.status b = r'.status b := by
    simp only [status, openFiles, hthread, hrun, hflag, hfd]
  rw [hstatus]
  exact ⟨fun hr => ⟨fun hmem => hthread ▸ hrun ▸ hfd ▸ hr.disabled hmem, hr.reset⟩,
    fun hr => ⟨fun hmem => hthread ▸ hrun ▸ hfd ▸ hr.disabled hmem, hr.reset⟩⟩

/-- The exact condition under which what a reset tells is true, in the radio that
the restart begins with: nobody listens, or the restart is reliable. -/
def ResetReliable (b : Build) (env : Env) (r : Radio) : Prop :=
  r.gFnStateCallback = false ∨ RestartReliable b env r

/-- What a restart tells is true exactly if nobody listens or it is reliable. -/
theorem told_restart_truth (hr : ThreadHasChannels b r) {before told : List RadioStatus}
    (hbefore : r.reported = before ∨ r.reported = before ++ [.resetting])
    (htold : (r.restart b env).2.reported = before ++ told) :
    ResetTruth b told ((r.restart b env).2.status b) (r.restart b env).2 ↔
      ResetReliable b env r := by
  have hend : ∀ told', (r.restart b env).2.reported = r.reported ++ told' →
      (ResetTruth b told' ((r.restart b env).2.status b) (r.restart b env).2 ↔
        ResetReliable b env r) := by
    intro told' htold'
    rw [restart_reported] at htold'
    rw [← List.append_cancel_left htold', restart_eq, ResetReliable]
    by_cases h : r.gFnStateCallback = true
    · simp only [h, if_true, Bool.true_eq_false, false_or]
      exact restart_truth hr
    · simp [h, resetTruth_nil]
  obtain hsame | hresetting := hbefore
  · exact hend told (hsame ▸ htold)
  · have hreported := restart_reported b env r
    rw [htold, hresetting, List.append_assoc] at hreported
    rw [List.append_cancel_left hreported, List.singleton_append, resetTruth_resetting]
    refine hend _ ?_
    rw [restart_reported]

end Radio

section steps
variable {b : Build} {t : Tid} {env : Env}

/-- The status that an operation passes to the state callback. -/
def Op.told? : Op → Option RadioStatus
  | .stateCallback s => some s
  | _ => none

def toldIn (es : List (Step Op Op.Res)) : List RadioStatus := es.filterMap fun e => e.1.told?

theorem reported_effect (o : Op) (s : Shared) :
    (effect b t env o s).2.radio.reported =
      s.radio.reported ++ toldIn [⟨o, (effect b t env o s).1⟩] := by
  cases o with
  | mutexTrylock | openDevice | eventfdWrite | pthreadCreate | keepAliveCreate =>
      simp only [effect]
      split <;> simp [Shared.radio, Shared.log, Event.reported?, toldIn, Op.told?]
  | _ => simp [effect, Shared.radio, Shared.log, Shared.setFd, Event.reported?, toldIn, Op.told?]

variable (b t env) in
/-- What is told in a run is in the log behind it. -/
theorem reported_run {α : Type} (p : Cmd α) (s : Shared) :
    (p.run (effect b t env) s).2.radio.reported =
      s.radio.reported ++ toldIn (p.trace (effect b t env) s) := by
  induction p generalizing s with
  | ret a => exact (List.append_nil _).symm
  | op o k ih =>
      rw [Prog.run_op, ih, reported_effect, List.append_assoc]
      exact congrArg _ (List.filterMap_append (l := [_])).symm

/-- What a restart reads and writes. -/
structure Working where
  radio : Radio
  vendorInterface : Bool

def Shared.working (s : Shared) : Working := ⟨{ s.radio with reported := [] }, s.vendorInterface⟩

theorem working_setFd (s : Shared) (ch : AntChannelType) (fd : Int) :
    (s.setFd ch fd).working = { s.working with radio :=
      { s.working.radio with iFd := Function.update s.working.radio.iFd ch fd } } := by
  simp only [Shared.working, Shared.radio, Shared.setFd_iFd]
  rfl

/-- What is done in a restart, and to give the lock back. -/
def restartOp : Op → Bool
  | .setChipResetting _ | .ioctlReset | .mutexLock | .mutexUnlock => true
  | o => sectionOp o

theorem restart_of_section {o : Op} (h : sectionOp o = true) : restartOp o = true := by
  unfold restartOp
  split <;> first | rfl | exact h

theorem restart_decides {o : Op} (h : restartOp o = true) :
    Prog.Decides (effect b t env) Shared.working o := by
  intro s s' hs
  cases o with
  | getWaiting | mutexTrylock | readChannelMsg => cases h
  | getChipResetting => exact ⟨congrArg (·.radio.ucChipResetting) hs, hs⟩
  | getRunThread => exact ⟨congrArg (·.radio.ucRunThread) hs, hs⟩
  | getRxThread => exact ⟨congrArg (·.radio.stRxThread) hs, hs⟩
  | getFd ch => exact ⟨congrArg (·.radio.iFd ch) hs, hs⟩
  | getStateCallback => exact ⟨congrArg (·.radio.gFnStateCallback) hs, hs⟩
  | getVendorInterface => exact ⟨congrArg (·.vendorInterface) hs, hs⟩
  | setChipResetting v =>
      exact ⟨rfl, congrArg (fun w => { w with radio := { w.radio with ucChipResetting := v } }) hs⟩
  | setRunThread v =>
      exact ⟨rfl, congrArg (fun w => { w with radio := { w.radio with ucRunThread := v } }) hs⟩
  | clearRxThread =>
      exact ⟨rfl, congrArg (fun w => { w with radio := { w.radio with stRxThread := 0 } }) hs⟩
  | setFd ch fd =>
      refine ⟨rfl, ?_⟩
      simp only [effect, working_setFd, hs]
  | dlsym => exact ⟨rfl, congrArg (fun w => { w with vendorInterface := env.dlsym }) hs⟩
  | clearVendorInterface => exact ⟨rfl, congrArg (fun w => { w with vendorInterface := false }) hs⟩
  | openDevice | eventfdWrite | keepAliveCreate =>
      simp only [effect]
      split <;> exact ⟨rfl, hs⟩
  | pthreadCreate =>
      simp only [effect]
      split
      · exact ⟨rfl, congrArg (fun w => { w with radio :=
          { w.radio with stRxThread := env.handle + 1 } }) hs⟩
      · exact ⟨rfl, hs⟩
  | _ => exact ⟨rfl, hs⟩

end steps

section owner

/-- What only the holder of the lock writes, the handle of the vendor library with it. -/
structure Owned where
  stRxThread : Nat
  iFd : AntChannelType → Int
  vendorInterface : Bool

def Shared.owned (s : Shared) : Owned := ⟨s.stRxThread, s.iFd, s.vendorInterface⟩

/-- Outside of a section nothing is done to it. -/
def ownedReact (o : Op) (p : Owned) (_ : o.Res) (p' : Owned) : Prop :=
  passiveOp o = true ∨ keepAliveOp o = true → p' = p

theorem owned_plain (b : Build) (t : Tid) (env : Env) (s : Shared) {o : Op}
    (hact : lockAct o = .plain) :
    (effect b t env o s).2.stEnabledStatusLock = s.stEnabledStatusLock ∧
      ownedReact o s.owned (effect b t env o s).1 (effect b t env o s).2.owned := by
  cases o with
  | mutexLock | mutexTrylock | mutexUnlock => cases hact
  | readChannelMsg ch =>
      refine ⟨rfl, fun _ => ?_⟩
      simp only [Shared.owned, readChannelMsg_iFd]
      rfl
  | keepAliveCreate | openDevice | eventfdWrite | pthreadCreate =>
      simp only [effect]
      split <;> exact ⟨rfl, fun h => by first | rfl | simp [passiveOp, outerOp, keepAliveOp] at h⟩
  | _ => exact ⟨rfl, fun h => by first | rfl |
        simp [passiveOp, outerOp, vendorOp, keepAliveOp] at h⟩

def ownedLock (b : Build) : Monitor (machine b) Owned where
  owner := Shared.stEnabledStatusLock
  guarded := Shared.owned
  inv _ := True
  rely p p' := p' = p
  rely_refl _ := rfl
  rely_trans h h' := h'.trans h
  inv_rely _ _ := trivial
  lockAct := lockAct
  lockAnswer := lockAnswer
  react _ := ownedReact
  check _ _ _ := True
  allow _ _ _ _ := True
  role := hasRole
  role_entry := @hasRole_entry b
  role_spawn := @hasRole_spawn b
  lock_spec _ _ _ _ _ hact hready _ := lock_effect (fun _ _ => rfl) b hact hready
  unlock_spec _ _ _ _ hact := unlock_effect (fun _ _ => rfl) b hact
  plain_spec t env s _ hact _ := (owned_plain b t env s hact).imp_right fun hreact _ _ => hreact

theorem owned_harmlessIn {b : Build} {t : Tid} {o : Op} (h : lockAct o = .plain) :
    (ownedLock b).HarmlessIn t o :=
  ⟨h, fun _ _ => ⟨trivial, fun _ _ _ => trivial⟩⟩

theorem owned_antDisable (b : Build) {t : Tid} : (ownedLock b).Inside t (antDisable b) := by
  refine .only antDisable_works fun o ho => owned_harmlessIn ?_
  cases o <;> first | rfl | cases ho

theorem owned_upheld (b : Build) : Upheld (ownedLock b) where
  owner_eq := rfl
  lockAct_eq := rfl
  lockAnswer_eq := rfl
  role_eq := rfl
  outer o ho := by
    refine ⟨?_, fun p r p' hr => hr ho⟩
    cases o <;> first | rfl | simp [passiveOp, outerOp, keepAliveOp] at ho
  inner _ _ ho := owned_harmlessIn (plain_of_passive ho)
  unlock _ _ _ := trivial
  enable t := by
    refine .only antEnable_works fun o ho => owned_harmlessIn ?_
    cases o <;> first | rfl | cases ho
  disable _ := owned_antDisable b
  stop _ _ hprog :=
    inside_stop (owned_harmlessIn rfl) (fun _ ho => owned_harmlessIn (plain_of_passive ho))
      (owned_antDisable b) hprog

variable {b : Build} {stateCallback rxCallback : Bool} {t : Tid} {x y : ThreadConfig}

theorem ownedLock_holds (h : (machine b).Reachable (initConfig stateCallback rxCallback) x) :
    (ownedLock b).Holds x :=
  Monitor.holds_path (owned_upheld b).checked
    (fun x mv _ => Monitor.allowed_of_forall (fun _ _ _ _ => trivial) x mv)
    ((owned_upheld b).start trivial) h

/-- A step that leaves the lock to `t`, or free, and does not change the two flags. -/
structure LeavesReset (t : Tid) (x y : ThreadConfig) : Prop where
  stEnabledStatusLock : ∀ u, y.shared.stEnabledStatusLock = some u → u = t
  ucRunThread : y.shared.ucRunThread = x.shared.ucRunThread
  ucChipResetting : y.shared.ucChipResetting = x.shared.ucChipResetting

/-- The others cannot do anything else to what the holder of the lock works on. -/
theorem owned_kept (h : (machine b).Reachable (initConfig stateCallback rxCallback) x)
    {mv : Move Label Tid Env} (hne : ∀ env, mv ≠ .act t env)
    (hs : (machine b).step mv x = some y)
    (hlock : ∀ u, y.shared.stEnabledStatusLock = some u → u = t) :
    y.shared.owned = x.shared.owned := by
  cases mv with
  | start u l =>
      obtain ⟨-, -, rfl⟩ := Machine.step_start hs
      rfl
  | act u env =>
      have hut : u ≠ t := by
        rintro rfl
        exact hne env rfl
      obtain ⟨l, o, k, ha⟩ := Machine.step_act hs
      have hholds := ownedLock_holds h
      cases Monitor.lockStep hholds ha trivial with
      | plain act same reacts =>
          refine Monitor.rely_step hholds ha trivial fun howner => hut ?_
          exact hlock u (same.trans howner)
      | locked act answer free mine kept => exact absurd (hlock u mine) hut
      | refused act answer other same kept => exact kept
      | unlocked act mine free kept => exact kept

theorem gFnStateCallback_effect (env : Env) (o : Op) (s : Shared) :
    (effect b t env o s).2.gFnStateCallback = s.gFnStateCallback := by
  cases o with
  | mutexTrylock | openDevice | eventfdWrite | pthreadCreate | keepAliveCreate =>
      simp only [effect]
      split <;> rfl
  | _ => rfl

theorem working_kept (h : (machine b).Reachable (initConfig stateCallback rxCallback) x)
    {mv : Move Label Tid Env} (hne : ∀ env, mv ≠ .act t env)
    (hs : (machine b).step mv x = some y) (hleaves : LeavesReset t x y) :
    y.shared.working = x.shared.working := by
  have howned := owned_kept h hne hs hleaves.stEnabledStatusLock
  have hcallback : y.shared.gFnStateCallback = x.shared.gFnStateCallback := by
    cases mv with
    | start u l =>
        obtain ⟨-, -, rfl⟩ := Machine.step_start hs
        rfl
    | act u env =>
        obtain ⟨l, o, k, ha⟩ := Machine.step_act hs
        rw [ha.shared]
        exact gFnStateCallback_effect env o x.shared
  obtain ⟨hthread, hfd, hvendor⟩ := Owned.mk.inj howned
  simp only [Shared.working, Shared.radio, hthread, hfd, hvendor, hcallback,
    hleaves.ucRunThread, hleaves.ucChipResetting]

end owner

section programs
variable {b : Build}

/-- The radio that a reset begins its restart with, from the one it finds under the lock. -/
def Radio.restartFrom : Label → Radio → Radio
  | .doReset, r => { r with stRxThread := 0 }
  | .hardReset, r => r.resetting
  | _, r => r

/-- Behind the lock call there is a restart, and nothing more. -/
structure Restarts (b : Build) (l : Label) (k : Int → Cmd (Option Label)) : Prop where
  acts : ∀ t env, ActsOn b t env (k 0) fun r => (none, ((r.restartFrom l).restart b env).2)
  only : ∀ r, (k r).Only (restartOp · = true) (· = none)

def locksRestart (b : Build) (l : Label) : (o : Op) → (o.Res → Cmd (Option Label)) → Prop
  | .mutexLock, k => l = .doReset ∨ l = .hardReset → Restarts b l k
  | _, _ => True

theorem locksRestart_of_ne {l : Label} {o : Op} {k : o.Res → Cmd (Option Label)}
    (h : o ≠ .mutexLock) : locksRestart b l o k := by
  cases o with
  | mutexLock => exact absurd rfl h
  | _ => trivial

theorem section_ne_lock {o : Op} (h : sectionOp o = true) : o ≠ .mutexLock := by
  rintro rfl
  cases h

theorem hardResetLocked_only :
    (hardResetLocked b).Only (fun o => restartOp o = true ∧ o ≠ .mutexLock) fun _ => True := by
  have hsection {α : Type} {p : Cmd α} (h : p.Only (sectionOp · = true) fun _ => True) :
      p.Only (fun o => restartOp o = true ∧ o ≠ .mutexLock) fun _ => True :=
    h.mono (fun o ho => ⟨restart_of_section ho, section_ne_lock ho⟩) fun _ h => h
  simp only [hardResetLocked, Prog.op_bind, Prog.ret_bind, Prog.only_op]
  refine ⟨⟨rfl, by simp⟩, fun _ => (hsection (report_section _)).bind fun _ _ =>
    (Prog.only_op _ _).mpr ⟨⟨rfl, by simp⟩, fun _ => (hsection antDisable_section).bind fun _ _ =>
      (hsection antEnable_section).bind fun ret _ => Prog.only_ite.mpr ⟨fun _ => ?_, fun _ => ?_⟩⟩⟩
  all_goals
    exact (hsection (report_section _)).bind fun _ _ =>
      (Prog.only_op _ _).mpr ⟨⟨rfl, by simp⟩, fun _ => trivial⟩

theorem doResetLocked_only (ret : Int) :
    (doResetLocked b ret).Only (fun o => restartOp o = true ∧ o ≠ .mutexLock) fun _ => True := by
  have hsection {α : Type} {p : Cmd α} (h : p.Only (sectionOp · = true) fun _ => True) :
      p.Only (fun o => restartOp o = true ∧ o ≠ .mutexLock) fun _ => True :=
    h.mono (fun o ho => ⟨restart_of_section ho, section_ne_lock ho⟩) fun _ h => h
  refine Prog.only_ite.mpr ⟨fun _ => ?_, fun _ => ?_⟩
  · simp [restartOp, sectionOp, radioOp, disableOp]
  · refine (Prog.only_op _ _).mpr ⟨⟨rfl, by simp⟩, fun _ =>
      (hsection antDisable_section).bind fun _ _ => (hsection antEnable_section).bind fun _ _ =>
        (Prog.only_op _ _).mpr ⟨⟨rfl, by simp⟩, fun _ => (hsection (report_section _)).bind
          fun _ _ => (Prog.only_op _ _).mpr ⟨⟨rfl, by simp⟩, fun _ => trivial⟩⟩⟩

theorem hardReset_restarts : (antRadioHardReset b >>= fun _ => .ret none).Always
    (locksRestart b .hardReset) := by
  have hrest (status : AntStatus) : (do
      mutexUnlock
      funcEnd .antRadioHardReset (.status status)
      return none : Cmd (Option Label)).Only
        (fun o => restartOp o = true ∧ o ≠ .mutexLock) (· = none) := by
    simp [restartOp, sectionOp, radioOp, enableOp]
  have hlocked : (hardResetLocked b >>= fun status => (do
      mutexUnlock
      funcEnd .antRadioHardReset (.status status)
      return none : Cmd (Option Label))).Only
        (fun o => restartOp o = true ∧ o ≠ .mutexLock) (· = none) :=
    hardResetLocked_only.bind fun status _ => hrest status
  simp only [antRadioHardReset, Prog.op_bind, Prog.ret_bind, Prog.pure_eq]
  refine ⟨trivial, fun _ => ?_⟩
  split
  · exact ⟨trivial, fun _ => trivial⟩
  · rw [Prog.op_bind]
    refine ⟨fun _ => ⟨fun t env => ?_, fun r => ?_⟩, fun r => ?_⟩
    · simp only [ne_eq, not_true_eq_false, if_false, Prog.bind_assoc, Prog.op_bind, Prog.ret_bind]
      exact .congr (.bind hardResetLocked_acts fun status => .bind mutexUnlock_acts fun _ =>
        .bind (funcEnd_acts _ _) fun _ => Prog.simulates_ret none) fun r => rfl
    · split
      · simp [restartOp, sectionOp, radioOp, enableOp]
      · simp only [Prog.bind_assoc, Prog.op_bind, Prog.ret_bind]
        exact hlocked.mono (fun o ho => ho.1) fun _ ha => ha
    · dsimp only
      split
      · exact ⟨trivial, fun _ => trivial⟩
      · simp only [Prog.bind_assoc, Prog.op_bind, Prog.ret_bind]
        exact hlocked.always fun o _ ho => locksRestart_of_ne ho.2

theorem doReset_restarts : (doReset b >>= fun _ => (do
      funcEnd .fnRxThread .void
      return none : Cmd (Option Label))).Always (locksRestart b .doReset) := by
  have hlocked (ret : Int) : (doResetLocked b ret >>= fun _ => (do
      funcEnd .doReset .void
      funcEnd .fnRxThread .void
      return none : Cmd (Option Label))).Only
        (fun o => restartOp o = true ∧ o ≠ .mutexLock) (· = none) :=
    (doResetLocked_only ret).bind fun _ _ => by simp [restartOp, sectionOp, radioOp, enableOp]
  simp only [doReset, Prog.op_bind, Prog.ret_bind, Prog.bind_assoc]
  refine ⟨trivial, fun _ => ⟨trivial, fun _ => (report_section _).always_bind (fun o _ ho =>
    locksRestart_of_ne (section_ne_lock ho)) fun _ _ => ⟨trivial, fun _ => ⟨fun _ => ?_,
      fun ret => (hlocked ret).always fun o _ ho => locksRestart_of_ne ho.2⟩⟩⟩⟩
  refine ⟨fun t env => ?_, fun ret => (hlocked ret).mono (fun o ho => ho.1) fun _ ha => ha⟩
  exact .congr (.bind doResetLocked_acts fun _ => .bind (funcEnd_acts _ _) fun _ =>
    .bind (funcEnd_acts _ _) fun _ => Prog.simulates_ret none) fun r => rfl

theorem body_restarts (l : Label) : (body b l).Always (locksRestart b l) := by
  have hother (hl : ¬ (l = .doReset ∨ l = .hardReset)) : (body b l).Always (locksRestart b l) := by
    refine Prog.always_of_forall fun o k => ?_
    cases o with
    | mutexLock => exact fun h => absurd h hl
    | _ => trivial
  cases l with
  | hardReset => exact hardReset_restarts
  | doReset => exact doReset_restarts
  | enableRadio | disableRadio | rxStart | rxLoop | rxClose => exact hother (by simp)

end programs

section code
variable {b : Build} {stateCallback rxCallback : Bool} {t : Tid} {c d : ThreadConfig}

theorem locksRestart_reachable
    (h : (machine b).Reachable (initConfig stateCallback rxCallback) c) :
    Machine.PoolAlways (locksRestart b) c :=
  h.invariant (fun _ _ _ hx _ hs => Machine.poolAlways_step body_restarts hx hs)
    fun _ _ hth => nomatch hth

/-- What a reset tells is true exactly if nobody listens or its restart is reliable:
from the state in which it takes the lock, the thread `t` runs the reset to its end,
its calls are answered as `env` says (each is made once at most), and the others,
the created receive thread among them, leave it the lock and the two flags. -/
theorem doReset_antRadioHardReset_truth
    (h : (machine b).Reachable (initConfig stateCallback rxCallback) c)
    (hfree : c.shared.stEnabledStatusLock = none) {l : Label}
    (hl : l = .doReset ∨ l = .hardReset) {k : Int → Cmd (Option Label)}
    (hlock : c.pool t = some ⟨l, .op .mutexLock k⟩) {env : Env} {es : List (Step Op Op.Res)}
    (hrun : (machine b).Beside t env (LeavesReset t) c es d)
    (hend : (d.pool t).any Thread.terminated = true) :
    Radio.ResetTruth b (toldIn es) (radioEnabledStatus b d.shared) d.shared.radio ↔
      Radio.ResetReliable b env (c.shared.radio.restartFrom l) := by
  obtain ⟨hacts, honly⟩ := (locksRestart_reachable h t _ hlock).1 hl
  have hprog : (Prog.op .mutexLock k : Cmd (Option Label)).Only
      (Prog.Decides (effect b t env) Shared.working) (· = none) :=
    (Prog.only_op _ _).mpr ⟨restart_decides rfl, fun r =>
      (honly r).mono (fun _ ho => restart_decides ho) fun _ ha => ha⟩
  obtain ⟨rfl, hworking⟩ := hrun.terminated hlock hend hprog fun x mv y hx hne hs hleaves =>
    working_kept (h.trans hx) hne hs hleaves
  -- Under the lock the thread has run the restart, as if by itself.
  have hradio : ((Prog.op .mutexLock k : Cmd (Option Label)).run (effect b t env)
      c.shared).2.radio =
      ((c.shared.radio.restartFrom l).restart b env).2 :=
    (hacts t env).snd (effect b t env .mutexLock c.shared).2
  have htold := reported_run b t env (.op .mutexLock k) c.shared
  have hchannels : Radio.ThreadHasChannels b (c.shared.radio.restartFrom l) := by
    have hr := threadHasChannels h hfree
    obtain rfl | rfl := hl
    · exact fun hne => absurd rfl hne
    · simpa [Radio.restartFrom, Radio.resetting, Radio.ThreadHasChannels] using hr
  have hbefore : (c.shared.radio.restartFrom l).reported = c.shared.radio.reported ∨
      (c.shared.radio.restartFrom l).reported = c.shared.radio.reported ++ [.resetting] := by
    obtain rfl | rfl := hl
    · exact .inl rfl
    · simp only [Radio.restartFrom, Radio.resetting, Radio.report]
      split
      · exact .inr rfl
      · exact .inl rfl
  rw [radioEnabledStatus_eq, Radio.resetTruth_congr (congrArg Working.radio hworking)]
  rw [hradio] at htold
  have htruth := Radio.told_restart_truth hchannels hbefore htold
  rw [← hradio] at htruth
  exact htruth

/-- The evaluated form of `LeavesReset`. -/
def leavesReset (t : Tid) (x y : ThreadConfig) : Bool :=
  y.shared.stEnabledStatusLock.all (· = t) &&
    decide (y.shared.ucRunThread = x.shared.ucRunThread) &&
    decide (y.shared.ucChipResetting = x.shared.ucChipResetting)

theorem leavesReset_leaves {x y : ThreadConfig} (h : leavesReset t x y = true) :
    LeavesReset t x y := by
  simp only [leavesReset, Bool.and_eq_true, decide_eq_true_eq] at h
  obtain ⟨⟨hlock, hrun⟩, hflag⟩ := h
  exact ⟨fun u hu => by simpa [hu] using hlock, hrun, hflag⟩

/-- A reset of thread `t` is about to take the lock, and goes on as listed to its end. -/
def restartRun (b : Build) (l : Label) (t : Tid) (env : Env) (mvs : List (Option (Tid × Env)))
    (p : List (Step Op Op.Res) → ThreadConfig → Bool) (c : ThreadConfig) : Bool :=
  c.shared.stEnabledStatusLock.isNone &&
    (c.pool t).any (fun th => decide (th.label = l ∧ th.head? = some .mutexLock)) &&
    ((machine b).execBeside t env (leavesReset t) mvs c).any fun (es, d) =>
      (d.pool t).any Thread.terminated && p es d

theorem restartRun_beside {l : Label} {env : Env} {mvs : List (Option (Tid × Env))}
    {p : List (Step Op Op.Res) → ThreadConfig → Bool}
    (h : restartRun b l t env mvs p c = true) :
    c.shared.stEnabledStatusLock = none ∧ ∃ k es d, c.pool t = some ⟨l, .op .mutexLock k⟩ ∧
      (machine b).Beside t env (LeavesReset t) c es d ∧
      (d.pool t).any Thread.terminated = true ∧ p es d = true := by
  simp only [restartRun, Bool.and_eq_true, Option.isNone_iff_eq_none, Option.any_eq_true,
    decide_eq_true_eq] at h
  obtain ⟨⟨hfree, th, hth, hlabel, hhead⟩, ⟨es, d⟩, hexec, hend, hp⟩ := h
  obtain ⟨k, hk⟩ := Thread.code_of_head hhead
  refine ⟨hfree, k, es, d, ?_, (Machine.execBeside_beside hexec).mono fun x y =>
    leavesReset_leaves, (Option.any_eq_true _ _).mpr hend, hp⟩
  rw [hth, ← hlabel, ← hk]

/-- A call of the hard reset finds a receive thread, which waits in `poll`. -/
def untilHardReset : List (Move Label Tid Env) :=
  enabling ++ List.replicate 6 (.act (.rx 1) {}) ++ [.start (.app 1) .hardReset, .act (.app 1) {}]

/-- The receive thread is told to stop, and has stopped before it is joined. -/
def joinsAndRestarts : List (Option (Tid × Env)) :=
  List.replicate 10 none ++
    List.replicate 6 (some (.rx 1, { poll := ⟨1, fun _ => 0, pollIn⟩ })) ++ List.replicate 30 none

theorem doReset_antRadioHardReset_truth_restarted :
    ∃ (es : List (Step Op Op.Res)) (d : ThreadConfig), toldIn es = [.resetting, .reset] ∧
      Radio.ResetTruth .cg29xx (toldIn es) (radioEnabledStatus .cg29xx d.shared)
        d.shared.radio := by
  obtain ⟨c, hpath, hc⟩ := Machine.exec_any (machine .cg29xx) (fun _ _ => true) untilHardReset
    (initConfig true true) (restartRun .cg29xx .hardReset (.app 1) { handle := 1 }
      joinsAndRestarts fun es _ => decide (toldIn es = [.resetting, .reset])) (by decide +kernel)
  obtain ⟨hfree, k, es, d, hlock, hrun, hend, htold⟩ := restartRun_beside hc
  refine ⟨es, d, of_decide_eq_true htold, ?_⟩
  have htruth := doReset_antRadioHardReset_truth hpath.reachable hfree (.inr rfl) hlock hrun hend
  refine htruth.mpr (.inr ?_)
  rw [Radio.RestartReliable, if_neg (by simp)]
  exact .inr (.inr ⟨by decide, rfl⟩)

/-- An enable, and the receive thread up to its first poll, which fails; it is about
to take the lock for its reset. -/
def untilDoReset : List (Move Label Tid Env) :=
  enabling ++ List.replicate 12 (.act (.rx 1) { poll := ⟨-1, fun _ => 0, 0⟩ })

/-- Only the second device fails to open. -/
def commandFails : Env := { openDevice := fun ch => if ch = .command then none else some 3 }

/-- The reset tells DISABLED and leaves the data channel open. -/
theorem doReset_untrue :
    ¬ ∀ (b : Build) (stateCallback rxCallback : Bool) (c : ThreadConfig),
      (machine b).Reachable (initConfig stateCallback rxCallback) c →
      c.shared.stEnabledStatusLock = none → ∀ (t : Tid) (l : Label) (k : Int → Cmd (Option Label)),
        l = .doReset ∨ l = .hardReset → c.pool t = some ⟨l, .op .mutexLock k⟩ →
        ∀ (env : Env) (es : List (Step Op Op.Res)) (d : ThreadConfig),
          (machine b).Beside t env (LeavesReset t) c es d →
          (d.pool t).any Thread.terminated = true →
          Radio.ResetTruth b (toldIn es) (radioEnabledStatus b d.shared) d.shared.radio := by
  intro hall
  obtain ⟨c, hpath, hc⟩ := Machine.exec_any (machine .smd) (fun _ _ => true) untilDoReset
    (initConfig true true) (restartRun .smd .doReset (.rx 1) commandFails (List.replicate 33 none)
      fun es d => decide (.disabled ∈ toldIn es ∧ d.shared.iFd .data ≠ -1)) (by decide +kernel)
  obtain ⟨hfree, k, es, d, hlock, hrun, hend, hleft⟩ := restartRun_beside hc
  obtain ⟨htold, hopen⟩ := of_decide_eq_true hleft
  have htruth := hall .smd true true c hpath.reachable hfree (.rx 1) .doReset k (.inl rfl) hlock
    commandFails es d hrun hend
  exact hopen ((htruth.disabled htold).1 .data (by decide))

end code
end AntHal

import AntHal.Chardev.ReceiveThread
import AntHal.Chardev.Radio

/-!
Does ENABLED mean that somebody receives?

The recorded receive thread is in its poll loop, or inside `doReset` on the way
to clear its own handle, or it has left the loop with the run flag down. The
last case is the dangerous one: `ant_enable` takes the handle for a running
thread and raises the flag again. Runs in which the flag is not raised then keep
the promise of ENABLED.
-/

namespace AntHal

open Concurrency

variable {b : Build} {c d : ThreadConfig}

section property
variable (b : Build) (c : ThreadConfig)

/-- The recorded receive thread has not terminated and has not left its loop. -/
def polling : Bool :=
  (c.pool (.rx c.shared.stRxThread)).any fun th =>
    !th.terminated && (th.label = .rxStart || th.label = .rxLoop)

/-- Some receive thread is executing `doReset`. -/
def ResetInProgress : Prop :=
  ∃ h th, c.pool (.rx h) = some th ∧ th.label = .doReset ∧ th.terminated = false

/-- What ENABLED promises. -/
def EnabledIsLive : Prop :=
  c.shared.stEnabledStatusLock = none → ¬ ResetInProgress c →
    radioEnabledStatus b c.shared = .enabled → polling c = true

/-- The run flag is raised only while the recorded thread has not left its loop
for the clean-up. -/
def raisesInLoop : Move Label Tid Env → Bool
  | .start _ _ => true
  | .act t _ =>
    match (c.pool t).bind Thread.head? with
    | some (.setRunThread true) =>
      !(c.pool (.rx c.shared.stRxThread)).any fun th => th.label = .rxClose
    | _ => true

end property

section code

/-- The labels behind an iteration that has found the run flag set. -/
def staysOrResets (l : Option Label) : Prop := l = some .rxLoop ∨ l = some .doReset

/-- The beginning of an iteration: with the run flag down it ends the loop. -/
def AtLoop : Cmd (Option Label) → Prop
  | .op .getRunThread k => k false = .ret (some .rxClose) ∧ (k true).Returns staysOrResets
  | _ => False

theorem rxLoop_atLoop : AtLoop (rxLoop b) := by
  have hloop : staysOrResets (some .rxLoop) := .inl rfl
  have hreset : staysOrResets (some .doReset) := .inr rfl
  simp only [rxLoop, Prog.op_bind, Prog.ret_bind, Prog.pure_eq]
  refine ⟨rfl, fun _ result => ?_⟩
  dsimp only
  split
  · intro waiting
    dsimp only
    split
    · exact fun _ _ _ => hloop
    · exact hreset
  · split
    · exact hreset
    · refine Prog.returns_bind _ fun reset => ?_
      split
      · exact hreset
      · exact Prog.returns_bind _ fun _ => hloop

theorem rxStart_returns : (rxStart b).Returns fun l => l = some .rxLoop := by
  simp only [rxStart, Prog.op_bind, Prog.ret_bind, Prog.pure_eq]
  exact fun _ => Prog.returns_bind _ fun _ _ => rfl

theorem rxClose_returns : (rxClose b).Returns fun l => l = none := by
  simp only [rxClose, Prog.op_bind, Prog.ret_bind, Prog.pure_eq]
  exact fun _ => Prog.returns_bind _ fun _ _ => rfl

/-- Every way through `doReset` clears the recorded handle. -/
theorem doReset_passes : (body b .doReset).Passes fun o => o = .clearRxThread := by
  refine Prog.Passes.bind_left ?_ _
  simp only [doReset, Prog.op_bind, Prog.ret_bind]
  refine .inr fun _ => .inr fun _ => Prog.Passes.bind_right _ fun _ => .inr fun _ =>
    .inr fun ret => Prog.Passes.bind_left ?_ _
  unfold doResetLocked
  split <;> exact .inl rfl

end code

/-- Where a recorded thread can be. Only a thread that has left its loop depends
on the run flag. -/
inductive Stage (b : Build) (run : Bool) (th : Thread Op Op.Res Label) : Prop where
  | starting (label : th.label = .rxStart) (live : th.terminated = false)
      (next : th.code.Returns fun l => l = some .rxLoop)
  | atLoop (label : th.label = .rxLoop) (code : AtLoop th.code)
  | inLoop (label : th.label = .rxLoop) (live : th.terminated = false)
      (next : th.code.Returns staysOrResets)
  | resetting (label : th.label = .doReset)
      (clears : th.code.Passes fun o => o = .clearRxThread)
  | left (run : run = false) (label : th.label = .rxClose)
      (next : th.code.Returns fun l => l = none)

/-- The recorded thread exists, at one of its stages. -/
def Recorded (b : Build) (c : ThreadConfig) : Prop :=
  c.shared.stRxThread ≠ 0 →
    ∃ th, c.pool (.rx c.shared.stRxThread) = some th ∧ Stage b c.shared.ucRunThread th

theorem Stage.mono {run run' : Bool} {th : Thread Op Op.Res Label} (h : Stage b run th)
    (hrun : th.label = .rxClose → run = false → run' = false) : Stage b run' th := by
  cases h with
  | starting label live next => exact .starting label live next
  | atLoop label code => exact .atLoop label code
  | inLoop label live next => exact .inLoop label live next
  | resetting label clears => exact .resetting label clears
  | left run label next => exact .left (hrun label run) label next

/-- The rest of an iteration: it goes on, begins another one, or resets. -/
theorem stage_of_staysOrResets {run : Bool} {p : Cmd (Option Label)}
    (h : p.Returns staysOrResets) : Stage b run ((machine b).resume .rxLoop p) := by
  rcases (machine b).resume_returns .rxLoop h (by simp [staysOrResets]) with
    ⟨l', hl' | hl', hresume⟩ | ⟨hresume, hlive⟩
  · cases hl'
    rw [hresume]
    exact .atLoop rfl rxLoop_atLoop
  · cases hl'
    rw [hresume]
    exact .resetting rfl doReset_passes
  · rw [hresume]
    exact .inLoop rfl hlive h

/-- The recorded thread itself takes a step, other than clearing its handle. -/
theorem stage_self {t : Tid} {env : Env} {l : Label} {o : Op} {k : Op.Res o → Cmd (Option Label)}
    {s : Shared} (h : Stage b s.ucRunThread ⟨l, .op o k⟩) (hclear : o ≠ .clearRxThread)
    (hraise : l = .rxClose → o ≠ .setRunThread true) :
    Stage b (effect b t env o s).2.ucRunThread
      ((machine b).resume l (k (effect b t env o s).1)) := by
  cases h with
  | starting label live next =>
      obtain rfl : l = .rxStart := label
      rcases (machine b).resume_returns .rxStart (next (effect b t env o s).1) (by simp) with
        ⟨l', hl', hresume⟩ | ⟨hresume, hlive⟩
      · cases hl'
        rw [hresume]
        exact .atLoop rfl rxLoop_atLoop
      · rw [hresume]
        exact .starting rfl hlive (next _)
  | atLoop label code =>
      obtain rfl : l = .rxLoop := label
      cases o <;> simp only [AtLoop] at code
      simp only [effect]
      cases hrun : s.ucRunThread with
      | false =>
          rw [code.1]
          exact .left rfl rfl rxClose_returns
      | true => exact stage_of_staysOrResets code.2
  | inLoop label live next =>
      obtain rfl : l = .rxLoop := label
      exact stage_of_staysOrResets (next _)
  | resetting label clears =>
      obtain rfl : l = .doReset := label
      have hpass := (clears.resolve_left hclear) (effect b t env o s).1
      rcases (machine b).resume_cases .doReset (k (effect b t env o s).1) with
        ⟨l', hret, -⟩ | hresume
      · rw [hret] at hpass
        exact hpass.elim
      · rw [hresume]
        exact .resetting rfl hpass
  | left run label next =>
      obtain rfl : l = .rxClose := label
      have hrun := ucRunThread_effect b t env (hraise rfl) run
      have hnext := next (effect b t env o s).1
      rcases (machine b).resume_cases .rxClose (k (effect b t env o s).1) with
        ⟨l', hret, -⟩ | hresume
      · rw [hret] at hnext
        cases hnext
      · rw [hresume]
        exact .left hrun rfl hnext

theorem recorded_act {t : Tid} {env : Env} {l : Label} {o : Op}
    {k : Op.Res o → Cmd (Option Label)} (hI : Recorded b c)
    (ha : (machine b).Acts t env c d l o k) (hraise : raisesInLoop c (.act t env) = true) :
    Recorded b d := by
  have hshared : d.shared = (effect b t env o c.shared).2 := ha.shared
  intro hthread
  rw [hshared] at hthread ⊢
  rcases stRxThread_effect b t env o c.shared with hsame | hzero | hnew
  · rw [hsame] at hthread ⊢
    obtain ⟨th, hth, hstage⟩ := hI hthread
    have hlabel : th.label = .rxClose → o ≠ .setRunThread true := by
      rintro hclose rfl
      simp [raisesInLoop, ha.thread, Thread.head?, hth, hclose] at hraise
    by_cases ht : t = .rx c.shared.stRxThread
    · subst ht
      have hcode := ha.thread
      rw [hth] at hcode
      cases hcode
      refine ⟨_, ha.self.2, stage_self hstage ?_ hlabel⟩
      rintro rfl
      exact hthread hsame.symm
    · refine ⟨th, ha.kept (Ne.symm ht) hth, hstage.mono fun hclose hrun => ?_⟩
      exact ucRunThread_effect b t env (hlabel hclose) hrun
  · exact absurd hzero hthread
  · have hcreated := (ha.created _ _ (by rw [hshared]; exact hnew)).2
    exact ⟨_, hcreated, .starting rfl rfl rxStart_returns⟩

theorem recorded_step (hI : Recorded b c) {mv : Move Label Tid Env}
    (hraise : raisesInLoop c mv = true) (hs : (machine b).step mv c = some d) :
    Recorded b d := by
  cases mv with
  | start t l =>
      obtain ⟨hshared, hrx⟩ := start_rx hs
      rw [Recorded, hshared, hrx]
      exact hI
  | act t env =>
      obtain ⟨l, o, k, ha⟩ := Machine.step_act hs
      exact recorded_act hI ha hraise

/-- In a run that raises the flag only for a thread in its loop, ENABLED means a
live receiver. -/
theorem enabled_isLive {stateCallback rxCallback : Bool}
    (h : (machine b).Path (fun x mv => raisesInLoop x mv = true)
      (initConfig stateCallback rxCallback) c) : EnabledIsLive b c := by
  have hI : Recorded b c :=
    h.invariant (fun _ _ _ hx hC hs => recorded_step hx hC hs) fun hthread => absurd rfl hthread
  intro _ hreset henabled
  rw [radioEnabledStatus_eq, Radio.status_eq_enabled_iff] at henabled
  obtain ⟨-, hrun, hthread, -⟩ := henabled
  obtain ⟨th, hth, hstage⟩ := hI hthread
  simp only [polling, hth, Option.any_some, Bool.and_eq_true, Bool.or_eq_true,
    Bool.not_eq_true', decide_eq_true_eq]
  cases hstage with
  | starting label live next => exact ⟨live, .inl label⟩
  | atLoop label code =>
      refine ⟨?_, .inr label⟩
      obtain ⟨l, p⟩ := th
      cases p with
      | ret a => exact code.elim
      | op o k => rfl
  | inLoop label live next => exact ⟨live, .inr label⟩
  | resetting label clears =>
      refine absurd ⟨_, th, hth, label, ?_⟩ hreset
      obtain ⟨l, p⟩ := th
      cases p with
      | ret a => exact clears.elim
      | op o k => rfl
  | left run label next =>
      rw [show c.shared.ucRunThread = true from hrun] at run
      cases run

/-- After an enable the receive thread has read its first event and polls again. -/
def polledOnce : List (Move Label Tid Env) :=
  enabling ++ List.replicate 9 (.act (.rx 1) { poll := ⟨1, fun _ => pollIn ||| pollRdNorm, 0⟩ })

def enabledUnlocked (b : Build) (c : ThreadConfig) : Bool :=
  c.shared.stEnabledStatusLock.isNone && radioEnabledStatus b c.shared = .enabled &&
    (c.pool (.rx 1)).any (fun th => th.label ≠ .doReset || th.terminated) &&
    c.shared.events.all fun e =>
      match e with
      | .created h => h = 1
      | _ => true

/-- The only receive thread is not resetting, so nobody is. -/
theorem not_resetInProgress {stateCallback rxCallback : Bool}
    (hreach : (machine b).Reachable (initConfig stateCallback rxCallback) c)
    (h : enabledUnlocked b c = true) : ¬ ResetInProgress c := by
  simp only [enabledUnlocked, Bool.and_eq_true, List.all_eq_true] at h
  obtain ⟨⟨-, hone⟩, hall⟩ := h
  rintro ⟨h, th, hth, hlabel, hlive⟩
  obtain rfl : h = 1 := by simpa using hall _ (created_of_pool hreach hth)
  simp [hth, hlabel, hlive] at hone

theorem enabled_isLive_polledOnce :
    ∃ c, radioEnabledStatus .smd c.shared = .enabled ∧ polling c = true := by
  obtain ⟨c, hpath, hc⟩ := Machine.exec_any (machine .smd) raisesInLoop polledOnce
    (initConfig true true) (enabledUnlocked .smd) (by decide)
  have hreset := not_resetInProgress hpath.reachable hc
  simp only [enabledUnlocked, Bool.and_eq_true, decide_eq_true_eq] at hc
  obtain ⟨⟨⟨hfree, henabled⟩, -⟩, -⟩ := hc
  exact ⟨c, henabled, enabled_isLive hpath (by simpa using hfree) hreset henabled⟩

/-- The receive thread sees a shutdown event and leaves its loop; an enable has
the lock when it tries to clean up, and takes its handle for a running thread. -/
def leavingEnabling : List (Move Label Tid Env) :=
  enabling ++ List.replicate 10 (.act (.rx 1) { poll := ⟨1, fun _ => 0, pollIn⟩ }) ++
    .start (.app 1) .enableRadio :: List.replicate 2 (.act (.app 1) {}) ++
    List.replicate 2 (.act (.rx 1) {}) ++ List.replicate 20 (.act (.app 1) {})

theorem enabled_notLive :
    ¬ ∀ (b : Build) (stateCallback rxCallback : Bool) (c : ThreadConfig),
      (machine b).Reachable (initConfig stateCallback rxCallback) c → EnabledIsLive b c := by
  intro h
  obtain ⟨c, hpath, hc⟩ := Machine.exec_any (machine .smd) (fun _ _ => true) leavingEnabling
    (initConfig true true) (fun c => enabledUnlocked .smd c && !polling c) (by decide)
  rw [Bool.and_eq_true, Bool.not_eq_true'] at hc
  have hreset := not_resetInProgress hpath.reachable hc.1
  obtain ⟨hstate, hdead⟩ := hc
  simp only [enabledUnlocked, Bool.and_eq_true, decide_eq_true_eq] at hstate
  obtain ⟨⟨⟨hfree, henabled⟩, -⟩, -⟩ := hstate
  have hlive := h .smd true true c hpath.reachable (by simpa using hfree) hreset henabled
  rw [hdead] at hlive
  cases hlive

end AntHal

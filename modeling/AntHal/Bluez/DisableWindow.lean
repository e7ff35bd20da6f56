import AntHal.Bluez.Transition

/-!
Who can still say ENABLED during a disable?

`get_and_set_radio_status` overwrites DISABLING with what the power library
answers, also without a lock. ENABLED comes back through an answer that another
thread was given before `ant_disable` took effect, and in no other way.
-/

namespace AntHal.Bluez

open Concurrency

section property

/-- `ant_disable` has taken effect since `n` events had been recorded. -/
def disableTook (n : Nat) (s : Shared) : Bool :=
  (s.events.drop n).any fun
    | .antDisable _ => true
    | _ => false

/-- `ant_is_enabled` answers 1 until `ant_disable` takes effect, and 0 afterwards. -/
def answersTruly (n : Nat) (c : ThreadConfig) : Move Label Tid Env → Prop
  | .start _ _ => True
  | .act t env => ∀ l k, c.pool t = some ⟨l, .op .antIsEnabled k⟩ →
      env.antIsEnabled = if disableTook n c.shared then 0 else 1

/-- A call of `ant_enable_radio` does not get enableLock: it waits, or it fails. -/
def keepsOut (env : Env) : Op → Prop
  | .funcStart _ | .funcEnd _ _ => True
  | .mutexLock .enableLock => env.mutex ≠ 0
  | _ => False

def noEnable (c : ThreadConfig) : Move Label Tid Env → Prop
  | .start _ _ => True
  | .act t env => ∀ o k, c.pool t = some ⟨.enableRadio, .op o k⟩ → keepsOut env o

/-- Only thread `t` asks `ant_is_enabled` before `ant_disable` has taken effect. -/
def asksLate (t : Tid) (n : Nat) (c : ThreadConfig) : Move Label Tid Env → Prop
  | .start _ _ => True
  | .act u _ => ∀ l k, c.pool u = some ⟨l, .op .antIsEnabled k⟩ →
      disableTook n c.shared = false → u = t

/-- ENABLED is neither the status, nor was it reported behind the first `n` events. -/
structure NoEnabled (n : Nat) (s : Shared) : Prop where
  status : s.radioStatus ≠ .enabled
  reports : .stateCallback .enabled ∉ s.events.drop n

/-- An operation by which the status or the callback takes the value ENABLED. -/
def SaysEnabled : Op → Prop
  | .setRadioStatus status | .stateCallback status => status = .enabled
  | _ => False

/-- A refresh that was answered ENABLED is still to store or to report it. -/
def HoldsAnswer (c : ThreadConfig) (u : Tid) : Prop :=
  ∃ l o k, c.pool u = some ⟨l, .op o k⟩ ∧ l ≠ .enableRadio ∧ SaysEnabled o

/-- The conditions on a step during the disable of thread `t`. -/
structure Undisturbed (t : Tid) (n : Nat) (c : ThreadConfig) (mv : Move Label Tid Env) : Prop where
  chip : answersTruly n c mv
  enable : noEnable c mv
  questions : asksLate t n c mv

end property

/-- The answers that make a thread say ENABLED. -/
def toldEnabled : (o : Op) → o.Res → Prop
  | .antIsEnabled, r => r = 1
  | .getRadioStatus, r => r = .enabled
  | _, _ => False

section code
variable {b : Build} {α : Type} {v : Prop}

/-- The program says ENABLED only directly behind an answer that tells it so. -/
abbrev Told (v : Prop) (p : Cmd α) : Prop := p.Backed SaysEnabled toldEnabled v

theorem told_of_transfers {P : α → Prop} {p : Cmd α} (h : p.Only Transfers P) : Told v p := by
  refine h.backed fun o ho hsays => ?_
  cases o with
  | setRadioStatus | stateCallback => cases ho
  | _ => exact hsays

theorem told_op {o : Op} {k : o.Res → Cmd α} (ho : ¬ SaysEnabled o)
    (hk : ∀ r, Told False (k r)) : Told v (.op o k) :=
  .step ho fun r => (hk r).mono False.elim

theorem reportRadioStatus_told : Told v reportRadioStatus := by
  refine .step id fun set => .ite (fun _ => ?_) fun _ => trivial
  exact .step id fun status =>
    ⟨id, fun _ => trivial⟩

theorem chipStatus_enabled {enabled : Int} (h : chipStatus enabled = .enabled) : enabled = 1 := by
  unfold chipStatus at h
  grind

theorem refreshRadioStatus_told : Told v refreshRadioStatus := by
  simp only [refreshRadioStatus, Prog.op_bind, Prog.ret_bind, Prog.pure_eq]
  refine told_op id fun _ => .step id fun enabled => ?_
  refine ⟨chipStatus_enabled, fun _ => ?_⟩
  exact .step id fun _ => .ite (fun _ => reportRadioStatus_told) fun _ =>
    trivial

theorem getAndSetRadioStatus_told : Told v (getAndSetRadioStatus b) := by
  have hrefresh : Told False (withPowerLibrary b refreshRadioStatus) :=
    .ite (fun _ => refreshRadioStatus_told) fun _ => trivial
  exact told_op id fun _ => hrefresh.bind fun _ =>
    told_op id fun _ => trivial

theorem announceDisabling_told (status : RadioStatus) : Told v (announceDisabling status) := by
  refine .ite (fun _ => told_op (by simp [SaysEnabled]) fun _ => ?_) fun _ => trivial
  exact reportRadioStatus_told

theorem joinThread_told : Told v joinThread :=
  Prog.Only.backed (P := fun o => ¬ SaysEnabled o) (Q := fun _ => True)
    (by simp [joinThread, SaysEnabled]) fun _ ho => ho

theorem beginDisabling_told : Told v (beginDisabling b) := by
  refine .ite (fun _ => ?_) fun _ => told_op (by simp [SaysEnabled]) fun _ => trivial
  refine getAndSetRadioStatus_told.bind fun status => (announceDisabling_told status).bind
    fun _ => ?_
  exact told_op id fun _ => trivial

theorem antDisableRadio_told : Told v (antDisableRadio b) := by
  have hlocked : Told False (disableRadioLocked b) :=
    beginDisabling_told.bind fun _ => joinThread_told.bind fun _ =>
      getAndSetRadioStatus_told.bind fun _ => trivial
  simp only [antDisableRadio, underTxLock, Prog.op_bind, Prog.ret_bind, Prog.pure_eq]
  refine told_op id fun _ => told_op id fun _ =>
    .ite (fun _ => ?_) fun _ => told_op id fun _ => .ite (fun _ => ?_) fun _ => ?_
  · exact told_op id fun _ => trivial
  · exact told_op id fun _ => trivial
  · exact hlocked.bind fun _ => told_op id fun _ =>
      told_op id fun _ => trivial

theorem antRadioEnabledStatus_told : Told v (antRadioEnabledStatus b) := by
  have hrefresh : Told False (refreshUnlessInTransition b) := by
    refine told_op id fun _ => .ite (fun _ => ?_) fun _ => trivial
    refine told_op id fun _ => .ite (fun _ => ?_) fun _ => trivial
    exact getAndSetRadioStatus_told.bind fun _ => trivial
  refine told_op id fun _ => hrefresh.bind fun _ => ?_
  exact told_op id fun _ => told_op id fun _ => trivial

theorem antTxMessage_told (pucMesg : List UInt8) : Told v (antTxMessage b pucMesg) := by
  simp only [antTxMessage, Prog.op_bind, Prog.ret_bind, Prog.pure_eq]
  refine told_op id fun _ => told_op id fun _ =>
    .ite (fun _ => ?_) fun _ => ?_
  · exact told_op id fun _ => trivial
  · exact getAndSetRadioStatus_told.bind fun status =>
      told_of_transfers (beginSending_transfers pucMesg status)

theorem rxLoop_told (rxSocket : Int) : Told v (rxLoop b rxSocket) :=
  getAndSetRadioStatus_told.bind fun _ => .ite (fun _ => trivial) fun _ => trivial

theorem rxClose_told (rxSocket : Int) : Told v (rxClose b rxSocket) := by
  have hreport : Told False reportDisabling := by
    refine told_op id fun _ => .ite (fun _ => ?_) fun _ => trivial
    exact told_op (by simp [SaysEnabled]) fun _ => trivial
  have hcrash : Told False (crashDisable b) := by
    refine .ite (fun _ => hreport.bind fun _ => ?_) fun _ =>
      told_op (by simp [SaysEnabled]) fun _ => trivial
    exact told_op id fun _ => getAndSetRadioStatus_told.bind fun _ => trivial
  have hclean (result : Int) : Told False (crashCleanUp b result) := by
    refine .ite (fun _ => hcrash.bind fun _ => ?_) fun _ => trivial
    exact told_op id fun _ => told_op id fun _ => trivial
  exact told_op id fun result => (hclean result).bind fun _ => told_op id fun _ => trivial

/-- ENABLED of its own accord is said by `ant_enable_radio` only. -/
theorem body_told {l : Label} (hl : l ≠ .enableRadio) : Told v (body b l) := by
  cases l with
  | enableRadio => exact absurd rfl hl
  | disableRadio => exact antDisableRadio_told.bind fun _ => trivial
  | radioEnabledStatus => exact antRadioEnabledStatus_told.bind fun _ => trivial
  | txMessage pucMesg => exact antTxMessage_told pucMesg
  | txWrite tx => exact told_of_transfers (txWrite_transfers tx)
  | txWait tx => exact told_of_transfers (txWait_transfers tx)
  | txRead tx => exact told_of_transfers (txRead_transfers tx)
  | txClose tx => exact told_of_transfers (txClose_transfers tx)
  | rxStart => exact told_of_transfers rxStart_transfers
  | rxLoop rxSocket => exact rxLoop_told rxSocket
  | rxPoll rxSocket => exact told_of_transfers (rxPoll_transfers rxSocket)
  | rxRead rxSocket => exact told_of_transfers (rxRead_transfers rxSocket)
  | rxClose rxSocket => exact rxClose_told rxSocket

/-- `ant_disable` comes before the next question about it. -/
def DisablesFirst (p : Cmd α) : Prop :=
  p.Until (fun _ _ => True) (· = .antDisable) (· = .antIsEnabled) fun _ => False

/-- Behind the store of DISABLING a disable goes on to `ant_disable`. -/
def disablesNext (o : Op) (k : o.Res → Cmd α) : Prop :=
  o = .setRadioStatus .disabling → ∀ r, DisablesFirst (k r)

theorem disablesNext_of_ne {o : Op} {k : o.Res → Cmd α} (ho : o ≠ .setRadioStatus .disabling) :
    disablesNext o k :=
  fun h => absurd h ho

theorem disablesNext_of_mild {o : Op} {k : o.Res → Cmd α} (ho : Mild o) : disablesNext o k := by
  refine disablesNext_of_ne ?_
  rintro rfl
  exact (ho.2 _ rfl).2 rfl

theorem always_step {o : Op} {k : o.Res → Cmd α} (ho : o ≠ .setRadioStatus .disabling)
    (hk : ∀ r, (k r).Always disablesNext) : (.op o k : Cmd α).Always disablesNext :=
  ⟨disablesNext_of_ne ho, hk⟩

theorem always_mild {β : Type} {P : β → Prop} {p : Cmd β} {f : β → Cmd α} (h : p.Only Mild P)
    (hf : ∀ a, (f a).Always disablesNext) : (p >>= f).Always disablesNext :=
  h.always_bind (fun _ _ => disablesNext_of_mild) fun a _ => hf a

/-- Between the store and `ant_disable` DISABLING is reported. -/
theorem announceDisabling_always (status : RadioStatus) {f : Unit → Cmd α}
    (hfirst : DisablesFirst (f ())) (hf : (f ()).Always disablesNext) :
    (announceDisabling status >>= f).Always disablesNext := by
  have hreport : DisablesFirst (reportRadioStatus >>= f) := by
    have honly : reportRadioStatus.Only (· ≠ .antIsEnabled) fun _ => DisablesFirst (f ()) := by
      simp [reportRadioStatus, hfirst]
    exact (Prog.until_bind _ _).mpr (honly.until fun _ ho => ho)
  unfold announceDisabling
  split
  · exact ⟨fun _ _ => hreport, fun _ => always_mild reportRadioStatus_mild fun _ => hf⟩
  · exact hf

theorem beginDisabling_always {f : Unit → Cmd α} (hf : (f ()).Always disablesNext) :
    (beginDisabling b >>= f).Always disablesNext := by
  unfold beginDisabling
  split
  · rw [Prog.bind_assoc]
    refine always_mild getAndSetRadioStatus_mild fun status => ?_
    rw [Prog.bind_assoc]
    exact announceDisabling_always status (.reached rfl) (always_step (by simp) fun _ => hf)
  · exact always_step (by simp) fun _ => hf

theorem antDisableRadio_always {f : AntStatus → Cmd α} (hf : ∀ a, (f a).Always disablesNext) :
    (antDisableRadio b >>= f).Always disablesNext := by
  simp only [antDisableRadio, underTxLock, Prog.op_bind, Prog.ret_bind, Prog.pure_eq]
  refine always_step (by simp) fun _ => always_step (by simp) fun r => ?_
  split
  · exact always_step (by simp) fun _ => hf _
  · rw [Prog.op_bind]
    refine always_step (by simp) fun r => ?_
    split
    · exact always_step (by simp) fun _ => hf _
    · rw [Prog.bind_assoc, disableRadioLocked, Prog.bind_assoc]
      refine beginDisabling_always ?_
      rw [Prog.bind_assoc]
      refine always_mild joinThread_mild fun _ => ?_
      rw [Prog.bind_assoc]
      refine always_mild getAndSetRadioStatus_mild fun status => ?_
      exact always_step (by simp) fun _ => always_step (by simp) fun _ => hf _

theorem body_disables (l : Label) :
    (body b l).Always fun o k => l = .disableRadio → disablesNext o k := by
  by_cases hl : l = .disableRadio
  · subst hl
    have h : (body b .disableRadio).Always disablesNext :=
      antDisableRadio_always fun _ => trivial
    exact h.mono fun _ _ ho _ => ho
  · exact Prog.always_of_forall fun _ _ h => absurd h hl

end code

section window
variable {b : Build} {n : Nat} {t : Tid} {c d : ThreadConfig} {v : Prop}

/-- No thread says ENABLED without being told, except for `ant_enable_radio`. -/
abbrev ThreadsTold (v : Prop) (c : ThreadConfig) : Prop :=
  Machine.PoolBacked (· = .enableRadio) SaysEnabled toldEnabled v c

theorem disablesFirst_resume {l : Label} {p : Cmd (Option Label)} (h : DisablesFirst p) :
    DisablesFirst ((machine b).resume l p).code := by
  obtain ⟨l', rfl, -⟩ | hr := (machine b).resume_cases l p
  · exact h.elim
  · exact hr ▸ h

/-- What a thread may say next is what it has just been told. -/
theorem threadsTold_step (h : ThreadsTold v c) {mv : Move Label Tid Env}
    (hs : (machine b).step mv c = some d)
    (htold : ∀ u env l o k, mv = .act u env → c.pool u = some ⟨l, .op o k⟩ → l ≠ .enableRadio →
      toldEnabled o (effect u env o c.shared).1 → v) : ThreadsTold v d :=
  Machine.poolBacked_step (fun _ hl => body_told hl) h hs htold

theorem threadsTold_reachable {stateCallback rxCallback : Bool}
    (h : (machine b).Reachable (initConfig stateCallback rxCallback) c) : ThreadsTold True c :=
  h.invariant (fun _ _ _ hx _ hs => threadsTold_step hx hs fun _ _ _ _ _ _ _ _ _ => trivial)
    fun _ _ hth => by cases hth

/-- What is recorded by an operation. -/
theorem events_effect (t : Tid) (env : Env) (o : Op) (s : Shared) :
    ∃ es, (effect t env o s).2.events = s.events ++ es ∧
      (∀ status, .stateCallback status ∈ es → o = .stateCallback status) ∧
      (o = .antDisable → ∃ ret, .antDisable ret ∈ es) := by
  cases o with
  | mutexLock | mutexTrylock | pthreadCreate | read | writev =>
      simp only [effect]
      repeat' split
      all_goals simp [Shared.log, Shared.setLock]
  | _ => simp [effect, Shared.log, Shared.setLock]

/-- From the store of DISABLING on, while the conditions are met. -/
structure Window (t : Tid) (n : Nat) (c : ThreadConfig) : Prop where
  silent : NoEnabled n c.shared
  length : n ≤ c.shared.events.length
  told : ThreadsTold False c
  caller : disableTook n c.shared = true ∨ ∃ th, c.pool t = some th ∧ DisablesFirst th.code

theorem not_saysEnabled_of_keepsOut {env : Env} {o : Op} (h : keepsOut env o) :
    ¬ SaysEnabled o := by
  cases o with
  | setRadioStatus | stateCallback => exact h.elim
  | _ => exact id

theorem radioStatus_ne_enabled {u : Tid} {env : Env} {o : Op} {s : Shared} (ho : ¬ SaysEnabled o)
    (h : s.radioStatus ≠ .enabled) : (effect u env o s).2.radioStatus ≠ .enabled := by
  by_cases hset : ∃ status, o = .setRadioStatus status
  · obtain ⟨status, rfl⟩ := hset
    exact ho
  · rw [radioStatus_kept u env s fun status heq => hset ⟨status, heq⟩]
    exact h

section act
variable {u : Tid} {env : Env} {l : Label} {o : Op} {k : o.Res → Cmd (Option Label)}

theorem noEnabled_act (h : NoEnabled n c.shared) (hn : n ≤ c.shared.events.length)
    (ha : (machine b).Acts u env c d l o k) (ho : ¬ SaysEnabled o) :
    NoEnabled n d.shared ∧ n ≤ d.shared.events.length := by
  obtain ⟨es, hes, hreport, -⟩ := events_effect u env o c.shared
  have hd : d.shared = (effect u env o c.shared).2 := ha.shared
  rw [hd]
  refine ⟨⟨radioStatus_ne_enabled ho h.status, ?_⟩, ?_⟩
  · rw [hes, List.drop_append_of_le_length hn, List.mem_append]
    rintro (hold | hnew)
    · exact h.reports hold
    · exact ho (by rw [hreport _ hnew]; rfl)
  · rw [hes, List.length_append]
    omega

theorem disableTook_act (hn : n ≤ c.shared.events.length) (ha : (machine b).Acts u env c d l o k)
    (h : disableTook n c.shared = true ∨ o = .antDisable) : disableTook n d.shared = true := by
  obtain ⟨es, hes, -, hdisable⟩ := events_effect u env o c.shared
  have hd : d.shared = (effect u env o c.shared).2 := ha.shared
  rw [hd, disableTook, hes, List.drop_append_of_le_length hn, List.any_append,
    Bool.or_eq_true]
  obtain h | h := h
  · exact .inl h
  · obtain ⟨ret, hret⟩ := hdisable h
    exact .inr (List.any_eq_true.mpr ⟨_, hret, rfl⟩)

/-- The caller comes to `ant_disable`, whatever the others do. -/
theorem caller_act (h : Window t n c) (ha : (machine b).Acts u env c d l o k) :
    disableTook n d.shared = true ∨ ∃ th, d.pool t = some th ∧ DisablesFirst th.code := by
  obtain htook | ⟨th, hth, hfirst⟩ := h.caller
  · exact .inl (disableTook_act h.length ha (.inl htook))
  · by_cases hut : u = t
    · subst hut
      obtain rfl := Option.some.inj (ha.thread.symm.trans hth)
      obtain hgoal | ⟨-, hk⟩ := hfirst
      · exact .inl (disableTook_act h.length ha (.inr hgoal))
      · exact .inr ⟨_, ha.self.2, disablesFirst_resume (hk _ trivial)⟩
    · exact .inr ⟨th, ha.kept (Ne.symm hut) hth, hfirst⟩

end act

/-- Within the conditions no answer tells ENABLED. -/
theorem not_toldEnabled {u : Tid} {env : Env} {l : Label} {o : Op} {k : o.Res → Cmd (Option Label)}
    (h : Window t n c) (hC : Undisturbed t n c (.act u env)) (hth : c.pool u = some ⟨l, .op o k⟩) :
    ¬ toldEnabled o (effect u env o c.shared).1 := by
  cases o with
  | antIsEnabled =>
      intro (htold : env.antIsEnabled = 1)
      have hchip := hC.chip l k hth
      cases htook : disableTook n c.shared with
      | true =>
          rw [htook, htold] at hchip
          cases hchip
      | false =>
          obtain rfl := hC.questions l k hth htook
          obtain hcaller | ⟨th, hth', hfirst⟩ := h.caller
          · cases htook.symm.trans hcaller
          · obtain rfl := Option.some.inj (hth.symm.trans hth')
            obtain hgoal | ⟨hstop, -⟩ := hfirst
            · cases hgoal
            · exact hstop rfl
  | getRadioStatus => exact h.silent.status
  | _ => exact id

theorem window_step {mv : Move Label Tid Env} (h : Window t n c) (hC : Undisturbed t n c mv)
    (hs : (machine b).step mv c = some d) : Window t n d := by
  have htold : ThreadsTold False d := by
    refine threadsTold_step h.told hs fun u env l o k hmv hth _ => ?_
    subst hmv
    exact not_toldEnabled h hC hth
  cases mv with
  | start u l =>
      have hshared : d.shared = c.shared := by
        obtain ⟨-, -, rfl⟩ := Machine.step_start hs
        rfl
      refine ⟨hshared ▸ h.silent, hshared ▸ h.length, htold, hshared ▸ h.caller.imp id ?_⟩
      rintro ⟨th, hth, hfirst⟩
      exact ⟨th, Machine.step_start_kept hs hth, hfirst⟩
  | act u env =>
      obtain ⟨l, o, k, ha⟩ := Machine.step_act hs
      have hsays : ¬ SaysEnabled o := by
        by_cases hl : l = .enableRadio
        · subst hl
          exact not_saysEnabled_of_keepsOut (hC.enable o k ha.thread)
        · exact (h.told u _ ha.thread hl).1
      obtain ⟨hsilent, hlength⟩ := noEnabled_act h.silent h.length ha hsays
      exact ⟨hsilent, hlength, htold, caller_act h ha⟩

theorem threadsTold_of_holdsAnswer (h : ThreadsTold True c) (hnone : ∀ u, ¬ HoldsAnswer c u) :
    ThreadsTold False c := by
  rintro u ⟨l, code⟩ hth hl
  have htold := h u _ hth hl
  cases code with
  | ret a => trivial
  | op o k => exact ⟨fun ho => hnone u ⟨l, o, k, hth, hl, ho⟩, htold.2⟩

theorem disablesNext_reachable {stateCallback rxCallback : Bool}
    (h : (machine b).Reachable (initConfig stateCallback rxCallback) c) :
    Machine.PoolAlways (fun l o k => l = .disableRadio → disablesNext o k) c :=
  h.invariant (fun _ _ _ hx _ hs => Machine.poolAlways_step body_disables hx hs)
    fun _ _ hth => by cases hth

/-- Once a disable has stored DISABLING, ENABLED is neither stored nor reported
until a call of `ant_enable_radio` gets the lock, except behind an answer of
`ant_is_enabled` that another thread was given before `ant_disable` took effect. -/
theorem no_enabled_during_disable {stateCallback rxCallback : Bool} {c₀ c₁ : ThreadConfig}
    {env : Env} {k : Unit → Cmd (Option Label)}
    (hreach : (machine b).Reachable (initConfig stateCallback rxCallback) c₀)
    (hstores : c₀.pool t = some ⟨.disableRadio, .op (.setRadioStatus .disabling) k⟩)
    (hs : (machine b).step (.act t env) c₀ = some c₁) (hnone : ∀ u, ¬ HoldsAnswer c₀ u)
    (h : (machine b).Path (Undisturbed t c₁.shared.events.length) c₁ c) :
    NoEnabled c₁.shared.events.length c.shared := by
  obtain ⟨l, o, k', ha⟩ := Machine.step_act hs
  cases hstores.symm.trans ha.thread
  have htold : ThreadsTold False c₁ := by
    refine threadsTold_step (threadsTold_of_holdsAnswer (threadsTold_reachable hreach) hnone) hs
      fun u env' l o k'' hmv hth _ => ?_
    cases hmv
    cases hstores.symm.trans hth
    exact id
  have hfirst : DisablesFirst (k ()) :=
    (disablesNext_reachable hreach t _ hstores).1 rfl rfl ()
  have hstatus : c₁.shared.radioStatus = .disabling := by
    rw [ha.shared]
    rfl
  have hstart : Window t c₁.shared.events.length c₁ := by
    refine ⟨⟨?_, ?_⟩, Nat.le_refl _, htold, .inr ⟨_, ha.self.2, disablesFirst_resume hfirst⟩⟩
    · simp [hstatus]
    · simp
  exact (h.invariant (fun _ _ _ hx hC hs => window_step hx hC hs) hstart).silent

def answering (n : Nat) (c : ThreadConfig) : Move Label Tid Env → Bool
  | .start _ _ => true
  | .act _ env => decide (env.antIsEnabled = if disableTook n c.shared then 0 else 1)

theorem answersTruly_of_answering {mv : Move Label Tid Env} (h : answering n c mv = true) :
    answersTruly n c mv := by
  cases mv with
  | start u l => trivial
  | act u env => exact fun _ _ _ => of_decide_eq_true h

/-- The power library tells the truth, and no call of `ant_enable_radio` moves. -/
def chipTells (n : Nat) (c : ThreadConfig) (mv : Move Label Tid Env) : Bool :=
  answering n c mv && (c.pool mv.thread).all fun th => decide (th.label ≠ .enableRadio)

theorem answersTruly_of_chipTells {mv : Move Label Tid Env} (h : chipTells n c mv = true) :
    answersTruly n c mv ∧ noEnable c mv := by
  rw [chipTells, Bool.and_eq_true] at h
  refine ⟨answersTruly_of_answering h.1, ?_⟩
  cases mv with
  | start u l => trivial
  | act u env =>
      intro o k hth
      have hlabel := h.2
      rw [show c.pool (Move.act u env).thread = _ from hth] at hlabel
      simp at hlabel

def asks (t : Tid) (n : Nat) (c : ThreadConfig) : Move Label Tid Env → Bool
  | .start _ _ => true
  | .act u _ => decide (u = t) || disableTook n c.shared

theorem undisturbed_of_asks {mv : Move Label Tid Env}
    (h : (chipTells n c mv && asks t n c mv) = true) : Undisturbed t n c mv := by
  rw [Bool.and_eq_true] at h
  obtain ⟨hchip, henable⟩ := answersTruly_of_chipTells h.1
  refine ⟨hchip, henable, ?_⟩
  cases mv with
  | start u l => trivial
  | act u env =>
      intro l k _ htook
      have hasks := h.2
      rw [asks, htook, Bool.or_false, decide_eq_true_eq] at hasks
      exact hasks

/-- What a call of `ant_disable_radio` is about to do. -/
def disableAt (o : Op) (c : ThreadConfig) : Bool :=
  (c.pool (.app 1)).any fun th => decide (th.label = .disableRadio) && decide (th.head? = some o)

theorem pool_of_disableAt {o : Op} (h : disableAt o c = true) :
    ∃ k, c.pool (.app 1) = some ⟨.disableRadio, .op o k⟩ := by
  obtain ⟨⟨l, code⟩, hth, hat⟩ := Option.any_eq_true _ _ |>.mp h
  rw [Bool.and_eq_true, decide_eq_true_eq, decide_eq_true_eq] at hat
  obtain ⟨hl, hhead⟩ := hat
  obtain ⟨k, rfl⟩ := Thread.code_of_head hhead
  exact ⟨k, hl ▸ hth⟩

/-- The disable is at `o`, and the moves lead from behind it to a state with `p`. -/
def opens (o : Op) (check : Nat → ThreadConfig → Move Label Tid Env → Bool)
    (mvs : List (Move Label Tid Env)) (p : Nat → ThreadConfig → Bool) (c₀ : ThreadConfig) : Bool :=
  disableAt o c₀ &&
    ((machine ⟨.wl12xx, true⟩).step (.act (.app 1) {}) c₀).any fun c₁ =>
      ((machine ⟨.wl12xx, true⟩).exec (check c₁.shared.events.length) mvs c₁).any
        (p c₁.shared.events.length)

theorem path_of_opens {o : Op} {check : Nat → ThreadConfig → Move Label Tid Env → Bool}
    {mvs : List (Move Label Tid Env)} {p : Nat → ThreadConfig → Bool} {c₀ : ThreadConfig}
    (h : opens o check mvs p c₀ = true) :
    ∃ (k : o.Res → Cmd (Option Label)) (c₁ c : ThreadConfig),
      c₀.pool (.app 1) = some ⟨.disableRadio, .op o k⟩ ∧
      (machine ⟨.wl12xx, true⟩).step (.act (.app 1) {}) c₀ = some c₁ ∧
      (machine ⟨.wl12xx, true⟩).Path (fun x mv => check c₁.shared.events.length x mv = true) c₁ c ∧
      p c₁.shared.events.length c = true := by
  rw [opens, Bool.and_eq_true] at h
  obtain ⟨k, hat⟩ := pool_of_disableAt h.1
  obtain ⟨c₁, hs, hc₁⟩ := Option.any_eq_true _ _ |>.mp h.2
  obtain ⟨c, hpath, hc⟩ := Machine.exec_any _ _ _ _ _ hc₁
  exact ⟨k, c₁, c, hat, hs, hpath, hc⟩

/-- A disable from its store of DISABLING on, then a status query. -/
theorem no_enabled_during_disable_off :
    ∃ c₁ c : ThreadConfig, disableTook c₁.shared.events.length c.shared = true ∧
      c.shared.radioStatus = .disabled ∧ NoEnabled c₁.shared.events.length c.shared := by
  obtain ⟨c₀, hpath, hc₀⟩ := Machine.exec_any (machine ⟨.wl12xx, true⟩) (alone (.app 1))
    (.start (.app 1) .disableRadio :: List.replicate 12 (.act (.app 1) {})) (initConfig true true)
    (opens (.setRadioStatus .disabling) (fun n c mv => chipTells n c mv && asks (.app 1) n c mv)
      (List.replicate 4 (.act (.app 1) {}) ++ .start (.app 2) .radioEnabledStatus ::
        List.replicate 5 (.act (.app 2) { antIsEnabled := 0 }) ++
        List.replicate 5 (.act (.app 1) { antIsEnabled := 0 }))
      fun n c => disableTook n c.shared && decide (c.shared.radioStatus = .disabled)) (by decide)
  obtain ⟨k, c₁, c, hstores, hs, hwindow, hc⟩ := path_of_opens hc₀
  rw [Bool.and_eq_true, decide_eq_true_eq] at hc
  refine ⟨c₁, c, hc.1, hc.2, no_enabled_during_disable hpath.reachable hstores hs ?_
    (hwindow.mono fun _ _ => undisturbed_of_asks)⟩
  rintro u ⟨l, o, k', hth, -, hsays⟩
  obtain rfl := pool_alone hpath hth
  cases hstores.symm.trans hth
  cases hsays

/-- The guard of the receive thread asks between the report of DISABLING and
`ant_disable`, and stores ENABLED. -/
theorem enabled_during_disable :
    ¬ ∀ (b : Build) (stateCallback rxCallback : Bool) (t : Tid) (env : Env)
      (k : Unit → Cmd (Option Label)) (c₀ c₁ c : ThreadConfig), b.useExternalPowerLibrary = true →
      (machine b).Path (answersTruly 0) (initConfig stateCallback rxCallback) c₀ →
      c₀.pool t = some ⟨.disableRadio, .op (.stateCallback .disabling) k⟩ →
      (machine b).step (.act t env) c₀ = some c₁ →
      (machine b).Path (fun x mv => answersTruly c₁.shared.events.length x mv ∧ noEnable x mv)
        c₁ c →
      NoEnabled c₁.shared.events.length c.shared := by
  intro h
  obtain ⟨c₀, hpath, hc₀⟩ := Machine.exec_any (machine ⟨.wl12xx, true⟩) (answering 0)
    (.start (.app 0) .enableRadio :: List.replicate 20 (.act (.app 0) {}) ++
      List.replicate 9 (.act (.rx 1) {}) ++
      .start (.app 1) .disableRadio :: List.replicate 12 (.act (.app 1) {})) (initConfig true true)
    (opens (.stateCallback .disabling) chipTells (List.replicate 5 (.act (.rx 1) {}))
      fun _ c => decide (c.shared.radioStatus = .enabled)) (by decide)
  obtain ⟨k, c₁, c, hreports, hs, hwindow, hc⟩ := path_of_opens hc₀
  exact (h _ true true _ _ k c₀ c₁ c rfl (hpath.mono fun _ _ => answersTruly_of_answering)
    hreports hs
    (hwindow.mono fun _ _ => answersTruly_of_chipTells)).status (of_decide_eq_true hc)

end window
end AntHal.Bluez

import AntHal.Chardev.Radio
import AntHal.Chardev.LockInvariant

/-!
Does the outcome of a call tell the truth about the radio?

Enable and disable are followed through every answer of the system calls, from
any reachable state in which the lock is free. For both of them the condition
under which the answer agrees with the state is exact.
-/

namespace AntHal

open Concurrency

namespace Radio

variable {b : Build} {env : Env} {r : Radio}

@[simp] theorem report_stRxThread (s : RadioStatus) :
    (r.report s).stRxThread = r.stRxThread := by
  unfold report
  split <;> rfl

@[simp] theorem report_ucRunThread (s : RadioStatus) :
    (r.report s).ucRunThread = r.ucRunThread := by
  unfold report
  split <;> rfl

@[simp] theorem report_ucChipResetting (s : RadioStatus) :
    (r.report s).ucChipResetting = r.ucChipResetting := by
  unfold report
  split <;> rfl

@[simp] theorem report_iFd (s : RadioStatus) : (r.report s).iFd = r.iFd := by
  unfold report
  split <;> rfl

@[simp] theorem report_gFnStateCallback (s : RadioStatus) :
    (r.report s).gFnStateCallback = r.gFnStateCallback := by
  unfold report
  split <;> rfl

@[simp] theorem report_status (s : RadioStatus) : (r.report s).status b = r.status b := by
  simp [status, openFiles]

/-- Every closed channel of the list can be opened. -/
def Opens (b : Build) (env : Env) (chs : List AntChannelType)
    (iFd : AntChannelType → Int) : Prop :=
  ∀ ch ∈ chs, iFd ch = -1 → 0 ≤ openResult b env ch

theorem openAll_keep (chs : List AntChannelType) (iFd : AntChannelType → Int)
    {ch : AntChannelType} (h : iFd ch ≠ -1) : (openAll b env chs iFd).2 ch = iFd ch := by
  induction chs generalizing iFd with
  | nil => rfl
  | cons c chs ih =>
      simp only [openAll]
      split
      · rename_i hc
        have hne : ch ≠ c := by
          rintro rfl
          exact h hc
        have hup : Function.update iFd c (openResult b env c) ch = iFd ch :=
          Function.update_of_ne hne _ _
        split
        · exact hup
        · exact (ih _ (hup ▸ h)).trans hup
      · exact ih iFd h

variable (b env) in
theorem openAll_success_iff {chs : List AntChannelType} (hnodup : chs.Nodup)
    (iFd : AntChannelType → Int) :
    (openAll b env chs iFd).1 = true ↔ Opens b env chs iFd := by
  induction chs generalizing iFd with
  | nil => simp [openAll, Opens]
  | cons c chs ih =>
      obtain ⟨hc, hnodup⟩ := List.nodup_cons.mp hnodup
      simp only [openAll]
      split
      · rename_i hclosed
        have htail : Opens b env chs (Function.update iFd c (openResult b env c)) ↔
            Opens b env chs iFd := by
          refine forall₂_congr fun ch hch => ?_
          rw [Function.update_of_ne]
          rintro rfl
          exact hc hch
        split
        · rename_i hneg
          simp only [Opens, List.mem_cons, forall_eq_or_imp, hclosed, true_implies]
          simp [Int.not_le.mpr hneg]
        · rename_i hpos
          rw [ih hnodup, htail]
          simp only [Opens, List.mem_cons, forall_eq_or_imp, hclosed, true_implies]
          exact (and_iff_right (Int.not_lt.mp hpos)).symm
      · rename_i hopen
        rw [ih hnodup]
        simp [Opens, hopen]

theorem openAll_open {chs : List AntChannelType} {iFd : AntChannelType → Int}
    (h : (openAll b env chs iFd).1 = true) : ∀ ch ∈ chs, (openAll b env chs iFd).2 ch ≠ -1 := by
  induction chs generalizing iFd with
  | nil => exact fun _ hch => nomatch hch
  | cons c chs ih =>
      simp only [openAll] at h ⊢
      intro ch hch
      split at h
      · rename_i hclosed
        split at h
        · cases h
        · rename_i hpos
          rw [if_pos hclosed, if_neg hpos]
          rcases List.mem_cons.mp hch with rfl | hch
          · rw [openAll_keep]
            all_goals
              rw [Function.update_self]
              omega
          · exact ih h ch hch
      · rename_i hopen
        rw [if_neg hopen]
        rcases List.mem_cons.mp hch with rfl | hch
        · rw [openAll_keep _ _ hopen]
          exact hopen
        · exact ih h ch hch

/-- From closed channels, an open leaves all closed if the first one gets a -1. -/
theorem openAll_closed_iff {c : AntChannelType} {chs : List AntChannelType}
    {iFd : AntChannelType → Int} (hclosed : ∀ ch ∈ c :: chs, iFd ch = -1) :
    (∀ ch ∈ c :: chs, (openAll b env (c :: chs) iFd).2 ch = -1) ↔ openResult b env c = -1 := by
  have hc := hclosed c List.mem_cons_self
  simp only [openAll, hc, if_true]
  constructor
  · intro h
    by_contra hopen
    have hkept : Function.update iFd c (openResult b env c) c ≠ -1 := by
      rwa [Function.update_self]
    have hfd := h c List.mem_cons_self
    split at hfd
    · exact hkept hfd
    · rw [openAll_keep _ _ hkept] at hfd
      exact hkept hfd
  · intro hnone ch hch
    have hsame : Function.update iFd c (-1) = iFd := by rw [← hc, Function.update_eq_self]
    rw [hnone, if_pos (by decide), hsame]
    exact hclosed ch hch

variable (b env) in
/-- How `ant_enable` ends, with what it leaves to its caller. -/
theorem enable_cases (r : Radio) :
    env.eventfdRead = .error ∧ r.enable b env = (-1, r.enableOut b) ∨
    env.eventfdRead ≠ .error ∧ ¬ Opens b env b.channels r.iFd ∧
      r.enable b env = (-1, ({ r with
        ucRunThread := true
        iFd := (openAll b env b.channels r.iFd).2 } : Radio).enableOut b) ∨
    env.eventfdRead ≠ .error ∧ Opens b env b.channels r.iFd ∧
      ∃ created : Radio, (∀ ch ∈ b.channels, created.iFd ch ≠ -1) ∧
        created = ({ r with
          ucRunThread := true
          iFd := (openAll b env b.channels r.iFd).2 } : Radio).create env ∧
        r.enable b env = (if created.ucRunThread then 0 else -1, created.enableOut b) := by
  by_cases hread : env.eventfdRead = .error
  · exact .inl ⟨hread, by simp [enable, hread]⟩
  · have hiff := openAll_success_iff b env b.channels_nodup r.iFd
    by_cases hopen : Opens b env b.channels r.iFd
    · have hfst := hiff.mpr hopen
      refine .inr (.inr ⟨hread, hopen, _, ?_, rfl, by simp [enable, hread, hfst]⟩)
      unfold create
      split <;> exact openAll_open hfst
    · have hfst := Bool.eq_false_iff.mpr fun h => hopen (hiff.mp h)
      exact .inr (.inl ⟨hread, hopen, by simp [enable, hread, hfst]⟩)

/-- What the answer of an enable promises about the radio after it, where
`status` is the radio's status there. -/
structure EnableTruth (b : Build) (result : AntStatus) (status : RadioStatus) (r : Radio) :
    Prop where
  success : result = .success → status = .enabled ∧
    (∀ ch ∈ b.channels, r.iFd ch ≠ -1) ∧ r.stRxThread ≠ 0 ∧ r.ucRunThread = true
  failure : result ≠ .success → status = .disabled ∧
    (∀ ch ∈ b.channels, r.iFd ch = -1) ∧ r.stRxThread = 0

theorem enableTruth_success :
    EnableTruth b .success (r.status b) r ↔ r.status b = .enabled := by
  refine ⟨fun h => (h.success rfl).1, fun h => ⟨fun _ => ⟨h, ?_⟩, fun hne => absurd rfl hne⟩⟩
  obtain ⟨-, hrun, hthread, hopen⟩ := status_eq_enabled_iff.mp h
  exact ⟨hopen, hthread, hrun⟩

theorem enableTruth_failed :
    EnableTruth b .failed (r.status b) r ↔ r.status b = .disabled := by
  refine ⟨fun h => (h.failure (by decide)).1, fun h => ⟨nofun, fun _ => ⟨h, ?_⟩⟩⟩
  obtain ⟨-, -, hthread, hclosed⟩ := status_eq_disabled_iff.mp h
  exact ⟨hclosed, hthread⟩

@[simp] theorem enableOut_stRxThread : (r.enableOut b).stRxThread = r.stRxThread := by
  unfold enableOut
  split <;> rfl

@[simp] theorem enableOut_iFd : (r.enableOut b).iFd = r.iFd := by
  unfold enableOut
  split <;> rfl

@[simp] theorem enableOut_ucChipResetting :
    (r.enableOut b).ucChipResetting = r.ucChipResetting := by
  unfold enableOut
  split <;> rfl

@[simp] theorem enableOut_gFnStateCallback :
    (r.enableOut b).gFnStateCallback = r.gFnStateCallback := by
  unfold enableOut
  split <;> rfl

@[simp] theorem enableOut_reported : (r.enableOut b).reported = r.reported := by
  unfold enableOut
  split <;> rfl

theorem enableOut_ucRunThread :
    (r.enableOut b).ucRunThread = true ↔
      r.ucRunThread = true ∧ ¬ (b.backend = .vfs ∧ r.stRxThread = 0) := by
  unfold enableOut
  split <;> simp [*]

theorem create_ucChipResetting : (r.create env).ucChipResetting = r.ucChipResetting := by
  unfold create
  split <;> rfl

theorem create_stRxThread_ne_zero :
    (r.create env).stRxThread ≠ 0 ↔ (r.stRxThread = 0 → env.pthreadCreate = 0) := by
  unfold create
  split <;> grind

/-- The clean-up after a failure is complete unless a thread cannot be stopped. -/
theorem disable_status (hopen : r.stRxThread ≠ 0 → ∀ ch ∈ b.channels, r.iFd ch ≠ -1) :
    (r.disable b env).2.status b = .disabled ↔
      r.ucChipResetting = false ∧ (r.stRxThread ≠ 0 → env.eventfdWrite = true) := by
  rw [status_eq_disabled_iff]
  unfold disable
  split
  · rename_i h
    obtain ⟨hthread, hwrite⟩ := h
    obtain ⟨ch, hch⟩ := List.exists_mem_of_ne_nil _ b.channels_ne_nil
    refine iff_of_false (fun hall => ?_) (fun hall => ?_)
    · exact hopen hthread ch hch (hall.2.2.2 ch hch)
    · exact Bool.false_ne_true (hwrite.symm.trans (hall.2 hthread))
  · rename_i h
    have hwrite : r.stRxThread ≠ 0 → env.eventfdWrite = true := by grind
    simp only [closeAll]
    simp +contextual [hwrite]

/-- While the lock is free, a recorded thread has all its channels. -/
def ThreadHasChannels (b : Build) (r : Radio) : Prop :=
  r.stRxThread ≠ 0 → ∀ ch ∈ b.channels, r.iFd ch ≠ -1

theorem ThreadHasChannels.thread_eq_zero (h : ThreadHasChannels b r)
    (hopens : ¬ Opens b env b.channels r.iFd) : r.stRxThread = 0 := by
  by_contra hthread
  exact hopens fun ch hch hclosed => absurd hclosed (h hthread ch hch)

/-- The exact condition under which the answer of an enable is true. -/
def EnableReliable (b : Build) (env : Env) (r : Radio) : Prop :=
  (b.backend = .vfs ∧ r.status b = .enabled) ∨
  r.ucChipResetting = false ∧
    (r.stRxThread = 0 → env.eventfdRead ≠ .error → Opens b env b.channels r.iFd →
      env.pthreadCreate = 0) ∧
    (r.stRxThread ≠ 0 → env.eventfdRead = .error → env.eventfdWrite = true)

theorem enableRadioBody_truth (hr : ThreadHasChannels b r) :
    EnableTruth b (r.enableRadioBody b env).1 ((r.enableRadioBody b env).2.status b)
        (r.enableRadioBody b env).2 ↔
      r.ucChipResetting = false ∧
        (r.stRxThread = 0 → env.eventfdRead ≠ .error → Opens b env b.channels r.iFd →
          env.pthreadCreate = 0) ∧
        (r.stRxThread ≠ 0 → env.eventfdRead = .error → env.eventfdWrite = true) := by
  have hneg : (-1 : Int) < 0 := by decide
  unfold enableRadioBody
  rcases enable_cases b env (r.report .enabling) with
    ⟨hread, he⟩ | ⟨hread, hopens, he⟩ | ⟨hread, hopens, created, hopen, hcreated, he⟩
  · have hclean : ThreadHasChannels b ((r.report .enabling).enableOut b) := by
      simpa [ThreadHasChannels] using hr
    simp only [he, if_pos hneg]
    rw [enableTruth_failed, report_status, disable_status hclean]
    simp [hread]
  · simp only [report_iFd] at hopens
    have hthread := hr.thread_eq_zero hopens
    simp only [he, if_pos hneg]
    rw [enableTruth_failed, report_status, disable_status]
    · simp [hthread, hopens]
    · intro h
      simp [hthread] at h
  · simp only [report_iFd] at hopens
    have hrun : created.ucRunThread = true := by
      rw [hcreated, create]
      split <;> rfl
    have hflag : created.ucChipResetting = r.ucChipResetting := by
      rw [hcreated, create_ucChipResetting]
      exact report_ucChipResetting _
    have hthread : created.stRxThread ≠ 0 ↔ (r.stRxThread = 0 → env.pthreadCreate = 0) := by
      rw [hcreated, create_stRxThread_ne_zero, report_stRxThread]
    simp only [he, hrun, if_true, Int.lt_irrefl, if_false]
    rw [enableTruth_success, report_status, status_eq_enabled_iff]
    simp only [enableOut_ucChipResetting, enableOut_ucRunThread, enableOut_stRxThread,
      enableOut_iFd, hflag, hrun, hthread, hread, hopens]
    grind

theorem enableRadio_truth (hr : ThreadHasChannels b r) :
    EnableTruth b (r.enableRadio b env).1 ((r.enableRadio b env).2.status b)
      (r.enableRadio b env).2 ↔ EnableReliable b env r := by
  unfold enableRadio EnableReliable
  split
  · rename_i h
    rw [enableTruth_success]
    exact iff_of_true h.2 (.inl h)
  · rename_i h
    rw [enableRadioBody_truth hr]
    exact (or_iff_right h).symm

/-- What the answer of a disable promises. -/
def DisableTruth (result : AntStatus) (status : RadioStatus) : Prop :=
  result = .success → status = .disabled

/-- The exact condition under which the answer of a disable is true. -/
def DisableReliable (env : Env) (r : Radio) : Prop :=
  r.ucChipResetting = false ∧ (r.stRxThread ≠ 0 → env.eventfdWrite = true)

theorem disableRadio_truth (hr : ThreadHasChannels b r) :
    DisableTruth (r.disableRadio b env).1 ((r.disableRadio b env).2.status b) ↔
      DisableReliable env r := by
  unfold disableRadio DisableTruth
  split
  · rename_i h
    obtain ⟨hflag, -, hthread, -⟩ := status_eq_disabled_iff.mp h.2
    exact iff_of_true (fun _ => h.2) ⟨hflag, fun hne => absurd hthread hne⟩
  · simp only [true_implies, report_status]
    rw [disable_status (by simpa [ThreadHasChannels] using hr)]
    simp [DisableReliable]

end Radio

section code
variable {b : Build} {stateCallback rxCallback : Bool} {c : ThreadConfig}

theorem threadHasChannels
    (h : (machine b).Reachable (initConfig stateCallback rxCallback) c)
    (hfree : c.shared.stEnabledStatusLock = none) : c.shared.radio.ThreadHasChannels b :=
  ((stateLock_holds h).free hfree).open_of_thread

/-- The answers of enable and disable are true exactly under the conditions of
their inputs and of the state before the call. -/
theorem antEnableRadio_antDisableRadio_truth
    (h : (machine b).Reachable (initConfig stateCallback rxCallback) c)
    (hfree : c.shared.stEnabledStatusLock = none) (t : Tid) (env : Env) :
    let enabled := (antEnableRadio b).run (effect b t env) c.shared
    let disabled := (antDisableRadio b).run (effect b t env) c.shared
    (Radio.EnableTruth b enabled.1 (radioEnabledStatus b enabled.2) enabled.2.radio ↔
      Radio.EnableReliable b env c.shared.radio) ∧
    (Radio.DisableTruth disabled.1 (radioEnabledStatus b disabled.2) ↔
      Radio.DisableReliable env c.shared.radio) := by
  intro enabled disabled
  have hr := threadHasChannels h hfree
  have henable := antEnableRadio_acts b t env c.shared
  have hdisable := antDisableRadio_acts b t env c.shared
  obtain ⟨hanswer, hafter⟩ := Prod.mk.inj henable
  obtain ⟨hanswer', hafter'⟩ := Prod.mk.inj hdisable
  rw [radioEnabledStatus_eq, radioEnabledStatus_eq]
  refine ⟨?_, ?_⟩
  · simp only [enabled, hanswer, hafter]
    exact Radio.enableRadio_truth hr
  · simp only [disabled, hanswer', hafter']
    exact Radio.disableRadio_truth hr

/-- From the initial state, with every call succeeding, both answers are true. -/
theorem antEnableRadio_antDisableRadio_truth_init :
    let enabled := (antEnableRadio .smd).run (effect .smd (.app 0) {})
      (initConfig true true).shared
    let disabled := (antDisableRadio .smd).run (effect .smd (.app 0) {})
      (initConfig true true).shared
    Radio.EnableTruth .smd enabled.1 (radioEnabledStatus .smd enabled.2) enabled.2.radio ∧
      Radio.DisableTruth disabled.1 (radioEnabledStatus .smd disabled.2) := by
  have h := antEnableRadio_antDisableRadio_truth (b := .smd) (c := initConfig true true)
    (.refl _) rfl (.app 0) {}
  exact ⟨h.1.mpr (.inr ⟨rfl, fun _ _ _ => rfl, fun hne => absurd rfl hne⟩),
    h.2.mpr ⟨rfl, fun hne => absurd rfl hne⟩⟩

/-- When pthread_create answers EAGAIN, enable succeeds without a receive thread. -/
theorem antEnableRadio_untrue :
    ¬ ∀ (b : Build) (stateCallback rxCallback : Bool) (c : ThreadConfig),
      (machine b).Reachable (initConfig stateCallback rxCallback) c →
      c.shared.stEnabledStatusLock = none → ∀ (t : Tid) (env : Env),
        let enabled := (antEnableRadio b).run (effect b t env) c.shared
        let disabled := (antDisableRadio b).run (effect b t env) c.shared
        Radio.EnableTruth b enabled.1 (radioEnabledStatus b enabled.2) enabled.2.radio ∧
          Radio.DisableTruth disabled.1 (radioEnabledStatus b disabled.2) := by
  intro h
  have hfail := (h .smd true true _ (.refl _) rfl (.app 0) { pthreadCreate := 11 }).1
  have hstatus := (hfail.success (by decide)).1
  revert hstatus
  decide

end code
end AntHal

import AntHal.Concurrency.Cooperative
import AntHal.Concurrency.MonitorRuns
import AntHal.Bluez.LockInvariant

/-!
Does a transition come to its end?

ENABLING and DISABLING are stored by the holder of enableLock only. All other
writers of the status store an answer of the power library, so the holder finds
the status as it left it, or settled.
-/

namespace AntHal.Bluez

open Concurrency

/-- The status is not in transition. -/
def Settled (s : RadioStatus) : Prop := s ≠ .enabling ∧ s ≠ .disabling

section property
variable (b : Build) (c : ThreadConfig)

/-- A call of `ant_enable_radio` or `ant_disable_radio` is in progress. -/
def CallInProgress : Prop :=
  ∃ t th, c.pool t = some th ∧ (th.label = .enableRadio ∨ th.label = .disableRadio) ∧
    th.terminated = false

def SettledAtRest : Prop := ¬ CallInProgress c → Settled c.shared.radioStatus

/-- The outcomes that `ant_enable_radio` does not clean up behind: it marks the
status and does not get txLock; or, without the power library, it gets no thread. -/
def cleans (t : Tid) (env : Env) : Op → Shared → Prop
  | .mutexLock .txLock, s =>
    s.locks .enableLock = some t → env.mutex ≠ 0 → s.radioStatus ≠ .enabling
  | .pthreadCreate, s =>
    b.useExternalPowerLibrary = false → env.pthreadCreate ≠ 0 → s.radioStatus ≠ .enabling
  | _, _ => True

end property

theorem chipStatus_settled (enabled : Int) : Settled (chipStatus enabled) := by
  unfold chipStatus
  split
  · simp [Settled]
  · split <;> simp [Settled]

/-- What an operation answers about the status, and does to it. -/
def statusReacts (b : Build) (inside : Bool) : (o : Op) → RadioStatus → o.Res → RadioStatus → Prop
  | .getRadioStatus, p, r, p' | .returnRadioStatus, p, r, p' => r = p ∧ p' = p
  | .setRadioStatus status, _, _, p' => p' = status
  | .mutexLock l, p, r, p' =>
    p' = p ∧ (inside = true → l = .txLock → r ≠ 0 → p ≠ .enabling)
  | .pthreadCreate, p, r, p' =>
    p' = p ∧ (b.useExternalPowerLibrary = false → r ≠ 0 → p ≠ .enabling)
  | _, p, _, p' => p' = p

theorem lock_radioStatus {env : Env} {t : Tid} {o : Op} {s : Shared} (hact : lockAct o ≠ .plain) :
    (effect t env o s).2.radioStatus = s.radioStatus := by
  refine radioStatus_kept t env s fun status ho => ?_
  subst ho
  exact hact rfl

/-- A plain operation reacts as stated, and leaves the lock. -/
theorem status_plain (b : Build) (t : Tid) (env : Env) (s : Shared) {o : Op}
    (hact : lockAct o = .plain) (hallow : cleans b t env o s) :
    (effect t env o s).2.locks .enableLock = s.locks .enableLock ∧
      ∀ inside : Bool, (inside = true ↔ s.locks .enableLock = some t) →
        statusReacts b inside o s.radioStatus (effect t env o s).1
          (effect t env o s).2.radioStatus := by
  refine ⟨enableLock_kept t env s hact, fun inside hinside => ?_⟩
  cases o with
  | mutexLock l =>
      cases l with
      | enableLock => cases hact
      | txLock =>
          simp only [effect, statusReacts]
          split
          · exact ⟨rfl, fun _ _ hr => absurd rfl hr⟩
          · rename_i herr
            exact ⟨rfl, fun hin _ _ => hallow (hinside.mp hin) herr⟩
  | pthreadCreate =>
      simp only [effect, statusReacts]
      split
      · exact ⟨rfl, fun _ hr => absurd rfl hr⟩
      · rename_i herr
        exact ⟨rfl, fun hb _ => hallow hb herr⟩
  | mutexUnlock l =>
      cases l with
      | enableLock => cases hact
      | txLock => rfl
  | mutexTrylock | unlockReturn => cases hact
  | read | writev =>
      simp only [effect, statusReacts]
      split <;> rfl
  | getRadioStatus | returnRadioStatus => exact ⟨rfl, rfl⟩
  | _ => rfl

def statusLock (b : Build) : Monitor (machine b) RadioStatus where
  owner s := s.locks .enableLock
  guarded s := s.radioStatus
  inv := Settled
  rely p q := q = p ∨ Settled q
  rely_refl _ := .inl rfl
  rely_trans h h' := h'.elim (fun heq => heq ▸ h) .inr
  inv_rely hp h := h.elim (fun heq => heq ▸ hp) id
  lockAct := lockAct
  lockAnswer := lockAnswer
  react := statusReacts b
  check t _ p := ∀ h, t = .rx h → Settled p
  allow := cleans b
  role := hasRole
  role_entry := (enableLock b).role_entry
  role_spawn := (enableLock b).role_spawn
  lock_spec env _ _ _ _ hact hready _ :=
    ⟨lock_radioStatus (by rw [hact]; exact LockAct.noConfusion),
      ((enableLock b).lock_spec env hact hready trivial).2⟩
  unlock_spec t env s _ hact :=
    ⟨lock_radioStatus (by rw [hact]; exact LockAct.noConfusion),
      ((enableLock b).unlock_spec t env s hact).2⟩
  plain_spec t env s _ hact hallow := status_plain b t env s hact hallow

section mild
variable {b : Build} {t : Tid} {α : Type} {P : α → Prop}

/-- Operations without enableLock that store settled statuses only. -/
def Mild (o : Op) : Prop :=
  lockAct o = .plain ∧ ∀ status, o = .setRadioStatus status → Settled status

theorem mild_of_ne {o : Op} (hact : lockAct o = .plain)
    (ho : ∀ status, o ≠ .setRadioStatus status) :
    Mild o :=
  ⟨hact, fun status h => absurd h (ho status)⟩

theorem mild_set {status : RadioStatus} (h : Settled status) : Mild (.setRadioStatus status) := by
  refine ⟨rfl, ?_⟩
  rintro _ ⟨⟩
  exact h

theorem only_mild_of_transfers {p : Cmd α} (h : p.Only Transfers P) : p.Only Mild P := by
  refine h.mono (fun o ho => mild_of_ne ?_ ?_) fun _ ha => ha
  · cases o <;> simp_all [Transfers, transfers, lockAct]
  · rintro status rfl
    cases ho

theorem reportRadioStatus_mild : reportRadioStatus.Only Mild fun _ => True := by
  simp [reportRadioStatus, Mild, lockAct]

theorem refreshRadioStatus_mild : refreshRadioStatus.Only Mild fun _ => True := by
  simp [refreshRadioStatus, Mild, lockAct, chipStatus_settled, reportRadioStatus_mild]

theorem getAndSetRadioStatus_mild : (getAndSetRadioStatus b).Only Mild fun _ => True := by
  have hrefresh : (withPowerLibrary b refreshRadioStatus).Only Mild fun _ => True :=
    Prog.only_ite.mpr ⟨fun _ => refreshRadioStatus_mild, fun _ => trivial⟩
  refine (Prog.only_op _ _).mpr ⟨mild_of_ne rfl (by simp), fun _ => hrefresh.bind fun _ _ => ?_⟩
  simp [Mild, lockAct]

theorem crashDisable_mild : (crashDisable b).Only Mild fun _ => True := by
  have hreport : reportDisabling.Only Mild fun _ => True := by simp [reportDisabling, Mild, lockAct]
  refine Prog.only_ite.mpr ⟨fun _ => hreport.bind fun _ _ => ?_, fun _ => ?_⟩
  · exact (Prog.only_op _ _).mpr ⟨mild_of_ne rfl (by simp), fun _ =>
      getAndSetRadioStatus_mild.bind fun _ _ => trivial⟩
  · exact (Prog.only_op _ _).mpr ⟨mild_set (by simp [Settled]), fun _ => trivial⟩

theorem antRadioEnabledStatus_mild : (antRadioEnabledStatus b).Only Mild fun _ => True := by
  have hrefresh : (refreshUnlessInTransition b).Only Mild fun _ => True := by
    simp only [refreshUnlessInTransition, Prog.op_bind, Prog.ret_bind, Prog.pure_eq, Prog.only_op,
      Prog.only_ite, Prog.only_ret, implies_true, and_true]
    exact ⟨mild_of_ne rfl (by simp), fun _ _ => ⟨mild_of_ne rfl (by simp), fun _ _ =>
      getAndSetRadioStatus_mild.bind fun _ _ => trivial⟩⟩
  refine (Prog.only_op _ _).mpr ⟨mild_of_ne rfl (by simp), fun _ => hrefresh.bind fun _ _ => ?_⟩
  simp [Mild, lockAct]

theorem antTxMessage_mild (pucMesg : List UInt8) :
    (antTxMessage b pucMesg).Only Mild (staysRx false) := by
  simp only [antTxMessage, Prog.op_bind, Prog.ret_bind, Prog.pure_eq, Prog.only_op, Prog.only_ite]
  refine ⟨mild_of_ne rfl (by simp), fun _ => ⟨mild_of_ne rfl (by simp), fun _ => ⟨fun _ =>
    ⟨mild_of_ne rfl (by simp), fun _ => staysRx_none _⟩, fun _ => ?_⟩⟩⟩
  exact getAndSetRadioStatus_mild.bind fun status _ =>
    only_mild_of_transfers (beginSending_transfers pucMesg status)

theorem rxLoop_mild (rxSocket : Int) : (rxLoop b rxSocket).Only Mild (staysRx true) := by
  refine getAndSetRadioStatus_mild.bind fun status _ => ?_
  split <;> exact staysRx_some rfl

theorem mild_react {inside : Bool} {o : Op} {p p' : RadioStatus} {r : o.Res} (ho : Mild o)
    (h : statusReacts b inside o p r p') : p' = p ∨ Settled p' := by
  cases o with
  | setRadioStatus status =>
      refine .inr ?_
      rw [show p' = status from h]
      exact ho.2 status rfl
  | getRadioStatus | returnRadioStatus => exact .inl h.2
  | mutexLock | pthreadCreate => exact .inl h.1
  | _ => exact .inl h

theorem mild_outside {p : Cmd α} (h : p.Only Mild P) : (statusLock b).Outside t p :=
  .only h fun _ ho => ⟨ho.1, fun _ _ _ hr => mild_react ho hr⟩

theorem mild_harmlessIn {o : Op} (ho : Mild o) : (statusLock b).HarmlessIn t o :=
  ⟨ho.1, fun _ hp => ⟨fun _ _ => hp, fun _ _ hr =>
    (mild_react ho hr).elim (fun heq => heq ▸ hp) id⟩⟩

end mild

section calls
variable {b : Build} {n : Nat} {α : Type}

/-- For a call of the application there is nothing to check on the way. -/
abbrev CallTriple (b : Build) (n : Nat) (I : RadioStatus → Prop) (prog : Cmd α)
    (J : α → RadioStatus → Prop) : Prop :=
  (statusLock b).Triple (.app n) I prog J

theorem app_check (o : Op) (p : RadioStatus) : (statusLock b).check (.app n) o p := by
  intro h ht
  cases ht

/-- An assertion that survives the stores of the others survives mild code. -/
theorem mild_triple {I : RadioStatus → Prop} {P : α → Prop} {prog : Cmd α}
    (h : prog.Only Mild P) (hI : (statusLock b).Stable I) :
    CallTriple b n I prog fun a p => P a ∧ I p :=
  .only hI h fun o ho => ⟨ho.1, fun p hp => ⟨app_check o p, fun _ _ hr =>
    hI _ _ hp (mild_react ho hr)⟩⟩

theorem mild_op {I : RadioStatus → Prop} {o : Op} {k : o.Res → Cmd α} {J : α → RadioStatus → Prop}
    (hI : (statusLock b).Stable I) (ho : Mild o) (hk : ∀ r, CallTriple b n I (k r) J) :
    CallTriple b n I (.op o k) J :=
  .op hI ho.1 (fun p hp => ⟨app_check o p, fun _ _ hr => hI _ _ hp (mild_react ho hr)⟩) hk

theorem stable_settled : (statusLock b).Stable Settled :=
  Monitor.stable_inv

theorem stable_true : (statusLock b).Stable fun _ => True := fun _ _ _ _ => trivial

theorem stable_imp {c : Prop} {I : RadioStatus → Prop} (hI : (statusLock b).Stable I) :
    (statusLock b).Stable fun p => c → I p :=
  fun p q hp hq hc => hI p q (hp hc) hq

theorem stable_and {I J : RadioStatus → Prop} (hI : (statusLock b).Stable I)
    (hJ : (statusLock b).Stable J) : (statusLock b).Stable fun p => I p ∧ J p :=
  fun p q hp hq => ⟨hI p q hp.1 hq, hJ p q hp.2 hq⟩

/-- The status is as the call has marked it, or settled. -/
def Pending (p : RadioStatus) : Prop := p = .enabling ∨ Settled p

theorem stable_pending : (statusLock b).Stable Pending := by
  rintro p q hp (rfl | hq)
  · exact hp
  · exact .inr hq

theorem Pending.settled {p : RadioStatus} (h : Pending p) (hp : p ≠ .enabling) : Settled p :=
  h.resolve_left hp

theorem settled_enabled : Settled .enabled := by simp [Settled]

theorem set_settled {I : RadioStatus → Prop} {status : RadioStatus} {k : Unit → Cmd α}
    {J : α → RadioStatus → Prop} (hI : (statusLock b).Stable I) (h : Settled status)
    (hk : CallTriple b n Settled (k ()) J) :
    CallTriple b n I (.op (.setRadioStatus status) k) J := by
  refine .op hI rfl (fun p _ => ⟨app_check _ p, fun _ q hr => ?_⟩) fun _ => hk
  rw [show q = status from hr]
  exact h

/-- A refresh settles the status, but does nothing without the power library. -/
theorem getAndSetRadioStatus_triple {I : RadioStatus → Prop} (hI : (statusLock b).Stable I) :
    CallTriple b n I (getAndSetRadioStatus b) fun status p =>
      (b.useExternalPowerLibrary = true → Settled p) ∧
        (b.useExternalPowerLibrary = false → I p ∧ (status = .enabled → Settled p)) := by
  simp only [getAndSetRadioStatus, Prog.op_bind, Prog.ret_bind]
  refine mild_op hI (mild_of_ne rfl (by simp)) fun _ => ?_
  cases hb : b.useExternalPowerLibrary with
  | true =>
      rw [withPowerLibrary, hb, if_pos rfl]
      have hrefresh : CallTriple b n I refreshRadioStatus fun _ => Settled := by
        simp only [refreshRadioStatus, Prog.op_bind, Prog.ret_bind, Prog.pure_eq]
        refine mild_op hI (mild_of_ne rfl (by simp)) fun _ =>
          mild_op hI (mild_of_ne rfl (by simp)) fun enabled =>
          set_settled hI (chipStatus_settled enabled) <|
          mild_op stable_settled (mild_of_ne rfl (by simp)) fun _ => .ite (fun _ => ?_) fun _ => ?_
        · exact (mild_triple reportRadioStatus_mild stable_settled).mono (fun _ hp => hp)
            fun _ _ hp => hp.2
        · exact .ret stable_settled fun _ hp => hp
      refine hrefresh.bind fun _ => mild_op stable_settled (mild_of_ne rfl (by simp)) fun status =>
        .ret stable_settled fun p hp => ⟨fun _ => hp, fun h => Bool.noConfusion h⟩
  | false =>
      rw [withPowerLibrary, hb, if_neg Bool.false_ne_true]
      refine .op (K := fun status p => I p ∧ (status = .enabled → Settled p)) hI rfl
        (fun p hp => ⟨app_check _ p, ?_⟩) fun status =>
        .ret (stable_and hI (stable_imp stable_settled))
          fun p hp => ⟨fun h => Bool.noConfusion h, fun _ => hp⟩
      rintro r q ⟨rfl, rfl⟩
      refine ⟨hp, ?_⟩
      rintro rfl
      exact settled_enabled

theorem joinThread_mild : joinThread.Only Mild fun _ => True := by
  simp [joinThread, Mild, lockAct]

theorem report_triple {I : RadioStatus → Prop} (hI : (statusLock b).Stable I) :
    CallTriple b n I (withPowerLibrary b reportRadioStatus) fun _ => I := by
  have hmild : (withPowerLibrary b reportRadioStatus).Only Mild fun _ => True :=
    Prog.only_ite.mpr ⟨fun _ => reportRadioStatus_mild, fun _ => trivial⟩
  exact (mild_triple hmild hI).mono (fun _ hp => hp) fun _ _ hp => hp.2

theorem beginEnabling_triple (status : RadioStatus) :
    CallTriple b n (fun p => Pending p ∧ (status = .enabled → Settled p))
      (beginEnabling b status) fun _ => Pending := by
  have hI : (statusLock b).Stable fun p => Pending p ∧ (status = .enabled → Settled p) :=
    stable_and stable_pending (stable_imp stable_settled)
  refine .ite (fun _ => (mild_triple joinThread_mild hI).bind fun _ => ?_) fun _ =>
    .ret hI fun _ hp => hp.1
  refine .op (K := fun _ => Pending) (stable_and (fun _ _ h _ => h) hI) rfl
    (fun p _ => ⟨app_check _ p, fun _ q hr => .inl hr⟩) fun _ => report_triple stable_pending

theorem powerOn_triple {I : RadioStatus → Prop} (hI : (statusLock b).Stable I) :
    CallTriple b n I (powerOn b) fun result p =>
      (b.useExternalPowerLibrary = false → result = 0) ∧ I p := by
  refine mild_triple ?_ hI
  cases hb : b.useExternalPowerLibrary with
  | true => simp [powerOn, hb, Mild, lockAct]
  | false => simp [powerOn, hb]

theorem enabledWithThread_triple :
    CallTriple b n Pending (enabledWithThread b) fun _ => Settled := by
  have hreport : CallTriple b n Settled reportRadioStatus fun _ => Settled :=
    (mild_triple reportRadioStatus_mild stable_settled).mono (fun _ hp => hp) fun _ _ hp => hp.2
  refine .ite (fun _ => ?_) fun _ => ?_
  · refine .op (K := fun status p => Pending p ∧ (status ≠ .enabling → Settled p))
      stable_pending rfl
      (fun p hp => ⟨app_check _ p, ?_⟩) fun status => .ite (fun _ => ?_) fun hne => ?_
    · rintro r q ⟨rfl, rfl⟩
      exact ⟨hp, hp.settled⟩
    · exact set_settled (stable_and stable_pending (stable_imp stable_settled))
        settled_enabled hreport
    · exact .ret (stable_and stable_pending (stable_imp stable_settled)) fun p hp => hp.2 hne
  · exact set_settled stable_pending settled_enabled (.ret stable_settled fun _ hp => hp)

/-- What is left to clean up when the radio could not be connected. -/
def Unfinished (b : Build) (ret : AntStatus) (p : RadioStatus) : Prop :=
  Pending p ∧ (ret = .success ∨ b.useExternalPowerLibrary = false → Settled p)

theorem stable_unfinished (ret : AntStatus) : (statusLock b).Stable (Unfinished b ret) :=
  stable_and stable_pending (stable_imp stable_settled)

theorem unfinished_of_settled {ret : AntStatus} {p : RadioStatus} (h : Settled p) :
    Unfinished b ret p :=
  ⟨.inr h, fun _ => h⟩

theorem connectThread_triple (result : Int) :
    CallTriple b n (fun p => (b.useExternalPowerLibrary = false → result = 0) ∧ Pending p)
      (connectThread b result) (Unfinished b) := by
  have hI : (statusLock b).Stable fun p =>
      (b.useExternalPowerLibrary = false → result = 0) ∧ Pending p :=
    stable_and (fun _ _ h _ => h) stable_pending
  simp only [connectThread, Prog.op_bind, Prog.ret_bind, Prog.pure_eq]
  refine .ite (fun hresult => ?_) fun hresult => .ret hI fun p hp => ⟨hp.2, ?_⟩
  · refine mild_op hI (mild_of_ne rfl (by simp)) fun thread => .ite (fun _ => ?_) fun _ => ?_
    · exact set_settled hI settled_enabled
        (.ret stable_settled fun p hp => unfinished_of_settled hp)
    · refine .op (K := fun r p => Pending p ∧
          (b.useExternalPowerLibrary = false → r ≠ 0 → Settled p)) hI rfl
        (fun p hp => ⟨app_check _ p, ?_⟩) fun r => .ite (fun hr => ?_) fun _ => ?_
      · rintro r q ⟨rfl, hfails⟩
        exact ⟨hp.2, fun hb hr => hp.2.settled (hfails hb hr)⟩
      · refine .ret (stable_and stable_pending (stable_imp (stable_imp stable_settled)))
          fun p hp => ⟨hp.1, ?_⟩
        rintro (hret | hb)
        · cases hret
        · exact hp.2 hb hr
      · refine (enabledWithThread_triple.mono (fun p hp => hp.1) fun _ _ hp => hp).bind fun _ =>
          .ret stable_settled fun p hp => unfinished_of_settled hp
  · rintro (hret | hb)
    · cases hret
    · exact absurd (hp.1 hb) hresult

theorem enableCleanUp_triple (ret : AntStatus) :
    CallTriple b n (Unfinished b ret) (enableCleanUp b ret) fun _ => Settled := by
  have hI := stable_unfinished (b := b) ret
  refine .ite (fun _ => ?_) fun hret => .ret hI fun p hp => hp.2 (.inl (not_not.mp hret))
  have hdisable : (withPowerLibrary b (do let _ ← antDisable; return ())).Only Mild fun _ => True :=
    Prog.only_ite.mpr ⟨fun _ => by simp [Mild, lockAct], fun _ => trivial⟩
  refine (mild_triple hdisable hI).bind fun _ => ((getAndSetRadioStatus_triple hI).mono
    (fun _ hp => hp.2) fun _ _ hp => hp).bind fun status => .ret ?_ fun p hp => ?_
  · exact stable_and (stable_imp stable_settled)
      (stable_imp (stable_and hI (stable_imp stable_settled)))
  · cases hb : b.useExternalPowerLibrary with
    | true => exact hp.1 hb
    | false => exact (hp.2 hb).1.2 (.inr hb)

theorem enableRadioLocked_triple :
    CallTriple b n Pending (enableRadioLocked b) fun _ => Settled := by
  have hstatus : CallTriple b n Pending (getAndSetRadioStatus b) fun status p =>
      Pending p ∧ (status = .enabled → Settled p) := by
    refine (getAndSetRadioStatus_triple stable_pending).mono (fun _ hp => hp) fun status p hp => ?_
    cases hb : b.useExternalPowerLibrary with
    | true => exact ⟨.inr (hp.1 hb), fun _ => hp.1 hb⟩
    | false => exact hp.2 hb
  exact hstatus.bind fun status => (beginEnabling_triple status).bind fun _ =>
    (powerOn_triple stable_pending).bind fun result => (connectThread_triple result).bind fun ret =>
      (enableCleanUp_triple ret).bind fun _ => .ret stable_settled fun _ hp => hp

theorem beginDisabling_triple {I : RadioStatus → Prop} (hI : (statusLock b).Stable I) :
    CallTriple b n I (beginDisabling b) fun _ p =>
      b.useExternalPowerLibrary = false → Settled p := by
  refine .ite (fun hb => ?_) fun _ =>
    set_settled hI (by simp [Settled]) (.ret stable_settled fun _ hp _ => hp)
  have hannounce (status : RadioStatus) :
      CallTriple b n (fun _ => True) (announceDisabling status) fun _ _ => True := by
    refine .ite (fun _ => ?_) fun _ => .ret stable_true fun _ _ => trivial
    exact .op stable_true rfl (fun p _ => ⟨app_check _ p, fun _ _ _ => trivial⟩) fun _ =>
      (mild_triple reportRadioStatus_mild stable_true).mono (fun _ _ => trivial)
        fun _ _ _ => trivial
  refine ((getAndSetRadioStatus_triple hI).mono (fun _ hp => hp) fun _ _ _ => trivial).bind
    fun status => (hannounce status).bind fun _ =>
      mild_op stable_true (mild_of_ne rfl (by simp)) fun _ => .ret stable_true fun p _ hfalse => ?_
  rw [hb] at hfalse
  cases hfalse

theorem disableRadioLocked_triple :
    CallTriple b n Settled (disableRadioLocked b) fun _ => Settled := by
  have hI : (statusLock b).Stable fun p => b.useExternalPowerLibrary = false → Settled p :=
    stable_imp stable_settled
  have hrefresh : CallTriple b n (fun p => b.useExternalPowerLibrary = false → Settled p)
      (getAndSetRadioStatus b) fun _ => Settled := by
    refine (getAndSetRadioStatus_triple hI).mono (fun _ hp => hp) fun status p hp => ?_
    cases hb : b.useExternalPowerLibrary with
    | true => exact hp.1 hb
    | false => exact (hp.2 hb).1 hb
  exact (beginDisabling_triple stable_settled).bind fun _ =>
    (mild_triple joinThread_mild hI).bind fun _ =>
      (hrefresh.mono (fun _ hp => hp.2) fun _ _ hp => hp).bind fun _ =>
        .ret stable_settled fun _ hp => hp

theorem markEnabling_triple : CallTriple b n Settled markEnabling fun _ => Pending := by
  refine mild_op stable_settled (mild_of_ne rfl (by simp)) fun status =>
    .ite (fun _ => ?_) fun _ => ?_
  · exact .op (K := fun _ => Pending) stable_settled rfl
      (fun p _ => ⟨app_check _ p, fun _ q hr => .inl hr⟩) fun _ =>
        .ret stable_pending fun _ hp => hp
  · exact .ret stable_settled fun _ hp => .inr hp

theorem releases_unlockReturn {f : Func} {ret : AntStatus} :
    (statusLock b).Releases (.app n) Settled (unlockReturn f ret >>= fun _ => .ret ret) :=
  .unlock stable_settled rfl (fun p hp => ⟨app_check _ p, hp⟩) fun _ => .ret _

/-- Without txLock a call leaves the status as it has marked it. -/
theorem releases_underTxLock {I : RadioStatus → Prop} {f : Func} {locked : Cmd AntStatus}
    (hI : (statusLock b).Stable I) (hpending : ∀ p, I p → Pending p)
    (h : CallTriple b n I locked fun _ => Settled) :
    (statusLock b).Releases (.app n) I (underTxLock f locked) := by
  simp only [underTxLock, Prog.op_bind, Prog.ret_bind, Prog.pure_eq]
  refine .plain (K := fun r p => I p ∧ (r ≠ 0 → Settled p)) hI rfl
    (fun p hp => ⟨app_check _ p, ?_⟩) fun r => ?_
  · rintro r q ⟨rfl, hfails⟩
    exact ⟨hp, fun hr => (hpending _ hp).settled (hfails rfl rfl hr)⟩
  · split
    · rename_i hr
      intro p hp
      exact releases_unlockReturn p (hp.2 hr)
    · refine (h.mono (fun p hp => hp.1) fun _ _ hp => hp).releases fun ret => ?_
      exact .op (mild_harmlessIn (mild_of_ne rfl (by simp))) fun _ => releases_unlockReturn

theorem outside_lock {k : Int → Cmd α} (hgot : (statusLock b).Releases (.app n) Settled (k 0))
    (hnot : ∀ r, r ≠ 0 → (statusLock b).Outside (.app n) (k r)) :
    (statusLock b).Outside (.app n) (.op (.mutexLock .enableLock) k) := by
  refine .lock rfl (fun r hr => ?_) fun r hr => ?_
  · obtain rfl := hr.mp rfl
    exact hgot
  · exact hnot r fun hzero => Bool.false_ne_true (hr.mpr hzero)

theorem outside_mild {t : Tid} {o : Op} {k : o.Res → Cmd α} (ho : Mild o)
    (hk : ∀ r, (statusLock b).Outside t (k r)) : (statusLock b).Outside t (.op o k) :=
  .op ⟨ho.1, fun _ _ _ hr => mild_react ho hr⟩ hk

theorem outside_antEnableRadio : (statusLock b).Outside (.app n) (antEnableRadio b) := by
  simp only [antEnableRadio, Prog.op_bind, Prog.ret_bind, Prog.pure_eq]
  refine outside_mild (mild_of_ne rfl (by simp)) fun _ => outside_lock ?_ fun r hr => ?_
  · rw [if_neg (not_not.mpr rfl)]
    exact markEnabling_triple.releases fun _ =>
      releases_underTxLock stable_pending (fun _ hp => hp) enableRadioLocked_triple
  · rw [if_pos hr]
    exact outside_mild (mild_of_ne rfl (by simp)) fun _ => .ret _

theorem outside_antDisableRadio : (statusLock b).Outside (.app n) (antDisableRadio b) := by
  simp only [antDisableRadio, Prog.op_bind, Prog.ret_bind, Prog.pure_eq]
  refine outside_mild (mild_of_ne rfl (by simp)) fun _ => outside_lock ?_ fun r hr => ?_
  · rw [if_neg (not_not.mpr rfl)]
    exact releases_underTxLock stable_settled (fun _ hp => .inr hp) disableRadioLocked_triple
  · rw [if_pos hr]
    exact outside_mild (mild_of_ne rfl (by simp)) fun _ => .ret _

end calls

section machine
variable {b : Build} {t : Tid} {c : ThreadConfig}

/-- The clean-up of a crash stores settled statuses only. -/
theorem outside_rxClose (rxSocket : Int) : (statusLock b).Outside t (rxClose b rxSocket) := by
  simp only [rxClose, Prog.op_bind, Prog.ret_bind, Prog.pure_eq]
  refine .lock rfl (fun r hr => ?_) fun r hr => ?_
  · obtain rfl := hr.mp rfl
    have hinside : (statusLock b).Inside t (crashDisable b) :=
      .only crashDisable_mild fun _ ho => mild_harmlessIn ho
    have hcrash : (statusLock b).Releases t Settled (crashCleanUp b 0) := by
      simp only [crashCleanUp, if_true, Prog.op_bind]
      exact hinside.releases fun _ => .op (mild_harmlessIn (mild_of_ne rfl (by simp))) fun _ =>
        .unlock stable_settled rfl (fun p hp => ⟨fun _ _ => hp, hp⟩) fun _ => .ret _
    exact hcrash.bind fun _ => outside_mild (mild_of_ne rfl (by simp)) fun _ => .ret _
  · have hne : r ≠ 0 := fun hzero => Bool.false_ne_true (hr.mpr hzero)
    rw [crashCleanUp, if_neg hne]
    exact outside_mild (mild_of_ne rfl (by simp)) fun _ => .ret _

/-- The blocks that take enableLock. -/
def takesLock : Label → Prop
  | .enableRadio | .disableRadio | .rxClose _ => True
  | _ => False

theorem body_mild {l : Label} (hl : ¬ takesLock l) : (body b l).Only Mild (staysRx l.isRx) := by
  cases l with
  | enableRadio | disableRadio | rxClose => exact absurd trivial hl
  | radioEnabledStatus => exact antRadioEnabledStatus_mild.bind fun _ _ => staysRx_none _
  | txMessage pucMesg => exact antTxMessage_mild pucMesg
  | txWrite tx => exact only_mild_of_transfers (txWrite_transfers tx)
  | txWait tx => exact only_mild_of_transfers (txWait_transfers tx)
  | txRead tx => exact only_mild_of_transfers (txRead_transfers tx)
  | txClose tx => exact only_mild_of_transfers (txClose_transfers tx)
  | rxStart => exact only_mild_of_transfers rxStart_transfers
  | rxLoop rxSocket => exact rxLoop_mild rxSocket
  | rxPoll rxSocket => exact only_mild_of_transfers (rxPoll_transfers rxSocket)
  | rxRead rxSocket => exact only_mild_of_transfers (rxRead_transfers rxSocket)

theorem body_always (l : Label) :
    (body b l).Always fun o _ => lockAct o = .lock → takesLock l := by
  by_cases hl : takesLock l
  · exact Prog.always_of_forall fun _ _ _ => hl
  · refine (body_mild hl).always fun o k ho hlock => ?_
    cases ho.1.symm.trans hlock

theorem statusLock_checked (b : Build) : (statusLock b).Checked := by
  have hend : ∀ {t : Tid} {α : Type} {prog : Cmd α}, (statusLock b).Outside t prog →
      (statusLock b).Sat t ((statusLock b).Done t) none
        (prog >>= fun _ => (.ret none : Cmd (Option Label))) := by
    intro t α prog h
    refine (statusLock b).sat_bind t (h.mono _ t fun _ v hv => ?_)
    subst hv
    refine ⟨rfl, fun l' hl' => ?_⟩
    cases hl'
  intro t l hl
  by_cases hlock : takesLock l
  · cases l with
    | enableRadio =>
        cases t with
        | app n => exact hend outside_antEnableRadio
        | rx h => cases hl
    | disableRadio =>
        cases t with
        | app n => exact hend outside_antDisableRadio
        | rx h => cases hl
    | rxClose rxSocket =>
        refine ((outside_rxClose rxSocket).returns _ t (rxClose_returns rxSocket)).mono _ t
          fun a v hv => ⟨hv.1, fun l' hl' => ?_⟩
        cases hv.2.symm.trans hl'
    | _ => cases hlock
  · have h := body_mild (b := b) hlock
    refine ((mild_outside h).returns _ t h.returns).mono _ t fun a v hv => ⟨hv.1, fun l' hl' => ?_⟩
    have hsame := hv.2 l' hl'
    cases t <;> exact hsame.trans hl

end machine

section runs
variable {b : Build} {c : ThreadConfig} {mv : Move Label Tid Env} {stateCallback rxCallback : Bool}

/-- The move ends no call of `ant_enable_radio` without its clean-up. -/
def cleansUp (b : Build) (c : ThreadConfig) : Move Label Tid Env → Prop
  | .start _ _ => True
  | .act t env => ∀ l o k, c.pool t = some ⟨l, .op o k⟩ → cleans b t env o c.shared

theorem allowed_of_cleansUp (h : cleansUp b c mv) : (statusLock b).Allowed c mv := by
  cases mv with
  | start t l => trivial
  | act t env =>
      intro o ho
      obtain ⟨⟨l, code⟩, hth, hhead⟩ := Option.bind_eq_some_iff.mp ho
      obtain ⟨k, rfl⟩ := Thread.code_of_head hhead
      exact h l o k hth

theorem statusLock_init : (statusLock b).Holds (initConfig stateCallback rxCallback) := by
  refine ⟨fun _ => ?_, ?_, ?_, ?_⟩
  · simp [statusLock, initConfig, Shared.init, Settled]
  · intro t ht
    cases ht
  · intro t th hth
    cases hth
  · intro t th hth
    cases hth

/-- If every failing exit of `ant_enable_radio` is one that cleans up, the status
is in transition only as long as a call is in progress. -/
theorem settled_at_rest
    (h : (machine b).Path (cleansUp b) (initConfig stateCallback rxCallback) c) :
    SettledAtRest c := by
  have hallowed : ∀ x mv, cleansUp b x mv → (statusLock b).Allowed x mv :=
    fun _ _ => allowed_of_cleansUp
  have hholds := Monitor.holds_path (statusLock_checked b) hallowed statusLock_init h
  have hlabel := Monitor.owner_label (statusLock_checked b) hallowed body_always statusLock_init
    (fun _ => rfl) h
  intro hrest
  cases howner : (statusLock b).owner c.shared with
  | none => exact hholds.free howner
  | some t =>
      obtain ⟨l, o, k, hth, hcheck⟩ := hholds.checked howner
      have htakes := hlabel t _ howner hth
      cases l with
      | enableRadio => exact absurd ⟨t, _, hth, .inl rfl, rfl⟩ hrest
      | disableRadio => exact absurd ⟨t, _, hth, .inr rfl, rfl⟩ hrest
      | rxClose rxSocket =>
          have hrole := hholds.roles t _ hth
          cases t with
          | app n => cases hrole
          | rx handle => exact hcheck handle rfl
      | _ => cases htakes

/-- The thread moves alone, and creates no other one. -/
def alone (t : Tid) (c : ThreadConfig) (mv : Move Label Tid Env) : Bool :=
  decide (mv.thread = t) && (c.pool t).all fun th => decide (th.head? ≠ some .pthreadCreate)

theorem stays_of_alone {t : Tid} (h : alone t c mv = true) :
    (machine b).stays [t] c mv = true := by
  simp only [alone, Bool.and_eq_true, decide_eq_true_eq] at h
  obtain ⟨rfl, hcreate⟩ := h
  cases mv with
  | start t l => simp [Machine.stays, Move.thread]
  | act t env =>
      cases hth : c.pool t with
      | none => simp [Machine.stays, hth]
      | some th =>
          obtain ⟨l, code⟩ := th
          rw [show c.pool (Move.act t env).thread = _ from hth] at hcreate
          cases code with
          | ret a => simp [Machine.stays, hth]
          | op o k =>
              have hno : o ≠ .pthreadCreate := by simpa [Thread.head?] using hcreate
              have hspawn : spawned o (effect t env o c.shared).1 (effect t env o c.shared).2 =
                  none := by
                cases o <;> first | rfl | exact absurd rfl hno
              simp [Machine.stays, hth, machine, hspawn]

theorem pool_alone {t : Tid} (h : (machine b).Path (fun x mv => alone t x mv = true)
    (initConfig stateCallback rxCallback) c) {u : Tid} {th : Thread Op Op.Res Label}
    (hth : c.pool u = some th) : u = t :=
  List.mem_singleton.mp
    (Machine.pool_stays (h.mono fun _ _ => stays_of_alone) (fun _ => rfl) hth)

theorem not_callInProgress (h : (machine b).Path (fun x mv => alone (.app 0) x mv = true)
    (initConfig stateCallback rxCallback) c)
    (hend : (c.pool (.app 0)).any Thread.terminated = true) : ¬ CallInProgress c := by
  rintro ⟨t, th, hth, -, hgoes⟩
  obtain rfl := pool_alone h hth
  rw [hth, Option.any_some, hgoes] at hend
  cases hend

/-- A call of `ant_enable_radio` for which every lock fails from the fourth
operation on: the one of txLock. -/
def enablingUnlocked : List (Move Label Tid Env) :=
  .start (.app 0) .enableRadio :: List.replicate 4 (.act (.app 0) {}) ++
    List.replicate 2 (.act (.app 0) { mutex := -1 })

theorem settled_not_at_rest :
    ¬ ∀ (b : Build) (stateCallback rxCallback : Bool) (c : ThreadConfig),
      (machine b).Reachable (initConfig stateCallback rxCallback) c → SettledAtRest c := by
  intro h
  obtain ⟨c, hpath, hc⟩ := Machine.exec_any (machine ⟨.wl12xx, true⟩)
    (alone (.app 0)) enablingUnlocked (initConfig true true)
    (fun c => (c.pool (.app 0)).any Thread.terminated && decide (c.shared.radioStatus = .enabling))
    (by decide)
  rw [Bool.and_eq_true, decide_eq_true_eq] at hc
  have hrest := not_callInProgress hpath hc.1
  exact (h _ true true c hpath.reachable hrest).1 hc.2

/-- The two calls that may leave the status behind succeed. -/
def unfailing : Move Label Tid Env → Bool
  | .start _ _ => true
  | .act _ env => decide (env.mutex = 0) && decide (env.pthreadCreate = 0)

theorem cleansUp_of_unfailing (h : unfailing mv = true) : cleansUp b c mv := by
  cases mv with
  | start t l => trivial
  | act t env =>
      intro l o k hth
      simp only [unfailing, Bool.and_eq_true, decide_eq_true_eq] at h
      cases o with
      | mutexLock lock =>
          cases lock with
          | enableLock => trivial
          | txLock => exact fun _ hne => absurd h.1 hne
      | pthreadCreate => exact fun _ hne => absurd h.2 hne
      | _ => trivial

/-- `ant_enable` fails, and the call cleans up. -/
theorem settled_at_rest_refused :
    ∃ c : ThreadConfig, c.shared.radioStatus ≠ .enabled ∧ Settled c.shared.radioStatus := by
  obtain ⟨c, hpath, hc⟩ := Machine.exec_any (machine ⟨.wl12xx, true⟩)
    (fun x mv => unfailing mv && alone (.app 0) x mv)
    (.start (.app 0) .enableRadio ::
      List.replicate 32 (.act (.app 0) { antEnable := -1, antIsEnabled := 0 }))
      (initConfig true true)
    (fun c => (c.pool (.app 0)).any Thread.terminated && decide (c.shared.radioStatus ≠ .enabled))
    (by decide)
  simp only [Bool.and_eq_true, decide_eq_true_eq] at hpath hc
  exact ⟨c, hc.2, settled_at_rest (hpath.mono fun _ _ hmv => cleansUp_of_unfailing hmv.1)
    (not_callInProgress (hpath.mono fun _ _ hmv => hmv.2) hc.1)⟩

end runs

end AntHal.Bluez

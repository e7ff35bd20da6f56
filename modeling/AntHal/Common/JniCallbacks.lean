import AntHal.Common.JniBridge
import AntHal.Chardev.Operations
import AntHal.Chardev.Sessions
import AntHal.Bluez.Operations
import AntHal.Bluez.LockInvariant

/-!
The callbacks of JAntNative.cpp under each of the back ends.

A back end is a machine with the callbacks that its operations make. Over it stands
the VM: each callback runs on the thread that makes it. Two threads share no more of
the VM than the statics, which only `JNI_OnLoad` writes, so that a callback may be
taken as one step.
-/

namespace AntHal.Jni

open Concurrency

structure BackEnd (Op : Type) (Res : Op → Type) (Label σ Env : Type) where
  machine : Machine Op Res Label Tid σ Env
  init : σ
  /-- The callbacks that an operation makes, in their order. -/
  callbacks : Env → Op → σ → List Callback
  /-- The callbacks that the state has on record. -/
  logged : σ → List Callback
  logged_init : logged init = []
  logged_effect : ∀ t env o s,
    logged (machine.effect t env o s).2 = logged s ++ callbacks env o s
  /-- Messages come on receive threads only. -/
  fits : ∀ {c}, machine.Reachable ⟨init, fun _ => none⟩ c → ∀ {t l o k},
    c.pool t = some ⟨l, .op o k⟩ → ∀ env, ∀ cb ∈ callbacks env o c.shared, cb.FitsThread t.isApp

/-- A callback, with the thread it comes on and what the VM answers it. -/
structure Passed where
  thread : Tid
  callback : Callback
  answers : VmEnv

structure Bridged (σ : Type) where
  backEnd : σ
  vms : Tid → Vm
  passed : List Passed

/-- The callbacks of one step get the answers of the VM one after the other. -/
structure BridgedEnv (Env : Type) where
  env : Env
  answers : Nat → VmEnv := fun _ => {}

/-- The VM as a thread finds it that has made no callback yet. -/
def Vm.onThread (vm : Vm) (t : Tid) : Vm :=
  { vm with thread := ⟨t.isApp, t.isApp, false, none, 0⟩, heard := [] }

def passedOn (t : Tid) (ps : List Passed) : List (Callback × VmEnv) :=
  (ps.filter fun p => p.thread = t).map fun p => (p.callback, p.answers)

namespace BackEnd

variable {Op : Type} {Res : Op → Type} {Label σ Env : Type} (B : BackEnd Op Res Label σ Env)

def passes (t : Tid) (env : BridgedEnv Env) (o : Op) (s : σ) : List Passed :=
  (B.callbacks env.env o s).mapIdx fun i cb => ⟨t, cb, env.answers i⟩

def bridgedEffect (t : Tid) (env : BridgedEnv Env) (o : Op) (s : Bridged σ) : Res o × Bridged σ :=
  let (r, backEnd) := B.machine.effect t env.env o s.backEnd
  let ps := B.passes t env o s.backEnd
  (r, { backEnd := backEnd
        vms := Function.update s.vms t ((s.vms t).passAll (passedOn t ps))
        passed := s.passed ++ ps })

def bridged : Machine Op Res Label Tid (Bridged σ) (BridgedEnv Env) where
  body := B.machine.body
  entry := B.machine.entry
  ready pool t env o s := B.machine.ready pool t env.env o s.backEnd
  effect := B.bridgedEffect
  spawn o r s := B.machine.spawn o r s.backEnd

def bridgedInit (vm : Vm) : Config Op Res Label Tid (Bridged σ) :=
  ⟨⟨B.init, vm.onThread, []⟩, fun _ => none⟩

theorem bridged_projects : B.bridged.Projects B.machine Bridged.backEnd BridgedEnv.env where
  body := rfl
  entry := rfl
  ready h := h
  effect _ _ _ _ := rfl
  spawn _ _ _ := rfl

end BackEnd

section passing
variable {t u : Tid} {ps qs : List Passed}

theorem passedOn_append : passedOn t (ps ++ qs) = passedOn t ps ++ passedOn t qs := by
  simp [passedOn]

theorem passedOn_self (h : ∀ p ∈ ps, p.thread = t) :
    passedOn t ps = ps.map fun p => (p.callback, p.answers) := by
  rw [passedOn, List.filter_eq_self.mpr fun p hp => decide_eq_true (h p hp)]

theorem passedOn_other (h : ∀ p ∈ ps, p.thread = t) (hut : u ≠ t) : passedOn u ps = [] := by
  have hnone : ps.filter (fun p => p.thread = u) = [] :=
    List.filter_eq_nil_iff.mpr fun p hp heq => hut ((of_decide_eq_true heq).symm.trans (h p hp))
  rw [passedOn, hnone, List.map_nil]

end passing

namespace BackEnd

variable {Op : Type} {Res : Op → Type} {Label σ Env : Type} {B : BackEnd Op Res Label σ Env}
  {t : Tid} {env : BridgedEnv Env} {o : Op} {s : σ}

theorem passes_thread : ∀ p ∈ B.passes t env o s, p.thread = t := by
  intro p hp
  obtain ⟨i, hi, rfl⟩ := List.mem_mapIdx.mp hp
  rfl

theorem passes_callback : (B.passes t env o s).map Passed.callback = B.callbacks env.env o s := by
  rw [passes, List.mapIdx_eq_zipIdx_map, List.map_map]
  exact List.zipIdx_map_fst 0 _

/-- What has been passed is on record, and each thread is ready for more: Java has
heard from it what the VM let through. -/
structure Holds (B : BackEnd Op Res Label σ Env) (c : Config Op Res Label Tid (Bridged σ)) :
    Prop where
  reachable : B.machine.Reachable ⟨B.init, fun _ => none⟩ (c.project Bridged.backEnd)
  logged : B.logged c.shared.backEnd = c.shared.passed.map Passed.callback
  ready : ∀ t, (c.shared.vms t).Ready t.isApp
  heard : ∀ t, (c.shared.vms t).heard = heardOf t.isApp (passedOn t c.shared.passed)

variable {c d : Config Op Res Label Tid (Bridged σ)}

/-- One operation: the callbacks come on the thread that performs it. -/
theorem holds_act {l : Label} {k : Res o → Prog Op Res (Option Label)} (h : B.Holds c)
    (ha : Machine.Acts B.bridged t env c d l o k)
    (hreach : B.machine.Reachable ⟨B.init, fun _ => none⟩ (d.project Bridged.backEnd)) :
    B.Holds d := by
  have hshared : d.shared = (B.bridgedEffect t env o c.shared).2 := ha.shared
  have hfits : ∀ p ∈ passedOn t (B.passes t env o c.shared.backEnd), p.1.FitsThread t.isApp := by
    intro p hp
    rw [passedOn_self passes_thread] at hp
    obtain ⟨q, hq, rfl⟩ := List.mem_map.mp hp
    refine B.fits h.reachable (l := l) (o := o) (k := k) ha.thread env.env q.callback ?_
    rw [← passes_callback (t := t)]
    exact List.mem_map_of_mem hq
  obtain ⟨hready, hheard⟩ := passAll_ready (h.ready t) hfits
  refine ⟨hreach, ?_, fun u => ?_, fun u => ?_⟩
  · rw [hshared]
    change B.logged (B.machine.effect t env.env o c.shared.backEnd).2 = _
    rw [B.logged_effect, h.logged, ← passes_callback (t := t), ← List.map_append]
    rfl
  · rw [hshared]
    by_cases hut : u = t
    · subst hut
      simpa [bridgedEffect] using hready
    · simpa [bridgedEffect, Function.update_of_ne hut] using h.ready u
  · rw [hshared]
    change (Function.update c.shared.vms t _ u).heard =
      heardOf u.isApp (passedOn u (c.shared.passed ++ B.passes t env o c.shared.backEnd))
    rw [passedOn_append, heardOf_append, ← h.heard u]
    by_cases hut : u = t
    · subst hut
      rw [Function.update_self, hheard]
    · rw [Function.update_of_ne hut, passedOn_other passes_thread hut]
      exact (List.append_nil _).symm

theorem holds_reachable {vm : Vm} (hvm : vm.FromOnLoad)
    (h : B.bridged.Reachable (B.bridgedInit vm) c) : B.Holds c := by
  have hready := hvm.ready
  refine h.invariant (I := B.Holds) ?_ ?_
  · intro x mv y hx _ hs
    have hreach := hx.reachable.trans (.tail (.refl _) trivial (B.bridged_projects.step hs))
    cases mv with
    | start t l =>
        obtain ⟨-, -, rfl⟩ := Machine.step_start hs
        exact ⟨hreach, hx.logged, hx.ready, hx.heard⟩
    | act t env =>
        obtain ⟨l, o, k, ha⟩ := Machine.step_act hs
        exact holds_act hx ha hreach
  · refine ⟨.refl _, B.logged_init, fun t => ?_, fun t => rfl⟩
    exact ⟨hready.version14, hready.globals, ⟨rfl, rfl, rfl, rfl, fun _ => rfl⟩, hready.sound⟩

end BackEnd
end AntHal.Jni

namespace AntHal
open Concurrency Jni

section chardev
variable {b : Build} {stateCallback rxCallback : Bool}

/-- `fnRxCallback` is called for a frame that is nobody else's. -/
def frameCallback : RxAction → Option Callback
  | .frame _ msg .rxCallback => some (.antRxMessage msg)
  | _ => none

def chardevCallbacks (b : Build) (env : Env) : Op → Shared → List Callback
  | .stateCallback status, _ => [.antStateChange status]
  | .readChannelMsg ch, s =>
    (readChannelMsg b.hci ⟨env.read, env.beyond, fun _ => 0⟩ (s.rx ch)
      (s.astChannels ch)).actions.filterMap frameCallback
  | _, _ => []

def eventCallbacks : Event → List Callback
  | .stateCallback status => [.antStateChange status]
  | .received _ _ actions => actions.filterMap frameCallback
  | _ => []

def chardevLogged (s : Shared) : List Callback := s.events.flatMap eventCallbacks

theorem chardevLogged_log (s : Shared) (e : Event) :
    chardevLogged (s.log e) = chardevLogged s ++ eventCallbacks e := by
  simp [chardevLogged, Shared.log]

theorem chardevLogged_effect (t : Tid) (env : Env) (o : Op) (s : Shared) :
    chardevLogged (effect b t env o s).2 = chardevLogged s ++ chardevCallbacks b env o s := by
  cases o with
  | readChannelMsg ch => exact chardevLogged_log _ _
  | mutexTrylock | openDevice | keepAliveCreate | eventfdWrite | pthreadCreate =>
      simp only [effect]
      split
      all_goals first | exact (List.append_nil _).symm | exact chardevLogged_log _ _
  | _ => first | exact (List.append_nil _).symm | exact chardevLogged_log _ _

/-- No frame is read. -/
def Unreading (o : Op) : Prop := ∀ ch, o ≠ .readChannelMsg ch

theorem unreading_of_call {o : Op} (h : callOp o = true) : Unreading o := by
  intro ch heq
  subst heq
  cases h

theorem antRadioHardReset_unreading : (antRadioHardReset b).Only Unreading fun _ => True := by
  have hsection {α : Type} {p : Cmd α} (h : p.Only (sectionOp · = true) fun _ => True) :
      p.Only Unreading fun _ => True :=
    h.mono (fun _ ho => unreading_of_call (call_of_section ho)) fun _ h => h
  have hlocked : (hardResetLocked b).Only Unreading fun _ => True := by
    simp only [hardResetLocked, Prog.op_bind, Prog.ret_bind, Prog.pure_eq]
    refine (Prog.only_op _ _).mpr ⟨fun _ => Op.noConfusion, fun _ =>
      (hsection (report_section _)).bind fun _ _ => ?_⟩
    refine (Prog.only_op _ _).mpr ⟨fun _ => Op.noConfusion, fun _ =>
      (hsection antDisable_section).bind fun _ _ =>
        (hsection antEnable_section).bind fun result _ =>
          Prog.only_ite.mpr ⟨fun _ => ?_, fun _ => ?_⟩⟩
    all_goals exact (hsection (report_section _)).bind fun _ _ => by simp [Unreading]
  simp only [antRadioHardReset, Prog.op_bind, Prog.ret_bind, Prog.pure_eq, Prog.only_op,
    Prog.only_ite]
  refine ⟨fun _ => Op.noConfusion, fun _ => ⟨fun _ => by simp [Unreading], fun _ =>
    ⟨fun _ => Op.noConfusion, fun _ => ⟨fun _ => by simp [Unreading], fun _ =>
      hlocked.bind fun _ _ => by simp [Unreading]⟩⟩⟩⟩

/-- The calls of the application read no frame. -/
theorem call_unreading {n : Nat} {l : Label} (h : hasRole (.app n) l) :
    (body b l).Only Unreading fun _ => True := by
  cases l with
  | enableRadio =>
      exact (antEnableRadio_calls.mono (fun _ => unreading_of_call) fun _ h => h).bind
        fun _ _ => trivial
  | disableRadio =>
      exact (antDisableRadio_calls.mono (fun _ => unreading_of_call) fun _ h => h).bind
        fun _ _ => trivial
  | hardReset => exact antRadioHardReset_unreading.bind fun _ _ => trivial
  | rxStart | rxLoop | rxClose | doReset => exact h.elim

theorem chardevCallbacks_fit {c : ThreadConfig}
    (hreach : (machine b).Reachable (initConfig stateCallback rxCallback) c) {t : Tid}
    {l : Label} {o : Op} {k : o.Res → Cmd (Option Label)} (hth : c.pool t = some ⟨l, .op o k⟩)
    (env : Env) : ∀ cb ∈ chardevCallbacks b env o c.shared, cb.FitsThread t.isApp := by
  intro cb hcb ht
  have hbody (l : Label) : ((machine b).body l).Always fun o _ =>
      (∃ n, hasRole (.app n) l) → Unreading o := by
    by_cases happ : ∃ n, hasRole (.app n) l
    · obtain ⟨n, hn⟩ := happ
      exact (call_unreading hn).always fun _ _ ho _ => ho
    · exact Prog.always_of_forall fun _ _ hno => absurd hno happ
  have hpool : Machine.PoolAlways (fun l o _ => (∃ n, hasRole (.app n) l) → Unreading o) c :=
    hreach.invariant (fun _ _ _ hx _ hs => Machine.poolAlways_step hbody hx hs) fun t th hth => by
      cases hth
  cases t with
  | rx h => cases ht
  | app n =>
      have hquiet : Unreading o := (hpool _ _ hth).1 ⟨n, (stateLock_holds hreach).roles _ _ hth⟩
      cases o with
      | stateCallback status => exact ⟨status, List.mem_singleton.mp hcb⟩
      | readChannelMsg ch => exact absurd rfl (hquiet ch)
      | _ => cases hcb

def chardevBackEnd (b : Build) (stateCallback rxCallback : Bool) :
    BackEnd Op Op.Res Label Shared Env where
  machine := machine b
  init := .init stateCallback rxCallback
  callbacks := chardevCallbacks b
  logged := chardevLogged
  logged_init := rfl
  logged_effect := chardevLogged_effect
  fits := chardevCallbacks_fit

end chardev
end AntHal

namespace AntHal.Bluez
open Concurrency Jni

variable {b : Build} {stateCallback rxCallback : Bool}

def callbacks : Env → Op → Shared → List Callback
  | _, .stateCallback status, _ => [.antStateChange status]
  | _, .rxCallback payload, _ => [.antRxMessage payload]
  | _, _, _ => []

def eventCallbacks : Event → List Callback
  | .stateCallback status => [.antStateChange status]
  | .rxCallback payload => [.antRxMessage payload]
  | _ => []

def logged (s : Shared) : List Callback := s.events.flatMap eventCallbacks

theorem logged_log (s : Shared) (e : Event) : logged (s.log e) = logged s ++ eventCallbacks e := by
  simp [logged, Shared.log]

theorem logged_effect (t : Tid) (env : Env) (o : Op) (s : Shared) :
    logged (effect t env o s).2 = logged s ++ callbacks env o s := by
  cases o with
  | mutexLock | mutexTrylock | pthreadCreate | read | writev =>
      simp only [effect]
      repeat' split
      all_goals first | exact (List.append_nil _).symm | exact logged_log _ _
  | _ => first | exact (List.append_nil _).symm | exact logged_log _ _

/-- No message is passed on. -/
def NoMessage (o : Op) : Prop := ∀ payload, o ≠ .rxCallback payload

theorem noMessage_of_call {o : Op} (h : IsCall o) : NoMessage o := by
  intro payload heq
  subst heq
  cases h

theorem noMessage_of_transmit {o : Op} (h : IsTransmit o) : NoMessage o := by
  intro payload heq
  subst heq
  cases h

theorem beginSending_noMessage (pucMesg : List UInt8) (status : RadioStatus) :
    (beginSending pucMesg status).Only NoMessage fun _ => True := by
  have hopen : antOpenTxTransport.Only NoMessage fun _ => True := by
    simp [antOpenTxTransport, NoMessage]
  refine Prog.only_ite.mpr ⟨fun _ => by simp [NoMessage], fun _ => hopen.bind fun txSocket _ => ?_⟩
  simp [NoMessage]

/-- Only the receive thread passes messages on. -/
theorem call_noMessage {l : Label} (hl : l.isRx = false) :
    (body b l).Only NoMessage fun _ => True := by
  have hcalls {α : Type} {p : Cmd α} (h : Calls p) : p.Only NoMessage fun _ => True :=
    h.mono (fun _ => noMessage_of_call) fun _ h => h
  have htransmits {α : Type} {p : Cmd α} (h : Transmits p) : p.Only NoMessage fun _ => True :=
    h.mono (fun _ => noMessage_of_transmit) fun _ h => h
  cases l with
  | enableRadio => exact (hcalls antEnableRadio_calls).bind fun _ _ => trivial
  | disableRadio => exact (hcalls antDisableRadio_calls).bind fun _ _ => trivial
  | radioEnabledStatus =>
      exact (hcalls antRadioEnabledStatus_queries.controls.calls).bind fun _ _ => trivial
  | txMessage pucMesg =>
      simp only [body, antTxMessage, Prog.op_bind, Prog.ret_bind, Prog.pure_eq, Prog.only_op,
        Prog.only_ite]
      exact ⟨fun _ => Op.noConfusion, fun _ => ⟨fun _ => Op.noConfusion, fun _ => ⟨fun _ =>
        by simp [NoMessage], fun _ => (hcalls getAndSetRadioStatus_queries.controls.calls).bind
          fun status _ => beginSending_noMessage pucMesg status⟩⟩⟩
  | txWrite tx => exact htransmits (txWrite_transmits tx)
  | txWait tx => exact htransmits (txWait_transmits tx)
  | txRead tx => exact htransmits (txRead_transmits tx)
  | txClose tx => exact htransmits (txClose_transmits tx)
  | rxStart | rxLoop | rxPoll | rxRead | rxClose => cases hl

theorem callbacks_fit {c : ThreadConfig}
    (hreach : (machine b).Reachable (initConfig stateCallback rxCallback) c) {t : Tid}
    {l : Label} {o : Op} {k : o.Res → Cmd (Option Label)} (hth : c.pool t = some ⟨l, .op o k⟩)
    (env : Env) : ∀ cb ∈ callbacks env o c.shared, cb.FitsThread t.isApp := by
  intro cb hcb ht
  have hbody (l : Label) : ((machine b).body l).Always fun o _ => l.isRx = false → NoMessage o := by
    cases hl : l.isRx with
    | false => exact (call_noMessage hl).always fun _ _ ho _ => ho
    | true => exact Prog.always_of_forall fun _ _ hno => Bool.noConfusion hno
  have hpool : Machine.PoolAlways (fun l o _ => l.isRx = false → NoMessage o) c :=
    hreach.invariant (fun _ _ _ hx _ hs => Machine.poolAlways_step hbody hx hs) fun t th hth => by
      cases hth
  cases t with
  | rx h => cases ht
  | app n =>
      have hquiet : NoMessage o := (hpool _ _ hth).1 ((enableLock_holds hreach).roles _ _ hth)
      cases o with
      | stateCallback status => exact ⟨status, List.mem_singleton.mp hcb⟩
      | rxCallback payload => exact absurd rfl (hquiet payload)
      | _ => cases hcb

def backEnd (b : Build) (stateCallback rxCallback : Bool) :
    BackEnd Op Op.Res Label Shared Env where
  machine := machine b
  init := .init stateCallback rxCallback
  callbacks := callbacks
  logged := logged
  logged_init := rfl
  logged_effect := logged_effect
  fits := callbacks_fit

end AntHal.Bluez

namespace AntHal.Jni
open Concurrency

section runs
variable {Op : Type} {Res : Op → Type} {Label σ Env : Type}

/-- In every run each thread keeps the rules of JNI, and is left behind a callback as
it was before. -/
def BackEnd.KeepsRules (B : BackEnd Op Res Label σ Env) (vm : Vm) : Prop :=
  ∀ c, B.bridged.Reachable (B.bridgedInit vm) c → ∀ t, (c.shared.vms t).Ready t.isApp

/-- What Java has heard in a run. -/
structure Relayed (B : BackEnd Op Res Label σ Env) (s : Bridged σ) : Prop where
  /-- What the back end has on record has been passed, in its order. -/
  passed : B.logged s.backEnd = s.passed.map Passed.callback
  /-- From each thread Java hears what the VM lets through, in its order. -/
  heard : ∀ t, (s.vms t).heard = heardOf t.isApp (passedOn t s.passed)
  /-- A VM that refuses nothing lets everything through. -/
  whole : ∀ t, (∀ p ∈ passedOn t s.passed, p.2.passesOn t.isApp p.1 = true) →
    (s.vms t).heard = (passedOn t s.passed).map Prod.fst

def BackEnd.Relays (B : BackEnd Op Res Label σ Env) (vm : Vm) : Prop :=
  ∀ c, B.bridged.Reachable (B.bridgedInit vm) c → Relayed B c.shared

variable {B : BackEnd Op Res Label σ Env} {vm : Vm}

theorem heardOf_whole {java : Bool} {ps : List (Callback × VmEnv)}
    (h : ∀ p ∈ ps, p.2.passesOn java p.1 = true) : heardOf java ps = ps.map Prod.fst := by
  induction ps with
  | nil => rfl
  | cons p ps ih =>
      obtain ⟨hp, hrest⟩ := List.forall_mem_cons.mp h
      rw [heardOf, List.flatMap_cons, VmEnv.said, if_pos hp, List.map_cons, ← ih hrest]
      rfl

theorem BackEnd.keepsRules (hvm : vm.FromOnLoad) : B.KeepsRules vm :=
  fun _ hreach => (BackEnd.holds_reachable hvm hreach).ready

theorem BackEnd.relays (hvm : vm.FromOnLoad) : B.Relays vm := by
  intro c hreach
  have h := BackEnd.holds_reachable hvm hreach
  exact ⟨h.logged, h.heard, fun t hall => (h.heard t).trans (heardOf_whole hall)⟩

end runs

section linked
variable {vm : Vm}

/-- With either back end the callbacks keep the rules of JNI, whatever the VM refuses
and whichever method of Java throws. -/
theorem callbacks_keep_rules (hvm : vm.FromOnLoad) :
    (∀ b stateCallback rxCallback, (chardevBackEnd b stateCallback rxCallback).KeepsRules vm) ∧
      ∀ b stateCallback rxCallback, (Bluez.backEnd b stateCallback rxCallback).KeepsRules vm :=
  ⟨fun _ _ _ => BackEnd.keepsRules hvm, fun _ _ _ => BackEnd.keepsRules hvm⟩

/-- With either back end Java hears what the VM lets through, and nothing else. -/
theorem callbacks_relayed (hvm : vm.FromOnLoad) :
    (∀ b stateCallback rxCallback, (chardevBackEnd b stateCallback rxCallback).Relays vm) ∧
      ∀ b stateCallback rxCallback, (Bluez.backEnd b stateCallback rxCallback).Relays vm :=
  ⟨fun _ _ _ => BackEnd.relays hvm, fun _ _ _ => BackEnd.relays hvm⟩

/-- The moves of a run, with a VM that answers each callback in the same way. -/
def answeredBy {Label Env : Type} (answers : VmEnv) :
    Move Label Tid Env → Move Label Tid (BridgedEnv Env)
  | .start t l => .start t l
  | .act t env => .act t ⟨env, fun _ => answers⟩

/-- The radio is enabled, and some bytes are read. -/
def reading (answers : VmEnv) (bytes : List UInt8) :
    List (Move AntHal.Label Tid (BridgedEnv AntHal.Env)) :=
  (enabling ++ firstRead 1 bytes).map (answeredBy answers)

def loadedVm : Vm := (jniOnLoad.run (exec {}) (.unloaded true)).2

theorem loadedVm_fromOnLoad : loadedVm.FromOnLoad := ⟨{}, true, rfl, rfl⟩

theorem callbacks_keep_rules_reading :
    ∃ s : Bridged Shared, (s.vms (.rx 1)).heard = [.antRxMessage [170]] ∧
      ∀ t, (s.vms t).Ready t.isApp := by
  obtain ⟨c, hpath, hc⟩ := Machine.exec_any (chardevBackEnd .smd true true).bridged
    (fun _ _ => true) (reading { callStaticVoidMethod := false } [1, 170])
    ((chardevBackEnd .smd true true).bridgedInit loadedVm)
    (fun c => (c.shared.vms (.rx 1)).heard = [.antRxMessage [170]]) (by decide +kernel)
  exact ⟨c.shared, of_decide_eq_true hc,
    (callbacks_keep_rules loadedVm_fromOnLoad).1 .smd true true c hpath.reachable⟩

/-- A VM without memory for the array. -/
theorem callbacks_relayed_reading :
    ∃ s : Bridged Shared, (s.vms (.rx 1)).heard = [] ∧ (s.vms (.app 0)).heard ≠ [] ∧
      Relayed (chardevBackEnd .smd true true) s := by
  obtain ⟨c, hpath, hc⟩ := Machine.exec_any (chardevBackEnd .smd true true).bridged
    (fun _ _ => true) (reading { newByteArray := false } [1, 170])
    ((chardevBackEnd .smd true true).bridgedInit loadedVm)
    (fun c => decide ((c.shared.vms (.rx 1)).heard = []) &&
      decide ((c.shared.vms (.app 0)).heard ≠ [])) (by decide +kernel)
  rw [Bool.and_eq_true, decide_eq_true_eq, decide_eq_true_eq] at hc
  exact ⟨c.shared, hc.1, hc.2,
    (callbacks_relayed loadedVm_fromOnLoad).1 .smd true true c hpath.reachable⟩

end linked
end AntHal.Jni

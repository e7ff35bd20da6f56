import AntHal.Resource.Ledger
import AntHal.Chardev.LockInvariant

/-!
The vendor library of bt-vendor_vfs: initialised and powered by an open channel.

`init_transport_bdroid` takes back what it has done only when a channel that is
open is closed. The log of its calls is a ledger that is balanced as long as the
library does not fail behind its initialisation.
-/

namespace AntHal

open Concurrency

/-- What the vendor library can be left with. -/
inductive VendorHold where
  | initialised
  | powered
  deriving DecidableEq

/-- What the log says about it; a power-off is a request, whatever it answers. -/
def Event.vendorHold? : Event → Option (Ledger.Entry VendorHold)
  | .vendorInit => some (.acquire .initialised)
  | .vendorCleanup => some (.release .initialised)
  | .vendorPower true ret => if 0 ≤ ret then some (.acquire .powered) else none
  | .vendorPower false _ => some (.release .powered)
  | _ => none

theorem vendorHold_powerOn {ret : Int} (h : 0 ≤ ret) :
    (Event.vendorPower true ret).vendorHold? = some (.acquire .powered) := if_pos h

def Shared.vendorEntries (s : Shared) : List (Ledger.Entry VendorHold) :=
  s.events.filterMap Event.vendorHold?

/-- The single channel, vendor_interface, and the log. -/
structure Vendor where
  iFd : Int
  vendorInterface : Bool
  entries : List (Ledger.Entry VendorHold)

def Shared.vendor (s : Shared) : Vendor := ⟨s.iFd .single, s.vendorInterface, s.vendorEntries⟩

def Vendor.enter (p : Vendor) (e : Ledger.Entry VendorHold) : Vendor :=
  { p with entries := p.entries ++ [e] }

theorem Shared.vendor_log (s : Shared) {e : Event} (h : e.vendorHold? = none) :
    (s.log e).vendor = s.vendor := by
  simp [vendor, vendorEntries, log, h, iFd]

theorem Shared.vendor_enter (s : Shared) {e : Event} {entry : Ledger.Entry VendorHold}
    (h : e.vendorHold? = some entry) : (s.log e).vendor = s.vendor.enter entry := by
  simp [vendor, Vendor.enter, vendorEntries, log, h, iFd]

/-- The answers of the library behind its initialisation: the chip is switched, and
there is a descriptor, which is not the -1 of a closed channel. -/
def vendorWorks (env : Env) : Op → Bool
  | .powerCtrl true => decide (0 ≤ env.powerCtrlOn)
  | .powerCtrl false => decide (0 ≤ env.powerCtrlOff)
  | .userialOpen => decide (env.userialOpen = 1 ∧ env.userialFd ≠ -1)
  | _ => true

/-- What an operation answers about the library, and does to it. -/
def vendorReact : (o : Op) → Vendor → o.Res → Vendor → Prop
  | .getFd .single, p, r, p' => r = p.iFd ∧ p' = p
  | .setFd .single fd, p, _, p' => p' = { p with iFd := fd }
  | .dlsym, p, r, p' => p' = { p with vendorInterface := r }
  | .getVendorInterface, p, r, p' => r = p.vendorInterface ∧ p' = p
  | .clearVendorInterface, p, _, p' => p' = { p with vendorInterface := false }
  | .vendorInit, p, _, p' => p' = p.enter (.acquire .initialised)
  | .vendorCleanup, p, _, p' => p' = p.enter (.release .initialised)
  | .powerCtrl true, p, r, p' => 0 ≤ r ∧ p' = p.enter (.acquire .powered)
  | .powerCtrl false, p, r, p' => 0 ≤ r ∧ p' = p.enter (.release .powered)
  | .userialOpen, p, r, p' => r.1 = 1 ∧ r.2 ≠ -1 ∧ p' = p
  | _, p, _, p' => p' = p

/-- A plain operation reacts as stated, and leaves the lock. -/
theorem vendor_plain (b : Build) (t : Tid) (env : Env) (s : Shared) {o : Op}
    (hact : lockAct o = .plain) (hworks : vendorWorks env o = true) :
    (effect b t env o s).2.stEnabledStatusLock = s.stEnabledStatusLock ∧
      vendorReact o s.vendor (effect b t env o s).1 (effect b t env o s).2.vendor := by
  cases o <;> simp only [lockAct, reduceCtorEq] at hact
  case getFd ch => cases ch <;> exact ⟨rfl, by simp [vendorReact, effect, Shared.vendor]⟩
  case setFd ch fd =>
    refine ⟨rfl, ?_⟩
    have hfd := congrArg (Vendor.mk · s.vendorInterface s.vendorEntries)
      (congrFun (s.setFd_iFd ch fd) .single)
    cases ch with
    | single => exact hfd.trans (congrArg (Vendor.mk · _ _) (Function.update_self _ _ _))
    | data | command => exact hfd
  case powerCtrl on =>
    refine ⟨rfl, ?_⟩
    cases on with
    | true =>
        have hon : 0 ≤ env.powerCtrlOn := of_decide_eq_true hworks
        exact ⟨hon, Shared.vendor_enter s (vendorHold_powerOn hon)⟩
    | false => exact ⟨of_decide_eq_true hworks, Shared.vendor_enter s rfl⟩
  case vendorInit | vendorCleanup => exact ⟨rfl, Shared.vendor_enter s rfl⟩
  case userialOpen =>
    have hfd : env.userialOpen = 1 ∧ env.userialFd ≠ -1 := of_decide_eq_true hworks
    exact ⟨rfl, hfd.1, hfd.2, rfl⟩
  case openDevice | eventfdWrite | keepAliveCreate | pthreadCreate =>
    simp only [effect]
    split
    · exact ⟨rfl, Shared.vendor_log _ rfl⟩
    · exact ⟨rfl, rfl⟩
  case readChannelMsg ch =>
    refine ⟨rfl, ?_⟩
    have hfd : (effect b t env (.readChannelMsg ch) s).2.iFd .single = s.iFd .single :=
      congrFun (readChannelMsg_iFd ch s) .single
    simp only [vendorReact]
    rw [Shared.vendor, hfd]
    simp [effect, Shared.vendor, Shared.vendorEntries, Shared.log, Event.vendorHold?]
  case funcStart | funcEnd | stateCallback | closeDevice | pthreadJoin | pthreadDetach =>
    exact ⟨rfl, Shared.vendor_log _ rfl⟩
  all_goals
    first
      | exact ⟨rfl, rfl⟩
      | exact ⟨rfl, rfl, rfl⟩

/-- The log is balanced, and nothing is done twice in it. -/
def Vendor.Sound (p : Vendor) : Prop :=
  Ledger.Fresh p.entries ∧ ∃ values, Ledger.out p.entries = some values

/-- A point on the way of a channel from closed to open and back. -/
structure Vendor.At (iFd : Int) (vendorInterface : Bool) (values : Multiset VendorHold)
    (p : Vendor) : Prop where
  iFd_eq : p.iFd = iFd
  vendorInterface_eq : p.vendorInterface = vendorInterface
  fresh : Ledger.Fresh p.entries
  out_eq : Ledger.out p.entries = some values

def Vendor.Closed : Vendor → Prop := Vendor.At (-1) false 0

/-- The library is initialised and powered. -/
def Vendor.Opened (iFd : Int) : Vendor → Prop := Vendor.At iFd true {.powered, .initialised}

/-- While the lock is free, the library is in use exactly for an open channel. -/
def Vendor.Balanced (p : Vendor) : Prop := p.Closed ∨ p.iFd ≠ -1 ∧ p.Opened p.iFd

namespace Vendor

variable {p : Vendor} {iFd : Int} {vendorInterface : Bool} {values : Multiset VendorHold}
  {hold : VendorHold}

theorem At.sound (h : p.At iFd vendorInterface values) : p.Sound := ⟨h.fresh, values, h.out_eq⟩

theorem Balanced.sound (h : p.Balanced) : p.Sound := by
  obtain h | ⟨-, h⟩ := h <;> exact h.sound

theorem At.acquire (h : p.At iFd vendorInterface values) (hnone : hold ∉ values) :
    (p.enter (.acquire hold)).At iFd vendorInterface (hold ::ₘ values) where
  iFd_eq := h.iFd_eq
  vendorInterface_eq := h.vendorInterface_eq
  fresh := h.fresh.acquire h.out_eq hnone
  out_eq := by rw [enter, Ledger.out_concat, h.out_eq]; rfl

theorem At.release (h : p.At iFd vendorInterface (hold ::ₘ values)) :
    (p.enter (.release hold)).At iFd vendorInterface values where
  iFd_eq := h.iFd_eq
  vendorInterface_eq := h.vendorInterface_eq
  fresh := h.fresh.release hold
  out_eq := by
    rw [enter, Ledger.out_concat, h.out_eq, Option.bind_some, Ledger.enter,
      if_pos (Multiset.mem_cons_self _ _), Multiset.erase_cons_head]

theorem At.load (h : p.At iFd vendorInterface values) (v : Bool) :
    { p with vendorInterface := v }.At iFd v values :=
  ⟨h.iFd_eq, rfl, h.fresh, h.out_eq⟩

theorem At.setFd (h : p.At iFd vendorInterface values) (fd : Int) :
    { p with iFd := fd }.At fd vendorInterface values :=
  ⟨rfl, h.vendorInterface_eq, h.fresh, h.out_eq⟩

end Vendor

/-- The lock under which the library is used, in the runs in which it works. -/
def vendorLock (b : Build) : Monitor (machine b) Vendor where
  owner := Shared.stEnabledStatusLock
  guarded := Shared.vendor
  inv := Vendor.Balanced
  rely p p' := p' = p
  rely_refl _ := rfl
  rely_trans h h' := h'.trans h
  inv_rely h hs := (congrArg Vendor.Balanced hs).mpr h
  lockAct := lockAct
  lockAnswer := lockAnswer
  react _ := vendorReact
  check _ _ := Vendor.Sound
  allow _ env o _ := vendorWorks env o = true
  role := hasRole
  role_entry := @hasRole_entry b
  role_spawn := @hasRole_spawn b
  lock_spec _ _ _ _ _ hact hready _ := lock_effect (fun _ _ => rfl) b hact hready
  unlock_spec _ _ _ _ hact := unlock_effect (fun _ _ => rfl) b hact
  plain_spec t env s _ hact hworks :=
    (vendor_plain b t env s hact hworks).imp_right fun hreact _ _ => hreact

section programs
variable {b : Build} {t : Tid}

/-- What is neither a lock call nor done to the channel or the library. -/
def leavesVendor (o : Op) : Bool :=
  decide (lockAct o = .plain) && !vendorOp o &&
    match o with
    | .setFd _ _ => false
    | _ => true

theorem leavesVendor_of_lifecycle {o : Op} (h : lifecycleOp o = true) :
    leavesVendor o = true := by
  cases o <;> first | rfl | cases h

theorem leavesVendor_plain {o : Op} (ho : leavesVendor o = true) :
    lockAct o = .plain ∧ ∀ p r p', vendorReact o p r p' → p' = p := by
  cases o with
  | getFd ch => cases ch <;> first | exact ⟨rfl, fun _ _ _ h => h.2⟩ | exact ⟨rfl, fun _ _ _ h => h⟩
  | mutexLock | mutexTrylock | mutexUnlock | setFd | dlopen | dlsym | getVendorInterface
  | clearVendorInterface | vendorInit | powerCtrl | userialOpen | userialClose | vendorCleanup =>
      cases ho
  | _ => exact ⟨rfl, fun _ _ _ h => h⟩

theorem vendor_stable (I : Vendor → Prop) : (vendorLock b).Stable I :=
  Monitor.Exact.stable (fun _ _ hs => hs) I

theorem vendor_harmlessIn {o : Op} (ho : leavesVendor o = true) :
    (vendorLock b).HarmlessIn t o := by
  obtain ⟨hact, hreact⟩ := leavesVendor_plain ho
  exact Monitor.harmlessIn_of_eq hact (fun _ hp => hp.sound) hreact

/-- One step on the way: it is taken from `v` and `values`, and leads where it reacts to. -/
theorem vendor_step {α : Type} {o : Op} {k : o.Res → Cmd α} {iFd : Int} {v : Bool}
    {values : Multiset VendorHold} {K : o.Res → Vendor → Prop} {J : α → Vendor → Prop}
    (hact : lockAct o = .plain)
    (ho : ∀ p r p', p.At iFd v values → vendorReact o p r p' → K r p')
    (hk : ∀ r, (vendorLock b).Triple t (K r) (k r) J) :
    (vendorLock b).Triple t (Vendor.At iFd v values) (.op o k) J :=
  .op (vendor_stable _) hact (fun p hp => ⟨hp.sound, fun r p' hr => ho p r p' hp hr⟩) hk

/-- Without a failure behind the initialisation, the library is in use if and
only if there is a descriptor. -/
theorem triple_initTransportOn :
    (vendorLock b).Triple t Vendor.Closed initTransportOn fun fd p =>
      fd = -1 ∧ p.Closed ∨ fd ≠ -1 ∧ p.Opened (-1) := by
  simp only [initTransportOn, Prog.op_bind, Prog.ret_bind, Prog.pure_eq]
  refine vendor_step (K := fun _ => Vendor.Closed) rfl ?_ fun handle => .ite
    (fun _ => .ret (vendor_stable _) fun p hp => .inl ⟨rfl, hp⟩) fun _ => ?_
  · rintro p r _ hp rfl
    exact hp
  refine vendor_step (K := fun r => Vendor.At (-1) r 0) rfl ?_ fun found => .ite
    (fun hnot => .ret (vendor_stable _) fun p hp => .inl ⟨rfl, ?_⟩) fun hfound => ?_
  · rintro p r _ hp rfl
    exact hp.load r
  · obtain rfl : found = false := by simpa using hnot
    exact hp
  obtain rfl : found = true := by simpa using hfound
  refine vendor_step (K := fun _ => Vendor.At (-1) true {.initialised}) rfl ?_ fun _ =>
    vendor_step (K := fun r p => 0 ≤ r ∧ p.Opened (-1)) rfl ?_ fun power => .ite
      (fun hneg => ?_) fun _ => ?_
  · rintro p r _ hp rfl
    exact hp.acquire (Multiset.notMem_zero _)
  · rintro p r _ hp ⟨hpower, rfl⟩
    exact ⟨hpower, hp.acquire (by decide)⟩
  · exact .ret (vendor_stable _) fun p hp => absurd hp.1 (Int.not_le.mpr hneg)
  refine .op (K := fun r p => r.1 = 1 ∧ r.2 ≠ -1 ∧ p.Opened (-1)) (vendor_stable _) rfl
    (fun p hp => ⟨hp.2.sound, ?_⟩) fun r => .ite (fun hret => ?_) fun _ => ?_
  · rintro r _ ⟨hret, hfd, rfl⟩
    exact ⟨hret, hfd, hp.2⟩
  · exact .ret (vendor_stable _) fun p hp => absurd hp.1 hret
  · exact .ret (vendor_stable _) fun p hp => .inr hp.2

theorem triple_initTransportOff (fd : Int) :
    (vendorLock b).Triple t (Vendor.Opened fd) initTransportOff fun _ => Vendor.At fd false 0 := by
  simp only [initTransportOff, Prog.op_bind, Prog.ret_bind, Prog.pure_eq]
  refine vendor_step (K := fun loaded p => loaded = true ∧ p.Opened fd) rfl ?_ fun loaded => .ite
    (fun hnot => ?_) fun _ => ?_
  · rintro p r _ hp ⟨rfl, rfl⟩
    exact ⟨hp.vendorInterface_eq, hp⟩
  · exact .ret (vendor_stable _) fun p hp => absurd hp.1 (by simpa using hnot)
  refine .op (K := fun _ => Vendor.Opened fd) (vendor_stable _) rfl
    (fun p hp => ⟨hp.2.sound, ?_⟩) fun _ =>
    vendor_step (K := fun r p => 0 ≤ r ∧ p.At fd true {.initialised}) rfl ?_ fun power => .ite
      (fun hneg => ?_) fun _ => ?_
  · rintro r _ rfl
    exact hp.2
  · rintro p r _ hp ⟨hpower, rfl⟩
    exact ⟨hpower, hp.release⟩
  · exact .ret (vendor_stable _) fun p hp => absurd hp.1 (Int.not_le.mpr hneg)
  refine .op (K := fun _ => Vendor.At fd true 0) (vendor_stable _) rfl
    (fun p hp => ⟨hp.2.sound, ?_⟩) fun _ =>
    vendor_step (K := fun _ => Vendor.At fd false 0) rfl ?_ fun _ =>
      .ret (vendor_stable _) fun p hp => hp
  · rintro r _ rfl
    exact hp.2.release
  · rintro p r _ hp rfl
    exact hp.load false

theorem vendor_antEnableChannel (hb : b.backend = .btVendor) :
    (vendorLock b).Inside t (antEnableChannel b .single) := by
  simp only [antEnableChannel, openTransport, hb, Prog.op_bind, Prog.ret_bind, Prog.pure_eq]
  refine Monitor.Triple.op (K := fun r p => p.Balanced ∧ r = p.iFd)
    (vendor_stable _) rfl (fun p hp => ⟨hp.sound, ?_⟩)
    fun iFd => .ite (fun hclosed => ?_) fun _ => .ret (vendor_stable _) fun p hp => hp.1
  · rintro r q ⟨rfl, rfl⟩
    exact ⟨hp, rfl⟩
  · subst hclosed
    refine .bind (triple_initTransportOn.mono (fun p hp => ?_) fun _ _ hp => hp) fun fd =>
      .op (K := fun _ => Vendor.Balanced) (vendor_stable _) rfl (fun p hp => ⟨?_, ?_⟩) fun _ =>
      Monitor.Inside.op (vendor_harmlessIn rfl) fun iFd => .ite
        (fun _ => Monitor.Inside.ret _) fun _ => Monitor.Inside.ret _
    · obtain ⟨hp | ⟨hopen, -⟩, hfd⟩ := hp
      · exact hp
      · exact absurd hfd.symm hopen
    · obtain ⟨-, hp⟩ | ⟨-, hp⟩ := hp <;> exact hp.sound
    · rintro r _ rfl
      obtain ⟨rfl, hp⟩ | ⟨hfd, hp⟩ := hp
      · exact .inl (hp.setFd _)
      · exact .inr ⟨hfd, hp.setFd fd⟩

theorem vendor_antDisableChannel (hb : b.backend = .btVendor) :
    (vendorLock b).Inside t (antDisableChannel b .single) := by
  simp only [antDisableChannel, closeTransport, hb, Prog.op_bind, Prog.ret_bind, Prog.pure_eq]
  refine Monitor.Triple.op (K := fun r p => p.Balanced ∧ r = p.iFd)
    (vendor_stable _) rfl (fun p hp => ⟨hp.sound, ?_⟩)
    fun iFd => .ite (fun hopen => ?_) fun _ => .ret (vendor_stable _) fun p hp => hp.1
  · rintro r q ⟨rfl, rfl⟩
    exact ⟨hp, rfl⟩
  · refine .bind ((triple_initTransportOff iFd).mono (fun p hp => ?_) fun _ _ hp => hp) fun _ =>
      .op (K := fun _ => Vendor.Balanced) (vendor_stable _) rfl (fun p hp => ⟨hp.sound, ?_⟩)
        fun _ => Monitor.Inside.ret _
    · obtain ⟨hp | ⟨-, hp⟩, rfl⟩ := hp
      · exact absurd hp.iFd_eq hopen
      · exact hp
    · rintro r _ rfl
      exact .inl (hp.setFd _)

theorem vendor_antDisable (hb : b.backend = .btVendor) (hname : b.antDeviceName = true) :
    (vendorLock b).Inside t (antDisable b) := by
  refine inside_antDisable (fun o ho => vendor_harmlessIn (leavesVendor_of_lifecycle ho)) ?_
  rw [Build.channels, if_pos hname, List.forall_mem_singleton]
  exact vendor_antDisableChannel hb

/-- All that is done with the library is done for the single channel. -/
theorem vendor_upheld (hb : b.backend = .btVendor) (hname : b.antDeviceName = true) :
    Upheld (vendorLock b) where
  owner_eq := rfl
  lockAct_eq := rfl
  lockAnswer_eq := rfl
  role_eq := rfl
  outer o ho := by
    refine leavesVendor_plain (ho.elim
      (fun hpassive => leavesVendor_of_lifecycle (lifecycle_of_passive hpassive)) fun hkeep => ?_)
    cases o <;> first | rfl | cases hkeep
  inner _ _ ho := vendor_harmlessIn (leavesVendor_of_lifecycle (lifecycle_of_passive ho))
  unlock _ _ hp := hp.sound
  enable _ := by
    refine inside_antEnable (fun o ho => vendor_harmlessIn (leavesVendor_of_lifecycle ho)) ?_
    rw [Build.channels, if_pos hname, List.forall_mem_singleton]
    exact vendor_antEnableChannel hb
  disable _ := vendor_antDisable hb hname
  stop _ _ hprog :=
    inside_stop (vendor_harmlessIn rfl)
      (fun _ ho => vendor_harmlessIn (leavesVendor_of_lifecycle (lifecycle_of_passive ho)))
      (vendor_antDisable hb hname) hprog

/-- A step in which the library does not fail behind its initialisation. -/
def vendorKept (c : ThreadConfig) : Move Label Tid Env → Bool
  | .start _ _ => true
  | .act t env => ((c.pool t).bind Thread.head?).all (vendorWorks env)

theorem vendorLock_allowed {c : ThreadConfig} {mv : Move Label Tid Env}
    (h : vendorKept c mv = true) : (vendorLock b).Allowed c mv := by
  cases mv with
  | start t l => trivial
  | act t env =>
      intro o ho
      rw [vendorKept, ho] at h
      exact h

variable {stateCallback rxCallback : Bool} {c : ThreadConfig}

theorem vendor_init : (Shared.init stateCallback rxCallback).vendor.Balanced :=
  .inl ⟨rfl, rfl, Ledger.fresh_nil, rfl⟩

/-- In every state the log is balanced; while the lock is free, the library is
in use exactly for an open channel. -/
theorem vendor_holds (hb : b.backend = .btVendor) (hname : b.antDeviceName = true)
    (h : (machine b).Path (vendorKept · · = true) (initConfig stateCallback rxCallback) c) :
    c.shared.vendor.Sound ∧
      (c.shared.stEnabledStatusLock = none → c.shared.vendor.Balanced) := by
  have hupheld := vendor_upheld hb hname
  have hholds := Monitor.holds_path hupheld.checked (fun _ _ => vendorLock_allowed)
    (hupheld.start vendor_init) h
  refine ⟨?_, hholds.free⟩
  cases howner : (vendorLock b).owner c.shared with
  | none => exact (hholds.free howner).sound
  | some t =>
      obtain ⟨_, _, _, -, hsound⟩ := hholds.checked howner
      exact hsound

/-- Only the two calls have an entry about the initialisation. -/
theorem vendorCleanup_mem {events : List Event}
    (h : .release .initialised ∈ events.filterMap Event.vendorHold?) :
    .vendorCleanup ∈ events := by
  obtain ⟨e, he, hentry⟩ := List.mem_filterMap.mp h
  cases e with
  | vendorCleanup => exact he
  | vendorPower on ret =>
      cases on with
      | true =>
          simp only [Event.vendorHold?] at hentry
          split at hentry <;> cases hentry
      | false => cases hentry
  | _ => cases hentry

theorem vendorPower_off_mem {events : List Event}
    (h : .release .powered ∈ events.filterMap Event.vendorHold?) :
    ∃ ret, .vendorPower false ret ∈ events := by
  obtain ⟨e, he, hentry⟩ := List.mem_filterMap.mp h
  cases e with
  | vendorPower on ret =>
      cases on with
      | true =>
          simp only [Event.vendorHold?] at hentry
          split at hentry <;> cases hentry
      | false => exact ⟨ret, he⟩
  | _ => cases hentry

/-- The library is never initialised twice without a clean-up in between; and
while the lock is free and the channel is closed, vendor_interface is NULL,
every initialisation has been cleaned up, and behind every successful power-on
there is a request to power off. -/
structure VendorBalanced (s : Shared) : Prop where
  cleaned_between : ∀ l₁ l₂ l₃, s.events = l₁ ++ .vendorInit :: l₂ ++ .vendorInit :: l₃ →
    .vendorCleanup ∈ l₂
  unloaded : s.stEnabledStatusLock = none → s.iFd .single = -1 → s.vendorInterface = false
  cleaned : s.stEnabledStatusLock = none → s.iFd .single = -1 →
    ∀ l₁ l₂, s.events = l₁ ++ .vendorInit :: l₂ → .vendorCleanup ∈ l₂
  powered_off : s.stEnabledStatusLock = none → s.iFd .single = -1 →
    ∀ l₁ l₂ ret, 0 ≤ ret → s.events = l₁ ++ .vendorPower true ret :: l₂ →
      ∃ ret', .vendorPower false ret' ∈ l₂

/-- Vendor power and interface are balanced in every run in which the library
does not fail behind its initialisation. -/
theorem vendor_balanced (hb : b.backend = .btVendor) (hname : b.antDeviceName = true)
    (h : (machine b).Path (vendorKept · · = true) (initConfig stateCallback rxCallback) c) :
    VendorBalanced c.shared := by
  obtain ⟨⟨hfresh, values, hout⟩, hfree⟩ := vendor_holds hb hname h
  have hclosed (hlock : c.shared.stEnabledStatusLock = none) (hfd : c.shared.iFd .single = -1) :
      c.shared.vendor.Closed :=
    (hfree hlock).resolve_right fun hopen => hopen.1 hfd
  refine ⟨fun l₁ l₂ l₃ hl => ?_, fun hlock hfd => (hclosed hlock hfd).vendorInterface_eq,
    fun hlock hfd l₁ l₂ hl => ?_, fun hlock hfd l₁ l₂ ret hret hl => ?_⟩
  · have hentries : c.shared.vendor.entries =
        l₁.filterMap Event.vendorHold? ++ .acquire .initialised ::
          l₂.filterMap Event.vendorHold? ++ .acquire .initialised ::
            l₃.filterMap Event.vendorHold? := by
      simp [Shared.vendor, Shared.vendorEntries, hl, Event.vendorHold?]
    exact vendorCleanup_mem (hfresh.release_between hentries hout)
  · have hnone : Ledger.out (c.shared.events.filterMap Event.vendorHold?) = some 0 :=
      (hclosed hlock hfd).out_eq
    rw [hl, List.filterMap_append] at hnone
    exact vendorCleanup_mem (Ledger.release_mem hnone (Multiset.notMem_zero _))
  · have hnone : Ledger.out (c.shared.events.filterMap Event.vendorHold?) = some 0 :=
      (hclosed hlock hfd).out_eq
    rw [hl, List.filterMap_append, List.filterMap_cons_some (vendorHold_powerOn hret)] at hnone
    exact vendorPower_off_mem (Ledger.release_mem hnone (Multiset.notMem_zero _))

/-- After an enable and a disable nothing is left. -/
theorem vendor_balanced_disabled :
    ∃ c : ThreadConfig, c.shared.iFd .single = -1 ∧ .vendorInit ∈ c.shared.events ∧
      VendorBalanced c.shared := by
  obtain ⟨c, hpath, hc⟩ := Machine.exec_any (machine .uart) vendorKept
    (.start (.app 0) .enableRadio :: List.replicate 23 (.act (.app 0) {}) ++
      .start (.app 1) .disableRadio :: List.replicate 9 (.act (.app 1) {}) ++
      List.replicate 6 (.act (.rx 1) {}) ++ List.replicate 18 (.act (.app 1) {}))
    (initConfig true true)
    (fun c => c.shared.iFd .single = -1 && decide (.vendorInit ∈ c.shared.events)) (by decide)
  simp only [Bool.and_eq_true, decide_eq_true_eq] at hc
  exact ⟨c, hc.1, hc.2, vendor_balanced rfl rfl hpath⟩

/-- Without a descriptor the library stays initialised and powered. -/
theorem vendor_left_powered :
    ¬ ∀ (b : Build) (stateCallback rxCallback : Bool) (c : ThreadConfig),
      b.backend = .btVendor → b.antDeviceName = true →
        (machine b).Reachable (initConfig stateCallback rxCallback) c →
          VendorBalanced c.shared := by
  intro hall
  obtain ⟨c, hpath, hc⟩ := Machine.exec_any (machine .uart) (fun _ _ => true)
    (.start (.app 0) .enableRadio :: List.replicate 30 (.act (.app 0) { userialOpen := 0 }))
    (initConfig true true)
    (fun c => c.shared.stEnabledStatusLock.isNone && decide (c.shared.iFd .single = -1) &&
      c.shared.vendorInterface) (by decide)
  simp only [Bool.and_eq_true, Option.isNone_iff_eq_none, decide_eq_true_eq] at hc
  obtain ⟨⟨hlock, hfd⟩, hloaded⟩ := hc
  have hunloaded := (hall .uart true true c rfl rfl hpath.reachable).unloaded hlock hfd
  cases hloaded.symm.trans hunloaded

end programs
end AntHal

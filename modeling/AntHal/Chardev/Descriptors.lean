import Mathlib.Algebra.Order.Group.Multiset
import Mathlib.Tactic.Abel
import AntHal.Resource.Ledger
import AntHal.Chardev.Operations

/-!
The device descriptors of the vfs back end.

The log of opens and closes is a ledger. While the state lock is free, what is
out is what the channels hold; and in every state, also in the middle of an
operation, the ledger is balanced: no descriptor is closed that is not open.

From an `ant_disable` that succeeds to the next `ant_enable` every channel is
closed, and whatever was opened has been closed. The clean-up of a crashed
receive thread ends so, and so does an `ant_enable_radio` that fails, unless the
thread that is recorded cannot be told to stop.
-/

namespace AntHal

open Concurrency

/-- What the log says about the device descriptors. -/
def Event.entry? : Event → Option (Ledger.Entry Int)
  | .opened _ fd => some (.acquire fd)
  | .closed _ fd => some (.release fd)
  | _ => none

def Shared.descriptors (s : Shared) : List (Ledger.Entry Int) := s.events.filterMap Event.entry?

theorem Shared.log_descriptors (s : Shared) {e : Event} (h : e.entry? = none) :
    (s.log e).descriptors = s.descriptors := by
  simp [descriptors, log, h]

theorem Shared.log_entry (s : Shared) {e : Event} {entry : Ledger.Entry Int}
    (h : e.entry? = some entry) : (s.log e).descriptors = s.descriptors ++ [entry] := by
  simp [descriptors, log, h]

/-- What an event says about `ant_disable`: what it has returned, or that an
`ant_enable` begins behind it. -/
def Event.disabled? : Event → Option (Option Int)
  | .funcEnd .antDisable (.int iRet) => some (some iRet)
  | .funcStart .antEnable => some none
  | _ => none

/-- What `ant_disable` has returned, if no `ant_enable` has begun since. -/
def Shared.disabled (s : Shared) : Option Int :=
  s.events.foldl (fun v e => e.disabled?.getD v) none

theorem Shared.log_disabled (s : Shared) (e : Event) :
    (s.log e).disabled = e.disabled?.getD s.disabled := by
  simp [disabled, log]

section held

/-- The descriptors that channels hold. -/
def held (chs : List AntChannelType) (iFd : AntChannelType → Int) : Multiset Int :=
  ((chs.map iFd).filter (· ≠ -1) : List Int)

variable {chs : List AntChannelType} {iFd : AntChannelType → Int} {ch : AntChannelType}

theorem held_cons (ch : AntChannelType) (chs : List AntChannelType)
    (iFd : AntChannelType → Int) : held (ch :: chs) iFd = held [ch] iFd + held chs iFd := by
  rw [held, held, held, Multiset.coe_add, ← List.filter_append]
  rfl

theorem held_update_of_notMem (h : ch ∉ chs) (fd : Int) :
    held chs (Function.update iFd ch fd) = held chs iFd := by
  have hsame : ∀ ch' ∈ chs, Function.update iFd ch fd ch' = iFd ch' := by
    intro ch' hch'
    refine Function.update_of_ne ?_ _ _
    rintro rfl
    exact h hch'
  rw [held, held, List.map_congr_left hsame]

/-- A new value of one channel replaces its old one. -/
theorem held_update (iFd : AntChannelType → Int) (hnodup : chs.Nodup) (hch : ch ∈ chs) (fd : Int) :
    held chs (Function.update iFd ch fd) + held [ch] iFd =
      held chs iFd + held [ch] (Function.update iFd ch fd) := by
  induction chs with
  | nil => cases hch
  | cons c chs ih =>
      obtain ⟨hc, hnodup⟩ := List.nodup_cons.mp hnodup
      rw [held_cons c chs, held_cons c chs iFd]
      by_cases heq : c = ch
      · subst heq
        rw [held_update_of_notMem hc]
        abel
      · have hmem : ch ∈ chs := (List.mem_cons.mp hch).resolve_left (Ne.symm heq)
        have hone : held [c] (Function.update iFd ch fd) = held [c] iFd :=
          held_update_of_notMem (by simpa using Ne.symm heq) fd
        rw [hone, add_assoc, ih hnodup hmem, add_assoc]

theorem held_open (hnodup : chs.Nodup) (hch : ch ∈ chs) (hclosed : iFd ch = -1) (fd : Int) :
    held chs (Function.update iFd ch fd) = held chs iFd + held [ch] fun _ => fd := by
  have h := held_update iFd hnodup hch fd
  simpa [held, hclosed] using h

theorem held_close (hnodup : chs.Nodup) (hch : ch ∈ chs) (hopen : iFd ch ≠ -1) :
    iFd ch ∈ held chs iFd ∧
      held chs (Function.update iFd ch (-1)) = (held chs iFd).erase (iFd ch) := by
  have h := held_update iFd hnodup hch (-1)
  have hone : held [ch] iFd = {iFd ch} := by simp [held, hopen]
  have hnone : held [ch] (Function.update iFd ch (-1)) = 0 := by simp [held]
  rw [hone, hnone, add_zero] at h
  rw [← h]
  refine ⟨by simp, ?_⟩
  rw [add_comm, Multiset.singleton_add, Multiset.erase_cons_head]

end held

/-- The descriptors of the channels, those that are open, the recorded thread, and
what `ant_disable` has returned. -/
structure Descriptors where
  iFd : AntChannelType → Int
  out : Option (Multiset Int)
  stRxThread : Nat
  disabled : Option Int

def Shared.books (s : Shared) : Descriptors :=
  ⟨s.iFd, Ledger.out s.descriptors, s.stRxThread, s.disabled⟩

theorem Shared.log_books (s : Shared) {e : Event} (hentry : e.entry? = none)
    (hdisabled : e.disabled? = none) : (s.log e).books = s.books := by
  rw [books, books, log_descriptors s hentry, log_disabled, hdisabled]
  rfl

/-- What an operation answers about the descriptors, and does to them. With `signals`
every shutdown signal can be written. -/
def descriptorsReact (signals : Prop) : (o : Op) → Descriptors → o.Res → Descriptors → Prop
  | .getFd ch, p, r, p' => r = p.iFd ch ∧ p' = p
  | .setFd ch fd, p, _, p' => p' = { p with iFd := Function.update p.iFd ch fd }
  | .openDevice _, p, r, p' =>
    (∃ fd : Nat, r = fd ∧
      p' = { p with out := p.out.bind fun values => Ledger.enter values (.acquire (fd : Int)) }) ∨
    (r = -1 ∧ p' = p)
  | .closeDevice ch, p, _, p' =>
    p' = { p with out := p.out.bind fun values => Ledger.enter values (.release (p.iFd ch)) }
  | .getRxThread, p, r, p' => r = p.stRxThread ∧ p' = p
  | .clearRxThread, p, _, p' => p' = { p with stRxThread := 0 }
  | .pthreadCreate, p, _, p' => ∃ h, p' = { p with stRxThread := h }
  | .eventfdWrite, p, r, p' => (signals → 0 ≤ r) ∧ p' = p
  | .pthreadJoin _, p, r, p' => 0 ≤ r ∧ p' = p
  | .funcStart .antEnable, p, _, p' => p' = { p with disabled := none }
  | .funcEnd .antDisable (.int iRet), p, _, p' => p' = { p with disabled := some iRet }
  | _, p, _, p' => p' = p

section
-- The equations of the table are made here, once, and not in each proof that needs them.
attribute [local simp] descriptorsReact
end

def Descriptors.AllClosed (b : Build) (p : Descriptors) : Prop := ∀ ch ∈ b.channels, p.iFd ch = -1

/-- Exactly the descriptors of the channels are open, and none is from the end of an
`ant_disable` that has succeeded. -/
structure Accounted (b : Build) (p : Descriptors) : Prop where
  out_eq : p.out = some (held b.channels p.iFd)
  closed : p.disabled = some 0 → p.AllClosed b

/-- What holds of the books in the middle of an operation, too. -/
structure Balanced (b : Build) (p : Descriptors) : Prop where
  balanced : p.out.isSome = true
  closed : p.disabled = some 0 → p.AllClosed b ∧ p.out = some 0

theorem held_closed {chs : List AntChannelType} {iFd : AntChannelType → Int}
    (h : ∀ ch ∈ chs, iFd ch = -1) : held chs iFd = 0 := by
  rw [held, List.map_congr_left h]
  simp

theorem Accounted.balanced {b : Build} {p : Descriptors} (h : Accounted b p) : Balanced b p where
  balanced := Option.isSome_of_eq_some h.out_eq
  closed hd := ⟨h.closed hd, by rw [h.out_eq, held_closed (h.closed hd)]⟩

/-- A plain operation reacts as stated, and leaves the lock. -/
theorem descriptors_plain (b : Build) {signals : Prop} (t : Tid) (env : Env) (s : Shared) {o : Op}
    (hact : lockAct o = .plain) (hsignals : signals → o = .eventfdWrite → env.eventfdWrite = true) :
    (effect b t env o s).2.stEnabledStatusLock = s.stEnabledStatusLock ∧
      descriptorsReact signals o s.books (effect b t env o s).1 (effect b t env o s).2.books := by
  cases o <;> simp only [lockAct, reduceCtorEq] at hact
  case setFd ch fd =>
    refine ⟨rfl, ?_⟩
    simp only [effect, descriptorsReact, Shared.books, Shared.setFd_iFd]
    rfl
  case openDevice ch =>
    simp only [effect, descriptorsReact, Shared.books]
    split
    · refine ⟨rfl, .inl ⟨_, rfl, ?_⟩⟩
      rw [Shared.log_entry _ rfl, Ledger.out_concat, Shared.log_disabled]
      rfl
    · exact ⟨rfl, .inr ⟨rfl, rfl⟩⟩
  case closeDevice ch =>
    refine ⟨rfl, ?_⟩
    simp only [effect, descriptorsReact, Shared.books]
    rw [Shared.log_entry _ rfl, Ledger.out_concat, Shared.log_disabled]
    rfl
  case funcStart f =>
    refine ⟨rfl, ?_⟩
    simp only [effect]
    cases f <;> simp only [descriptorsReact, Shared.books] <;>
      rw [Shared.log_descriptors _ rfl, Shared.log_disabled] <;> rfl
  case funcEnd f ret =>
    refine ⟨rfl, ?_⟩
    simp only [effect]
    cases f <;> cases ret <;> simp only [descriptorsReact, Shared.books] <;>
      rw [Shared.log_descriptors _ rfl, Shared.log_disabled] <;> rfl
  case pthreadCreate =>
    simp only [effect, descriptorsReact]
    split
    · exact ⟨rfl, env.handle + 1, Shared.log_books _ rfl rfl⟩
    · exact ⟨rfl, s.stRxThread, rfl⟩
  case pthreadJoin h => exact ⟨rfl, le_refl _, Shared.log_books _ rfl rfl⟩
  case eventfdWrite =>
    simp only [effect, descriptorsReact]
    split
    · exact ⟨rfl, fun _ => (by decide : (0 : Int) ≤ 8), Shared.log_books _ rfl rfl⟩
    · rename_i hwrite
      exact ⟨rfl, fun hs => absurd (hsignals hs rfl) hwrite, rfl⟩
  case keepAliveCreate =>
    simp only [effect, descriptorsReact]
    split
    · exact ⟨rfl, Shared.log_books _ rfl rfl⟩
    · exact ⟨rfl, rfl⟩
  case readChannelMsg ch =>
    refine ⟨rfl, ?_⟩
    simp only [descriptorsReact, Shared.books, readChannelMsg_iFd]
    simp only [effect]
    rw [Shared.log_descriptors _ rfl, Shared.log_disabled]
    rfl
  case stateCallback | vendorInit | powerCtrl | vendorCleanup | pthreadDetach =>
    exact ⟨rfl, Shared.log_books _ rfl rfl⟩
  all_goals
    first
      | exact ⟨rfl, rfl⟩
      | exact ⟨rfl, rfl, rfl⟩

/-- The lock under which the descriptors are opened and closed. -/
def descriptorLock (b : Build) (signals : Prop) : Monitor (machine b) Descriptors where
  owner := Shared.stEnabledStatusLock
  guarded := Shared.books
  inv := Accounted b
  rely p p' := p' = p
  rely_refl _ := rfl
  rely_trans h h' := h'.trans h
  inv_rely h hs := (congrArg (Accounted b) hs).mpr h
  lockAct := lockAct
  lockAnswer := lockAnswer
  react _ := descriptorsReact signals
  check _ _ := Balanced b
  allow _ env o _ := signals → o = .eventfdWrite → env.eventfdWrite = true
  role := hasRole
  role_entry := @hasRole_entry b
  role_spawn := @hasRole_spawn b
  lock_spec _ _ _ _ _ hact hready _ := lock_effect (fun _ _ => rfl) b hact hready
  unlock_spec _ _ _ _ hact := unlock_effect (fun _ _ => rfl) b hact
  plain_spec t env s _ hact hsignals :=
    (descriptors_plain b t env s hact hsignals).imp_right fun hreact _ _ => hreact

section accounting
variable {b : Build} {signals : Prop} {t : Tid}

/-- What leaves the books as they are. -/
def leavesBooks : Op → Bool
  | .mutexLock | .mutexTrylock | .mutexUnlock | .setFd _ _ | .openDevice _ | .closeDevice _
  | .clearRxThread | .pthreadCreate | .funcStart .antEnable | .funcEnd .antDisable _ => false
  | _ => true

theorem leavesBooks_of_passive {o : Op} (h : passiveOp o = true) : leavesBooks o = true := by
  cases o with
  | funcStart f => cases f <;> first | rfl | cases h
  | funcEnd f ret => cases f <;> first | rfl | cases h
  | _ => first | rfl | cases h

theorem leavesBooks_plain {o : Op} (ho : leavesBooks o = true) :
    lockAct o = .plain ∧ ∀ p r p', descriptorsReact signals o p r p' → p' = p := by
  cases o with
  | mutexLock | mutexTrylock | mutexUnlock | setFd | openDevice | closeDevice | clearRxThread
  | pthreadCreate => cases ho
  | funcStart f => cases f <;> first | exact ⟨rfl, fun _ _ _ h => h⟩ | cases ho
  | funcEnd f ret =>
      cases f <;> first | exact ⟨rfl, fun _ _ _ h => h⟩ | cases ho
  | getFd | getRxThread | eventfdWrite | pthreadJoin => exact ⟨rfl, fun _ _ _ h => h.2⟩
  | _ => exact ⟨rfl, fun _ _ _ h => h⟩

theorem descriptors_stable (I : Descriptors → Prop) : (descriptorLock b signals).Stable I :=
  Monitor.Exact.stable (fun _ _ hs => hs) I

/-- What does not touch the books keeps whatever is known of them. -/
theorem books_op {α : Type} {I : Descriptors → Prop} {J : α → Descriptors → Prop} {o : Op}
    {k : o.Res → Cmd α} (hI : ∀ p, I p → Balanced b p) (ho : leavesBooks o = true)
    (hk : ∀ r, (descriptorLock b signals).Triple t I (k r) J) :
    (descriptorLock b signals).Triple t I (.op o k) J := by
  obtain ⟨hact, hreact⟩ := leavesBooks_plain ho
  exact .unchanged (descriptors_stable I) hact hI hreact hk

theorem books_only {α : Type} {I : Descriptors → Prop} {prog : Cmd α} {Q : α → Prop}
    (hI : ∀ p, I p → Balanced b p) (h : prog.Only (passiveOp · = true) Q) :
    (descriptorLock b signals).Triple t I prog fun _ => I := by
  refine .unchanged_only (descriptors_stable I) h fun o ho => ?_
  obtain ⟨hact, hreact⟩ := leavesBooks_plain (leavesBooks_of_passive ho)
  exact ⟨hact, hI, hreact⟩

section enable

/-- The books within `ant_enable`. -/
structure Enabling (b : Build) (p : Descriptors) : Prop where
  accounted : Accounted b p
  disabled : p.disabled = none

theorem Enabling.balanced {p : Descriptors} (h : Enabling b p) : Balanced b p :=
  h.accounted.balanced

/-- Between an open and the store of its answer. -/
theorem balanced_enabling {p : Descriptors} (hout : p.out.isSome = true)
    (hdisabled : p.disabled = none) : Balanced b p :=
  ⟨hout, fun h => by rw [hdisabled] at h; cases h⟩

/-- An open and the store of its answer are one step of the books. -/
theorem enabling_antEnableChannel (hb : b.backend = .vfs) {ch : AntChannelType}
    (hch : ch ∈ b.channels) :
    (descriptorLock b signals).Triple t (Enabling b) (antEnableChannel b ch)
      fun _ => Enabling b := by
  simp only [antEnableChannel, openTransport, hb, Prog.op_bind, Prog.ret_bind, Prog.pure_eq]
  refine .op (K := fun r p => Enabling b p ∧ r = p.iFd ch)
    (descriptors_stable _) rfl (fun p hp => ⟨hp.balanced, ?_⟩)
    fun iFd => .ite (fun hclosed => ?_) fun _ => .ret (descriptors_stable _) fun p hp => hp.1
  · rintro r q ⟨rfl, rfl⟩
    exact ⟨hp, rfl⟩
  · refine .op (K := fun r p => p.disabled = none ∧ p.iFd ch = -1 ∧
        p.out = some (held b.channels p.iFd + held [ch] fun _ => r))
      (descriptors_stable _) rfl (fun p hp => ⟨hp.1.balanced, ?_⟩) fun fd => ?_
    · obtain ⟨⟨hp, hdisabled⟩, rfl⟩ := hp
      rintro r q (⟨fd, rfl, rfl⟩ | ⟨rfl, rfl⟩)
      · refine ⟨hdisabled, hclosed, ?_⟩
        have hone : held [ch] (fun _ => (fd : Int)) = {(fd : Int)} := by simp [held]
        rw [hp.out_eq, hone, Option.bind_some, Ledger.enter, add_comm, Multiset.singleton_add]
      · refine ⟨hdisabled, hclosed, ?_⟩
        have hnone : held [ch] (fun _ => -1) = 0 := by simp [held]
        rw [hp.out_eq, hnone, add_zero]
    · refine .op (K := fun _ => Enabling b) (descriptors_stable _) rfl
        (fun p hp => ⟨balanced_enabling (Option.isSome_of_eq_some hp.2.2) hp.1, ?_⟩) fun _ =>
        books_op (fun _ => Enabling.balanced) rfl fun iFd => ?_
      · rintro r q rfl
        obtain ⟨hdisabled, hclosed, hout⟩ := hp
        refine ⟨⟨?_, fun hd => ?_⟩, hdisabled⟩
        · rw [hout, held_open b.channels_nodup hch hclosed]
        · rw [hdisabled] at hd
          cases hd
      · exact .ite (fun _ => .ret (descriptors_stable _) fun _ hp => hp) fun _ =>
          .ret (descriptors_stable _) fun _ hp => hp

theorem accounted_antEnable (hb : b.backend = .vfs) :
    (descriptorLock b signals).Triple t (Accounted b) (antEnable b) fun _ => Enabling b := by
  have hout (iRet : Int) : (descriptorLock b signals).Triple t (Enabling b) (antEnableOut b iRet)
      fun _ => Enabling b := books_only (fun _ => Enabling.balanced) (antEnableOut_only iRet)
  have hcheck : (descriptorLock b signals).Triple t (Enabling b) (antEnableCheck b)
      fun _ => Enabling b := books_only (fun _ => Enabling.balanced) antEnableCheck_only
  have hop {o : Op} {k : o.Res → Cmd Int} (ho : leavesBooks o = true)
      (hk : ∀ r, (descriptorLock b signals).Triple t (Enabling b) (k r) fun _ => Enabling b) :
      (descriptorLock b signals).Triple t (Enabling b) (.op o k) fun _ => Enabling b :=
    books_op (fun _ => Enabling.balanced) ho hk
  simp only [antEnable, Prog.op_bind, Prog.ret_bind]
  refine .op (K := fun _ => Enabling b) (descriptors_stable _) rfl
    (fun p hp => ⟨hp.balanced, ?_⟩) fun _ => hop rfl fun result => .ite (fun _ => hout _) fun _ =>
      hop rfl fun _ => .bind (enableChannels_keep (descriptors_stable _) fun _ hch =>
        enabling_antEnableChannel hb hch) fun enabled => .ite (fun _ => hout _) fun _ =>
          hop rfl fun h => .ite (fun _ => ?_) fun _ => hcheck
  · rintro r q rfl
    exact ⟨⟨hp.out_eq, fun hd => by cases hd⟩, rfl⟩
  · refine .op (K := fun _ => Enabling b) (descriptors_stable _) rfl
      (fun p hp => ⟨hp.balanced, ?_⟩) fun ret => .ite (fun _ => hout _) fun _ => hcheck
    rintro r q ⟨h, rfl⟩
    exact ⟨⟨hp.accounted.out_eq, hp.accounted.closed⟩, hp.disabled⟩

end enable

section disable

/-- The books when some channels have been closed. -/
structure Closed (b : Build) (chs : List AntChannelType) (p : Descriptors) : Prop where
  accounted : Accounted b p
  closed : ∀ ch ∈ chs, p.iFd ch = -1

theorem Closed.balanced {chs : List AntChannelType} {p : Descriptors} (h : Closed b chs p) :
    Balanced b p := h.accounted.balanced

/-- A close and the store of -1 are one step of the books. -/
theorem closed_antDisableChannel (hb : b.backend = .vfs) (chs : List AntChannelType)
    {ch : AntChannelType} (hch : ch ∈ b.channels) :
    (descriptorLock b signals).Triple t (Closed b chs) (antDisableChannel b ch)
      fun _ => Closed b (ch :: chs) := by
  simp only [antDisableChannel, closeTransport, hb, Prog.op_bind, Prog.ret_bind, Prog.pure_eq]
  refine .op (K := fun r p => Closed b chs p ∧ r = p.iFd ch)
    (descriptors_stable _) rfl (fun p hp => ⟨hp.balanced, ?_⟩)
    fun iFd => .ite (fun hopen => ?_) fun hclosed => .ret (descriptors_stable _) fun p hp => ?_
  · rintro r q ⟨rfl, rfl⟩
    exact ⟨hp, rfl⟩
  · refine .op (K := fun _ p => (p.disabled ≠ some 0 ∧ ∀ ch' ∈ chs, p.iFd ch' = -1) ∧
        p.iFd ch ≠ -1 ∧ p.out = some ((held b.channels p.iFd).erase (p.iFd ch)))
      (descriptors_stable _) rfl (fun p hp => ⟨hp.1.balanced, ?_⟩) fun _ => ?_
    · obtain ⟨⟨hp, hchs⟩, rfl⟩ := hp
      rintro r q rfl
      refine ⟨⟨fun hd => hopen (hp.closed hd ch hch), hchs⟩, hopen, ?_⟩
      rw [hp.out_eq, Option.bind_some, Ledger.enter,
        if_pos (held_close b.channels_nodup hch hopen).1]
    · refine .op (K := fun _ => Closed b (ch :: chs)) (descriptors_stable _) rfl
        (fun p hp => ⟨⟨Option.isSome_of_eq_some hp.2.2, fun hd => absurd hd hp.1.1⟩, ?_⟩) fun _ =>
        .ret (descriptors_stable _) fun _ hp => hp
      rintro r q rfl
      obtain ⟨⟨hdisabled, hchs⟩, hopen, hout⟩ := hp
      refine ⟨⟨?_, fun hd => absurd hd hdisabled⟩,
        List.forall_mem_cons.mpr ⟨?_, fun ch' hch' => ?_⟩⟩
      · rw [hout, (held_close b.channels_nodup hch hopen).2]
      · exact Function.update_self ch _ _
      · by_cases heq : ch' = ch
        · rw [heq]
          exact Function.update_self ch _ _
        · exact (Function.update_of_ne heq _ _).trans (hchs ch' hch')
  · obtain ⟨hp, rfl⟩ := hp
    exact ⟨hp.accounted, List.forall_mem_cons.mpr ⟨not_not.mp hclosed, hp.closed⟩⟩

theorem closed_disableChannels (hb : b.backend = .vfs) (chs done : List AntChannelType)
    (hchs : ∀ ch ∈ chs, ch ∈ b.channels) :
    (descriptorLock b signals).Triple t (Closed b done) (disableChannels b chs)
      fun _ => Closed b (chs.reverse ++ done) := by
  induction chs generalizing done with
  | nil => exact .ret (descriptors_stable _) fun _ hp => hp
  | cons ch chs ih =>
      obtain ⟨hch, hchs⟩ := List.forall_mem_cons.mp hchs
      rw [List.reverse_cons, List.append_assoc]
      exact .bind (closed_antDisableChannel hb done hch) fun _ => ih (ch :: done) hchs

/-- What `ant_disable` leaves: it fails only if there is a thread to be told and the
shutdown signal cannot be written. -/
structure Disabled (b : Build) (sure : Prop) (iRet : Int) (p : Descriptors) : Prop where
  accounted : Accounted b p
  disabled : p.disabled = some iRet
  succeeds : sure → iRet = 0

theorem Disabled.balanced {sure : Prop} {iRet : Int} {p : Descriptors}
    (h : Disabled b sure iRet p) : Balanced b p := h.accounted.balanced

theorem disabled_antDisable (hb : b.backend = .vfs) (alone : Prop) :
    (descriptorLock b signals).Triple t (fun p => Accounted b p ∧ (alone → p.stRxThread = 0))
      (antDisable b) (Disabled b (signals ∨ alone)) := by
  have hout {iRet : Int} {I : Descriptors → Prop} (hI : ∀ p, I p → Accounted b p)
      (hclosed : iRet = 0 → ∀ p, I p → p.AllClosed b) (hsure : signals ∨ alone → iRet = 0) :
      (descriptorLock b signals).Triple t I (antDisableOut iRet)
        (Disabled b (signals ∨ alone)) := by
    simp only [antDisableOut, Prog.op_bind, Prog.ret_bind]
    refine .op (K := fun _ p => Accounted b p ∧ (iRet = 0 → p.AllClosed b)) (descriptors_stable _)
      rfl (fun p hp => ⟨(hI p hp).balanced, ?_⟩) fun _ =>
      .op (K := fun _ => Disabled b (signals ∨ alone) iRet) (descriptors_stable _) rfl
        (fun p hp => ⟨hp.1.balanced, ?_⟩) fun _ => .ret (descriptors_stable _) fun _ hp => hp
    · rintro r q rfl
      exact ⟨⟨(hI p hp).out_eq, (hI p hp).closed⟩, fun h => hclosed h p hp⟩
    · rintro r q rfl
      exact ⟨⟨hp.1.out_eq, fun hd => hp.2 (Option.some.inj hd)⟩, rfl, hsure⟩
  have hclose : (descriptorLock b signals).Triple t (Accounted b)
      (disableChannels b b.channels >>= fun _ => antDisableOut 0)
      (Disabled b (signals ∨ alone)) := by
    refine .bind ((closed_disableChannels hb b.channels [] fun _ hch => hch).mono
      (fun p hp => ⟨hp, by simp⟩) fun _ _ hp => hp) fun _ => hout (fun p hp => hp.accounted)
      (fun _ p hp ch hch => hp.closed ch (by simpa using hch)) fun _ => rfl
  have hop {o : Op} {k : o.Res → Cmd Int} (ho : leavesBooks o = true)
      (hk : ∀ r, (descriptorLock b signals).Triple t
        (fun p => Accounted b p ∧ (alone → p.stRxThread = 0)) (k r)
        (Disabled b (signals ∨ alone))) :
      (descriptorLock b signals).Triple t (fun p => Accounted b p ∧ (alone → p.stRxThread = 0))
        (.op o k) (Disabled b (signals ∨ alone)) :=
    books_op (fun p hp => hp.1.balanced) ho hk
  simp only [antDisable, Prog.op_bind, Prog.ret_bind]
  refine hop rfl fun _ => hop rfl fun _ => .op (K := fun h p => Accounted b p ∧ (alone → h = 0))
    (descriptors_stable _) rfl (fun p hp => ⟨hp.1.balanced, ?_⟩) fun h =>
    .ite (fun hthread => ?_) fun _ => hclose.mono (fun _ hp => hp.1) fun _ _ hp => hp
  · rintro r q ⟨rfl, rfl⟩
    exact hp
  · refine .op (K := fun w p => Accounted b p ∧ (signals ∨ alone → 0 ≤ w))
      (descriptors_stable _) rfl (fun p hp => ⟨hp.1.balanced, ?_⟩) fun w =>
      .ite (fun hneg p hp => ?_) fun _ => ?_
    · rintro r q ⟨hsignals, rfl⟩
      exact ⟨hp.1, fun hs => hs.elim hsignals fun halone => absurd (hp.2 halone) hthread⟩
    · exact hout (I := Accounted b) (fun _ hp => hp) (fun h => by cases h)
        (fun hs => absurd (hp.2 hs) (Int.not_le.mpr hneg)) p hp.1
    · refine Monitor.Triple.mono (I := Accounted b) ?_ (fun _ hp => hp.1) fun _ _ hp => hp
      refine books_op (fun _ => Accounted.balanced) rfl fun h => .op
        (K := fun j p => Accounted b p ∧ 0 ≤ j) (descriptors_stable _) rfl
        (fun p hp => ⟨hp.balanced, ?_⟩) fun j => .ite (fun hneg p hp => ?_) fun _ =>
        hclose.mono (fun _ hp => hp.1) fun _ _ hp => hp
      · rintro r q ⟨hjoin, rfl⟩
        exact ⟨hp, hjoin⟩
      · exact absurd hp.2 (Int.not_le.mpr hneg)

end disable

theorem accounted_antDisable (hb : b.backend = .vfs) :
    (descriptorLock b signals).Triple t (Accounted b) (antDisable b) (Disabled b signals) :=
  (disabled_antDisable hb False).mono (fun _ hp => ⟨hp, False.elim⟩)
    fun _ _ hp => ⟨hp.accounted, hp.disabled, fun hs => hp.succeeds (.inl hs)⟩

theorem inside_antDisable_accounted (hb : b.backend = .vfs) :
    (descriptorLock b signals).Inside t (antDisable b) :=
  (accounted_antDisable hb).mono (fun _ hp => hp) fun _ _ hp => hp.accounted

theorem accounted_passive {o : Op} (h : passiveOp o = true) :
    (descriptorLock b signals).HarmlessIn t o := by
  obtain ⟨hact, hreact⟩ := leavesBooks_plain (leavesBooks_of_passive h)
  exact Monitor.harmlessIn_of_eq hact (fun _ hp => hp.balanced) hreact

theorem accounted_upheld (hb : b.backend = .vfs) : Upheld (descriptorLock b signals) where
  owner_eq := rfl
  lockAct_eq := rfl
  lockAnswer_eq := rfl
  role_eq := rfl
  outer o ho := by
    have hleaves : leavesBooks o = true := by
      obtain ho | ho := ho
      · exact leavesBooks_of_passive ho
      · cases o <;> first | rfl | cases ho
    exact leavesBooks_plain hleaves
  inner _ _ ho := accounted_passive ho
  unlock _ _ hp := hp.balanced
  enable t := (accounted_antEnable hb).mono (fun _ hp => hp) fun _ _ hp => hp.accounted
  disable _ := inside_antDisable_accounted hb
  stop h _ hprog := by
    have hclear : (descriptorLock b signals).HarmlessIn (.rx h) .clearRxThread := by
      refine ⟨rfl, fun p hp => ⟨hp.balanced, ?_⟩⟩
      rintro r q rfl
      exact ⟨hp.out_eq, hp.closed⟩
    exact inside_stop hclear (fun _ => accounted_passive) (inside_antDisable_accounted hb) hprog

section released

/-- What is left of a call from its section on does not lock. -/
theorem section_locks {α α' : Type} {prog : Cmd α} {tail : α → Cmd (Option Label)}
    {prog' : Cmd α'} {tail' : α' → Cmd (Option Label)}
    (hprog : prog.Only (lockAct · = .plain) fun _ => True)
    (htail : ∀ a, (tail a).Only (lockAct · ≠ .lock) fun _ => True) :
    (prog >>= tail).Always fun o k => lockAct o = .lock →
      ∀ r, lockAnswer o r true → k r = prog' >>= tail' := by
  have honly : (prog >>= tail).Only (lockAct · ≠ .lock) fun _ => True :=
    (hprog.mono (fun o ho => by simp [ho]) fun _ _ => trivial).bind fun a _ => htail a
  exact honly.always fun o k ho hact => absurd hact ho

/-- What a thread knows of the books it still knows when it has reported. -/
theorem reported_disabled {sure : Prop} {iRet : Int} :
    (descriptorLock b signals).Triple t (Disabled b sure iRet)
      (reportStatus (antRadioEnabledStatus b)) fun _ => Disabled b sure iRet :=
  books_only (fun _ => Disabled.balanced) (reportStatus_only antRadioEnabledStatus_only)

/-- `ant_enable_radio` from the release of the lock. -/
def enableTail (status : AntStatus) : Cmd (Option Label) := do
  mutexUnlock
  funcEnd .antEnableRadio (.status status)
  return none

theorem enableRadio_locks : (body b .enableRadio).Always fun o k => lockAct o = .lock →
    ∀ r, lockAnswer o r true → k r = enableRadioLocked b >>= enableTail := by
  have hplain : (enableRadioLocked b).Only (lockAct · = .plain) fun _ => True :=
    enableRadioLocked_section.mono (fun _ ho => section_plain ho) fun _ h => h
  simp only [body, antEnableRadio, Prog.op_bind, Prog.ret_bind, Prog.pure_eq]
  refine ⟨fun h => (by cases h), fun _ => ⟨fun _ r hr => ?_, fun r => ?_⟩⟩
  · obtain ⟨rfl, -⟩ := hr
    simp only [ne_eq, not_true_eq_false, if_false, Prog.bind_assoc, Prog.op_bind, Prog.ret_bind]
    rfl
  · dsimp only
    split
    · exact ⟨fun h => (by cases h), fun _ => trivial⟩
    · simp only [Prog.bind_assoc, Prog.op_bind, Prog.ret_bind]
      exact section_locks hplain fun status => by simp [lockAct]

/-- An `ant_enable_radio` that fails has disabled. -/
theorem triple_enableRadioLocked (hb : b.backend = .vfs) :
    (descriptorLock b signals).Triple t (Accounted b) (enableRadioLocked b) fun status p =>
      status = .failed → ∃ iRet, p.disabled = some iRet ∧ (signals → iRet = 0) := by
  have hsuccess {I : Descriptors → Prop} : (descriptorLock b signals).Triple t I
      (.ret .success : Cmd AntStatus) fun status p =>
        status = .failed → ∃ iRet, p.disabled = some iRet ∧ (signals → iRet = 0) :=
    .ret (descriptors_stable _) fun _ _ h => by cases h
  have hbody : (descriptorLock b signals).Triple t (Accounted b) (enableRadioBody b)
      fun status p => status = .failed → ∃ iRet, p.disabled = some iRet ∧ (signals → iRet = 0) := by
    refine .bind (books_only (fun _ => Accounted.balanced) (report_only _)) fun _ =>
      .bind (accounted_antEnable hb) fun iRet => .ite (fun _ => ?_) fun _ =>
        .bind (books_only (fun _ => Enabling.balanced) (report_only _)) fun _ => hsuccess
    refine .bind ((accounted_antDisable hb).mono (fun _ hp => hp.accounted) fun _ _ hp => hp)
      fun iRet => .bind reported_disabled fun _ => .ret (descriptors_stable _) fun p hp _ => ?_
    exact ⟨iRet, hp.disabled, hp.succeeds⟩
  simp only [enableRadioLocked, hb]
  exact .bind (books_only (fun _ => Accounted.balanced) antRadioEnabledStatus_only) fun current =>
    .ite (fun _ => hbody) fun _ => hsuccess

variable (signals) in
theorem enable_section (hb : b.backend = .vfs) :
    (descriptorLock b signals).Section .enableRadio (enableRadioLocked b) enableTail
      fun status p => status = .failed → ∃ iRet, p.disabled = some iRet ∧ (signals → iRet = 0) where
  locks := enableRadio_locks
  plain := enableRadioLocked_section.mono (fun _ ho => section_plain ho) fun _ h => h
  triple _ _ := triple_enableRadioLocked hb
  releases _ := ⟨_, _, rfl, rfl⟩

/-- The clean-up of a crashed receive thread, up to the release of the lock. -/
def cleanUpLocked (b : Build) : Cmd Unit := do
  clearRxThread
  reportStatus (return .disabling)
  let _ ← antDisable b
  reportStatus (antRadioEnabledStatus b)

def cleanUpTail (_ : Unit) : Cmd (Option Label) := do
  mutexUnlock
  funcEnd .fnRxThread .void
  return none

theorem cleanUpLocked_plain : (cleanUpLocked b).Only (lockAct · = .plain) fun _ => True := by
  have hsection {α : Type} {p : Cmd α} (h : p.Only (sectionOp · = true) fun _ => True) :
      p.Only (lockAct · = .plain) fun _ => True :=
    h.mono (fun _ ho => section_plain ho) fun _ h => h
  exact (Prog.only_op _ _).mpr ⟨rfl, fun _ => (hsection (report_section _)).bind fun _ _ =>
    (hsection antDisable_section).bind fun _ _ => hsection reportEnabled_section⟩

theorem crashCleanUp_eq : (crashCleanUp b 0 >>= fun _ => (do
    funcEnd .fnRxThread .void
    return none : Cmd (Option Label))) = cleanUpLocked b >>= cleanUpTail := by
  simp only [crashCleanUp, cleanUpLocked, if_true, Prog.bind_assoc, Prog.op_bind, Prog.ret_bind]
  rfl

theorem rxClose_locks : (body b .rxClose).Always fun o k => lockAct o = .lock →
    ∀ r, lockAnswer o r true → k r = cleanUpLocked b >>= cleanUpTail := by
  simp only [body, rxClose, Prog.op_bind, Prog.ret_bind]
  refine ⟨fun _ r hr => ?_, fun r => ?_⟩
  · obtain ⟨rfl, -⟩ | ⟨-, h⟩ := hr
    · exact crashCleanUp_eq
    · cases h
  · by_cases hr : r = 0
    · subst hr
      change (crashCleanUp b 0 >>= fun _ => (do
        funcEnd .fnRxThread .void
        return none : Cmd (Option Label))).Always _
      rw [crashCleanUp_eq]
      exact section_locks cleanUpLocked_plain fun _ => by simp [cleanUpTail, lockAct]
    · simp only [crashCleanUp, if_neg hr]
      exact ⟨fun h => (by cases h), fun _ => trivial⟩

/-- The thread has taken itself off the record, so it has nobody to tell to stop. -/
theorem triple_cleanUpLocked (hb : b.backend = .vfs) :
    (descriptorLock b signals).Triple t (Accounted b) (cleanUpLocked b)
      fun _ p => p.disabled = some 0 := by
  simp only [cleanUpLocked, Prog.op_bind, Prog.ret_bind]
  refine .op (K := fun _ p => Accounted b p ∧ p.stRxThread = 0) (descriptors_stable _) rfl
    (fun p hp => ⟨hp.balanced, ?_⟩) fun _ =>
    .bind (books_only (fun p hp => hp.1.balanced) (report_only _)) fun _ =>
      .bind ((disabled_antDisable hb True).mono (fun p hp => ⟨hp.1, fun _ => hp.2⟩)
        fun _ _ hp => hp) fun iRet =>
        reported_disabled.mono (fun _ hp => hp) fun _ p hp => ?_
  · rintro r q rfl
    exact ⟨⟨hp.out_eq, hp.closed⟩, rfl⟩
  · obtain rfl := hp.succeeds (.inr trivial)
    exact hp.disabled

variable (signals) in
theorem cleanUp_section (hb : b.backend = .vfs) :
    (descriptorLock b signals).Section .rxClose (cleanUpLocked b) cleanUpTail
      fun _ p => p.disabled = some 0 where
  locks := rxClose_locks
  plain := cleanUpLocked_plain
  triple _ _ := triple_cleanUpLocked hb
  releases _ := ⟨_, _, rfl, rfl⟩

end released

section runs
variable {stateCallback rxCallback : Bool} {c : ThreadConfig}

theorem accounted_init : Accounted b (Shared.init stateCallback rxCallback).books where
  out_eq := congrArg some (held_closed fun _ _ => rfl).symm
  closed h := by cases h

/-- Every write of the shutdown signal succeeds. -/
def SignalsWritten (c : ThreadConfig) : Move Label Tid Env → Prop
  | .start _ _ => True
  | .act t env => (c.pool t).bind Thread.head? = some .eventfdWrite → env.eventfdWrite = true

theorem descriptors_allowed {x : ThreadConfig} {mv : Move Label Tid Env}
    (h : signals → SignalsWritten x mv) : (descriptorLock b signals).Allowed x mv := by
  cases mv with
  | start t l => trivial
  | act t env =>
      intro o ho hs heq
      subst heq
      exact h hs ho

variable (signals) in
theorem accounted_holds (hb : b.backend = .vfs)
    (h : (machine b).Path (fun x mv => signals → SignalsWritten x mv)
      (initConfig stateCallback rxCallback) c) : (descriptorLock b signals).Holds c :=
  Monitor.holds_path (accounted_upheld hb).checked (fun _ _ => descriptors_allowed)
    ((accounted_upheld hb).start accounted_init) h

/-- The books are sound in every state, and complete where the lock is free. -/
theorem books_balanced (hb : b.backend = .vfs)
    (h : (machine b).Reachable (initConfig stateCallback rxCallback) c) :
    Balanced b c.shared.books ∧
      (c.shared.stEnabledStatusLock = none → Accounted b c.shared.books) := by
  have hholds := accounted_holds False hb (h.mono fun _ _ _ => False.elim)
  refine ⟨?_, hholds.free⟩
  cases howner : c.shared.stEnabledStatusLock with
  | none => exact (hholds.free howner).balanced
  | some t =>
      obtain ⟨_, _, _, -, hcheck⟩ := hholds.checked howner
      exact hcheck

variable (signals) in
/-- An `ant_enable_radio` that is about to return `ANT_STATUS_FAILED` has disabled. -/
theorem enable_failed (hb : b.backend = .vfs)
    (h : (machine b).Path (fun x mv => signals → SignalsWritten x mv)
      (initConfig stateCallback rxCallback) c)
    (hth : c.pool t = some ⟨.enableRadio, enableTail .failed⟩) :
    ∃ iRet, c.shared.disabled = some iRet ∧ (signals → iRet = 0) := by
  obtain ⟨status, htail, hdisabled⟩ := (enable_section signals hb).released
    (accounted_upheld hb).checked (fun _ _ => descriptors_allowed)
    ((accounted_upheld hb).start accounted_init) (fun _ => rfl) h hth rfl
  refine hdisabled ?_
  injection htail with _ hrest
  have hnext := congrFun hrest ()
  injection hnext with hend
  cases hend
  rfl

theorem cleanUp_closed (hb : b.backend = .vfs)
    (h : (machine b).Reachable (initConfig stateCallback rxCallback) c)
    {k : Unit → Cmd (Option Label)} (hth : c.pool t = some ⟨.rxClose, .op .mutexUnlock k⟩) :
    c.shared.disabled = some 0 := by
  obtain ⟨_, -, hdisabled⟩ := (cleanUp_section False hb).released
    (accounted_upheld hb).checked (fun _ _ => descriptors_allowed)
    ((accounted_upheld hb).start accounted_init) (fun _ => rfl)
    (h.mono fun _ _ _ => False.elim) hth rfl
  exact hdisabled

end runs

section claims
variable {stateCallback rxCallback : Bool} {c : ThreadConfig}

/-- No descriptor is leaked or closed twice: in every state of every run the log
of opens and closes is balanced; while the lock is free, exactly the descriptors
of the channels are open, each as often as channels hold it; they are different
if the system hands out no descriptor that is still open.

From an `ant_disable` that has returned 0 to the next `ant_enable` every channel is
closed, and each descriptor has been closed exactly as often as it was opened. So ends
every clean-up of a crashed receive thread. An `ant_enable_radio` that fails has
completed an `ant_disable`, which returned 0 if shutdown signals can be written. -/
theorem descriptors_accounted (hb : b.backend = .vfs)
    (h : (machine b).Reachable (initConfig stateCallback rxCallback) c) :
    (∃ values, Ledger.out c.shared.descriptors = some values) ∧
    (c.shared.stEnabledStatusLock = none →
      Ledger.out c.shared.descriptors = some (held b.channels c.shared.iFd) ∧
      (∀ fd : Int, c.shared.descriptors.count (.acquire fd) =
        c.shared.descriptors.count (.release fd) + (held b.channels c.shared.iFd).count fd) ∧
      (Ledger.Fresh c.shared.descriptors → (held b.channels c.shared.iFd).Nodup)) ∧
    (c.shared.disabled = some 0 → (∀ ch ∈ b.channels, c.shared.iFd ch = -1) ∧
      ∀ fd : Int, c.shared.descriptors.count (.acquire fd) =
        c.shared.descriptors.count (.release fd)) ∧
    (∀ (t : Tid) (k : Unit → Cmd (Option Label)),
      c.pool t = some ⟨.rxClose, .op .mutexUnlock k⟩ → c.shared.disabled = some 0) ∧
    (∀ t : Tid, c.pool t = some ⟨.enableRadio, enableTail .failed⟩ →
      ∃ iRet, c.shared.disabled = some iRet ∧
        ((machine b).Path SignalsWritten (initConfig stateCallback rxCallback) c → iRet = 0)) := by
  obtain ⟨hbalanced, hfree⟩ := books_balanced hb h
  refine ⟨Option.isSome_iff_exists.mp hbalanced.balanced, fun howner => ?_, fun hdisabled => ?_,
    fun t k hth => cleanUp_closed hb h hth, fun t hth => ?_⟩
  · have hout := (hfree howner).out_eq
    exact ⟨hout, fun fd => Ledger.count_acquire hout fd, fun hfresh => hfresh.nodup hout⟩
  · obtain ⟨hclosed, hout⟩ := hbalanced.closed hdisabled
    refine ⟨hclosed, fun fd => ?_⟩
    rw [Ledger.count_acquire hout fd, Multiset.count_zero, Nat.add_zero]
  · obtain ⟨iRet, hdisabled, -⟩ := enable_failed False hb
      (h.mono fun _ _ _ => False.elim) hth
    refine ⟨iRet, hdisabled, fun hsignals => ?_⟩
    obtain ⟨iRet', hdisabled', hzero⟩ := enable_failed True hb
      (hsignals.mono fun _ _ hmv _ => hmv) hth
    cases hdisabled.symm.trans hdisabled'
    exact hzero trivial

/-- The receive thread crashes behind an enable of both channels, and has closed them
when it is about to release the lock. -/
theorem descriptors_accounted_closed :
    ∃ c : ThreadConfig,
      c.shared.descriptors = [.acquire 3, .acquire 4, .release 3, .release 4] ∧
      (∀ ch ∈ Build.smd.channels, c.shared.iFd ch = -1) ∧
      ∀ fd : Int, c.shared.descriptors.count (.acquire fd) =
        c.shared.descriptors.count (.release fd) := by
  obtain ⟨c, hpath, hc⟩ := Machine.exec_any (machine .smd) (fun _ _ => true)
    (.start (.app 0) .enableRadio :: List.replicate 29
      (.act (.app 0) { openDevice := fun ch => if ch = .data then some 3 else some 4 }) ++
      List.replicate 31 (.act (.rx 1) { poll := ⟨1, fun _ => 0, pollErr⟩ }))
    (initConfig true true)
    (fun c => (c.pool (.rx 1)).any (fun th =>
        th.label = .rxClose && th.head? = some .mutexUnlock) &&
      c.shared.descriptors = [.acquire 3, .acquire 4, .release 3, .release 4]) (by decide +kernel)
  simp only [Bool.and_eq_true, decide_eq_true_eq, Option.any_eq_true] at hc
  obtain ⟨⟨⟨l, code⟩, hth, hl, hhead⟩, hlog⟩ := hc
  obtain ⟨k, rfl⟩ := Thread.code_of_head hhead
  subst hl
  obtain ⟨-, -, hclosed, hcleanUp, -⟩ := descriptors_accounted rfl hpath.reachable
  exact ⟨c, hlog, hclosed (hcleanUp (.rx 1) k hth)⟩

end claims

end accounting
end AntHal

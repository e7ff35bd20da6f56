import AntHal.Chardev.FlowControl

/-!
Is a GO ever lost?

A send whose GO is stored before its deadline should succeed. It can fail for
two reasons: another send, or a packet of another kind, overwrites the GO before
the send has looked at it; or the signal for the GO wakes somebody else. Without
these every send that is answered in time succeeds.
-/

namespace AntHal

open Concurrency

section property
variable (d : HciDefines) (c : FlowConfig)

/-- No send that is still under way has its GO stored. -/
def noGoPending (s : FlowShared) : Bool :=
  s.written.all fun n => (s.returned n).isSome || !s.go n

/-- The chip answers in time: a deadline is reached only when `setFlowControl`
for the send's own GO has returned, or the send itself has. -/
def timely : Move FlowLabel FlowTid FlowEnv → Bool
  | .start _ _ => true
  | .act t _ =>
    match (c.pool t).bind Thread.head? with
    | some .tick => c.shared.written.all fun n =>
      (c.shared.returned n).isSome || c.shared.signalled n ||
        decide (c.shared.now + 1 < c.shared.stTimeout n)
    | _ => true

/-- A stored GO is not overwritten while its send is under way, and the signal
for it wakes that send if it waits. -/
def keepsGo : Move FlowLabel FlowTid FlowEnv → Bool
  | .start _ _ => true
  | .act t env =>
    match (c.pool t).bind Thread.head? with
    | some (.txSection _ _) => env.iMutexResult ≠ 0 || noGoPending c.shared
    | some (.setFlowControl _ setting) =>
      env.iMutexResult ≠ 0 || setting = d.flowGo || noGoPending c.shared
    | some (.condSignal i) =>
      !(c.shared.go i && decide (i ∈ c.shared.waiters)) || env.woken i
    | _ => true

/-- Every completely written send that has returned has succeeded, and one whose
GO has been signalled is not blocked and succeeds when it runs on. -/
def GoKept : Prop :=
  ∀ n ∈ c.shared.written,
    (∀ status, c.shared.returned n = some status → status = .success) ∧
    (c.shared.signalled n = true → n ∉ c.shared.waiters ∧
      (c.shared.returned n = some .success ∨
        ∃ th, c.pool (.sender n) = some th ∧
          ∀ env, ((th.code.run (flowEffect d env) c.shared).2).returned n = some .success))

end property

section invariant
variable {d : HciDefines} {s s' : FlowShared} {env : FlowEnv} {n m : Nat}

/-- What ties the response byte to the sends under way. -/
structure GoInv (d : HciDefines) (s : FlowShared) : Prop where
  stored : ∀ n ∈ s.written, s.returned n = none → s.go n = true →
    s.info.ucFlowControlResp = d.flowGo
  wrote : ∀ n, s.go n = true → n ∈ s.written
  woke : ∀ n, s.signalled n = true → s.go n = true ∧ n ∉ s.waiters
  deadline : ∀ n ∈ s.written, s.returned n = none → s.stTimeout n ≤ s.now →
    s.signalled n = true
  success : ∀ n ∈ s.written, ∀ status, s.returned n = some status → status = .success

/-- A send that has not been written leaves the others alone. -/
theorem GoInv.leave_unwritten (h : GoInv d s) (hn : n ∉ s.written) (status : AntStatus) :
    GoInv d (s.leave n status).2 := by
  have hne : ∀ m ∈ s.written, m ≠ n := fun m hm hmn => hn (hmn ▸ hm)
  have hret : ∀ m ∈ s.written, Function.update s.returned n (some status) m = s.returned m :=
    fun m hm => Function.update_of_ne (hne m hm) _ _
  refine ⟨fun m hm hr hgo => ?_, h.wrote, h.woke, fun m hm hr => ?_, fun m hm st hr => ?_⟩
  · exact h.stored m hm (hret m hm ▸ hr) hgo
  · exact h.deadline m hm (hret m hm ▸ hr)
  · exact h.success m hm st (hret m hm ▸ hr)

theorem GoInv.leave_success (h : GoInv d s) (n : Nat) : GoInv d (s.leave n .success).2 := by
  have hret : ∀ m, Function.update s.returned n (some AntStatus.success) m = none →
      s.returned m = none := by
    intro m hm
    by_cases hmn : m = n
    · subst hmn
      rw [Function.update_self] at hm
      cases hm
    · rwa [Function.update_of_ne hmn] at hm
  refine ⟨fun m hm hr hgo => h.stored m hm (hret m hr) hgo, h.wrote, h.woke,
    fun m hm hr => h.deadline m hm (hret m hr), fun m hm st hr => ?_⟩
  by_cases hmn : m = n
  · subst hmn
    simp only [FlowShared.leave, Function.update_self, Option.some.injEq] at hr
    exact hr.symm
  · simp only [FlowShared.leave, Function.update_of_ne hmn] at hr
    exact h.success m hm st hr

/-- A send that waits again has not been answered. -/
theorem GoInv.wait (h : GoInv d s) (hn : n ∈ s.written) (hr : s.returned n = none)
    (hresp : s.info.ucFlowControlResp ≠ d.flowGo) :
    GoInv d { s with waiters := n :: s.waiters } := by
  refine ⟨h.stored, h.wrote, fun m hm => ?_, h.deadline, h.success⟩
  obtain ⟨hgo, hout⟩ := h.woke m hm
  refine ⟨hgo, fun hmem => ?_⟩
  rcases List.mem_cons.mp hmem with rfl | hmem
  · exact hresp (h.stored m hn hr hgo)
  · exact hout hmem

theorem GoInv.testGo (h : GoInv d s) (hn : n ∈ s.written) (hr : s.returned n = none) :
    GoInv d (s.testGo d n).2 := by
  unfold FlowShared.testGo
  split
  · rename_i hresp
    exact h.wait hn hr hresp
  · exact h.leave_success n

/-- Storing anything is harmless while no GO is pending. -/
theorem GoInv.store (h : GoInv d s) (hno : noGoPending s = true) (info : AntChannelInfo) :
    GoInv d { s with info := info } := by
  refine ⟨fun m hm hr hgo => ?_, h.wrote, h.woke, h.deadline, h.success⟩
  dsimp only at hr hgo
  have := List.all_eq_true.mp hno m hm
  simp [hr, hgo] at this

/-- A new send has no answer yet, and its deadline lies ahead. -/
theorem GoInv.write (h : GoInv d s) (hn : n ∉ s.written) (hr : s.returned n = none) :
    GoInv d { s with
      stTimeout := Function.update s.stTimeout n (s.now + antFlowGoWaitTimeoutSec)
      written := n :: s.written } := by
  have hgo : s.go n ≠ true := fun hgo => hn (h.wrote n hgo)
  refine ⟨fun m hm hrm hgom => ?_, fun m hgom => ?_, h.woke, fun m hm hrm hle => ?_,
    fun m hm st hst => ?_⟩
  · rcases List.mem_cons.mp hm with rfl | hm
    · exact absurd hgom hgo
    · exact h.stored m hm hrm hgom
  · exact List.mem_cons_of_mem _ (h.wrote m hgom)
  · dsimp only at hle
    by_cases hmn : m = n
    · subst hmn
      simp only [Function.update_self, antFlowGoWaitTimeoutSec] at hle
      omega
    · rw [Function.update_of_ne hmn] at hle
      exact h.deadline m ((List.mem_cons.mp hm).resolve_left hmn) hrm hle
  · rcases List.mem_cons.mp hm with rfl | hm
    · rw [hr] at hst
      cases hst
    · exact h.success m hm st hst

theorem GoInv.txSection (h : GoInv d s) (hn : n ∉ s.written) (hr : s.returned n = none)
    (hno : env.iMutexResult ≠ 0 ∨ noGoPending s = true) (len : UInt8) :
    GoInv d (s.txSection d env n len).2 := by
  unfold FlowShared.txSection
  split
  · exact h.leave_unwritten hn _
  · rename_i hmutex
    have hstop : GoInv d (s.stop d len) := h.store (hno.resolve_left hmutex) _
    dsimp only
    split
    · exact hstop.leave_unwritten hn _
    · split
      · exact hstop.leave_unwritten hn _
      · exact (hstop.write hn hr).testGo List.mem_cons_self hr

variable (env) in
/-- A send that waits cannot time out: its deadline means that it was woken. -/
theorem GoInv.condTimedwait (h : GoInv d s) (hn : n ∈ s.written) (hr : s.returned n = none) :
    (s.condTimedwait env n).1 = 0 ∧ GoInv d (s.condTimedwait env n).2 := by
  unfold FlowShared.condTimedwait
  split
  · rename_i hwait
    have hearly : ¬ s.stTimeout n ≤ s.now := fun hle =>
      (h.woke n (h.deadline n hn hr hle)).2 hwait
    refine ⟨by simp [hearly], h.stored, h.wrote, fun m hm => ?_, h.deadline, h.success⟩
    obtain ⟨hgo, hout⟩ := h.woke m hm
    exact ⟨hgo, fun hmem => hout (List.mem_filter.mp hmem).1⟩
  · exact ⟨rfl, h⟩

theorem GoInv.storeGo (h : GoInv d s) {info : AntChannelInfo}
    (hinfo : info.ucFlowControlResp = d.flowGo) {go : Nat → Bool}
    (hold : ∀ m, s.go m = true → go m = true) (hnew : ∀ m, go m = true → m ∈ s.written) :
    GoInv d { s with info := info, go := go } :=
  ⟨fun _ _ _ _ => hinfo, hnew, fun m hm => ⟨hold m (h.woke m hm).1, (h.woke m hm).2⟩,
    h.deadline, h.success⟩

theorem GoInv.setFlowControl (h : GoInv d s) (i : Nat) (setting : UInt8)
    (hno : env.iMutexResult ≠ 0 ∨ setting = d.flowGo ∨ noGoPending s = true) :
    GoInv d (s.setFlowControl d env i setting).2 := by
  by_cases hmutex : env.iMutexResult = 0
  · have hno := hno.resolve_left (not_not.mpr hmutex)
    by_cases hgo : setting = d.flowGo
    · simp only [FlowShared.setFlowControl, AntHal.setFlowControl, hmutex, ne_eq,
        not_true_eq_false, if_false, hgo, true_and]
      refine h.storeGo rfl (fun m hm => ?_) fun m hm => ?_
      · split
        · by_cases hmi : m = i
          · rw [hmi, Function.update_self]
          · rwa [Function.update_of_ne hmi]
        · exact hm
      · split at hm
        · rename_i hi
          by_cases hmi : m = i
          · rwa [hmi]
          · rw [Function.update_of_ne hmi] at hm
            exact h.wrote m hm
        · exact h.wrote m hm
    · have hkeep : (s.setFlowControl d env i setting).2 =
          { s with info := { s.info with ucFlowControlResp := setting } } := by
        simp [FlowShared.setFlowControl, AntHal.setFlowControl, hmutex, hgo]
      rw [hkeep]
      exact h.store (hno.resolve_left hgo) _
  · have hkeep : (s.setFlowControl d env i setting).2 = s := by
      simp [FlowShared.setFlowControl, AntHal.setFlowControl, hmutex]
    rw [hkeep]
    exact h

theorem mem_condSignal_waiters {i : Nat} (hm : m ∈ (s.condSignal env i).waiters) :
    m ∈ s.waiters ∧ env.woken m = false := by
  simp only [FlowShared.condSignal] at hm
  split at hm
  · simpa using hm
  · exact nomatch hm

theorem GoInv.condSignal (h : GoInv d s) (i : Nat)
    (hwake : s.go i = true → i ∈ s.waiters → env.woken i = true) :
    GoInv d (s.condSignal env i) := by
  have hsig : ∀ m, (s.condSignal env i).signalled m = true →
      s.signalled m = true ∨ m = i ∧ s.go i = true := by
    intro m hm
    simp only [FlowShared.condSignal] at hm
    split at hm
    · rename_i hgo
      by_cases hmi : m = i
      · exact .inr ⟨hmi, hgo⟩
      · rw [Function.update_of_ne hmi] at hm
        exact .inl hm
    · exact .inl hm
  have hmono : ∀ m, s.signalled m = true → (s.condSignal env i).signalled m = true := by
    intro m hm
    simp only [FlowShared.condSignal]
    split
    · by_cases hmi : m = i
      · rw [hmi, Function.update_self]
      · rw [Function.update_of_ne hmi]
        exact hm
    · exact hm
  refine ⟨h.stored, h.wrote, fun m hm => ?_, fun m hmem hr hle =>
    hmono m (h.deadline m hmem hr hle), h.success⟩
  rcases hsig m hm with hm | ⟨rfl, hgo⟩
  · obtain ⟨hgo, hout⟩ := h.woke m hm
    exact ⟨hgo, fun hmem => hout (mem_condSignal_waiters hmem).1⟩
  · refine ⟨hgo, fun hmem => ?_⟩
    obtain ⟨hwait, hnot⟩ := mem_condSignal_waiters hmem
    rw [hwake hgo hwait] at hnot
    cases hnot

theorem GoInv.tick (h : GoInv d s) (htime : ∀ n ∈ s.written, s.returned n = none →
    s.stTimeout n ≤ s.now + 1 → s.signalled n = true) : GoInv d { s with now := s.now + 1 } :=
  ⟨h.stored, h.wrote, h.woke, htime, h.success⟩

end invariant

section threads
variable {d : HciDefines} {s s' : FlowShared} {env : FlowEnv} {n m : Nat}

/-- Nothing has been written for the send yet. -/
structure Fresh (s : FlowShared) (n : Nat) : Prop where
  written : n ∉ s.written
  waiters : n ∉ s.waiters
  returned : s.returned n = none

/-- The message is written, and the send has not returned. -/
structure UnderWay (s : FlowShared) (n : Nat) : Prop where
  written : n ∈ s.written
  returned : s.returned n = none

/-- Where the thread of a send is. It never leaves a wait with an error. -/
inductive SendAt (s : FlowShared) (n : Nat) : Option FlowThread → Prop where
  | absent (fresh : Fresh s n) : SendAt s n none
  | sending (len : UInt8) (fresh : Fresh s n) : SendAt s n (some ⟨.send n len, sendBody n len⟩)
  | waiting (underWay : UnderWay s n) : SendAt s n (some ⟨.waiting n, waitBody n⟩)
  | woken (underWay : UnderWay s n) (waiters : n ∉ s.waiters) :
    SendAt s n (some ⟨.waiting n, wakeBody n 0⟩)
  | done (l : FlowLabel) (returned : (s.returned n).isSome = true) (waiters : n ∉ s.waiters) :
    SendAt s n (some ⟨l, .ret none⟩)

inductive ReceiverAt : Option FlowThread → Prop where
  | absent : ReceiverAt none
  | between : ReceiverAt (some ⟨.receive, .op .nextPacket storeBody⟩)
  | storing (packet : Nat × UInt8) : ReceiverAt (some ⟨.receive, storeBody packet⟩)
  | signalling (i : Nat) : ReceiverAt (some ⟨.receive, signalBody i 0⟩)
  | failed : ReceiverAt (some ⟨.receive, .ret none⟩)

inductive ClockAt : Option FlowThread → Prop where
  | absent : ClockAt none
  | ticking : ClockAt (some ⟨.clock, flowBody .clock⟩)

/-- Nothing has changed for the send `m`, except that it may have been woken. -/
structure SameFor (m : Nat) (s s' : FlowShared) : Prop where
  written : m ∈ s'.written ↔ m ∈ s.written
  returned : s'.returned m = s.returned m
  waiters : m ∈ s'.waiters → m ∈ s.waiters

theorem SameFor.refl (m : Nat) (s : FlowShared) : SameFor m s s := ⟨Iff.rfl, rfl, id⟩

theorem Fresh.same (h : Fresh s m) (hs : SameFor m s s') : Fresh s' m :=
  ⟨fun hm => h.written (hs.written.mp hm), fun hm => h.waiters (hs.waiters hm),
    hs.returned.trans h.returned⟩

theorem UnderWay.same (h : UnderWay s m) (hs : SameFor m s s') : UnderWay s' m :=
  ⟨hs.written.mpr h.written, hs.returned.trans h.returned⟩

theorem SendAt.same {th : Option FlowThread} (h : SendAt s m th) (hs : SameFor m s s') :
    SendAt s' m th := by
  cases h with
  | absent fresh => exact .absent (fresh.same hs)
  | sending len fresh => exact .sending len (fresh.same hs)
  | waiting underWay => exact .waiting (underWay.same hs)
  | woken underWay waiters =>
      exact .woken (underWay.same hs) fun hm => waiters (hs.waiters hm)
  | done l returned waiters =>
      exact .done l (hs.returned ▸ returned) fun hm => waiters (hs.waiters hm)

theorem leave_same (hmn : m ≠ n) (status : AntStatus) : SameFor m s (s.leave n status).2 :=
  ⟨Iff.rfl, Function.update_of_ne hmn _ _, id⟩

theorem testGo_same (hmn : m ≠ n) : SameFor m s (s.testGo d n).2 := by
  unfold FlowShared.testGo
  split
  · exact ⟨Iff.rfl, rfl, fun hm => (List.mem_cons.mp hm).resolve_left hmn⟩
  · exact leave_same hmn _

theorem txSection_same (hmn : m ≠ n) (len : UInt8) :
    SameFor m s (s.txSection d env n len).2 := by
  unfold FlowShared.txSection
  split
  · exact leave_same hmn _
  · dsimp only
    split
    · exact ⟨Iff.rfl, Function.update_of_ne hmn _ _, id⟩
    · split
      · exact ⟨Iff.rfl, Function.update_of_ne hmn _ _, id⟩
      · obtain ⟨hwritten, hreturned, hwaiters⟩ := testGo_same (d := d) (s := { s.stop d len with
          stTimeout := Function.update s.stTimeout n (s.now + antFlowGoWaitTimeoutSec)
          written := n :: s.written }) hmn
        refine ⟨hwritten.trans ?_, hreturned, hwaiters⟩
        simp [hmn]

theorem condTimedwait_same (m : Nat) : SameFor m s (s.condTimedwait env n).2 := by
  unfold FlowShared.condTimedwait
  split
  · exact ⟨Iff.rfl, rfl, fun hm => (List.mem_filter.mp hm).1⟩
  · exact .refl m s

theorem not_mem_condTimedwait : n ∉ (s.condTimedwait env n).2.waiters := by
  unfold FlowShared.condTimedwait
  split
  · simp
  · assumption

theorem condTimedwait_underWay (h : UnderWay s n) :
    UnderWay (s.condTimedwait env n).2 n := by
  unfold FlowShared.condTimedwait
  split
  · exact ⟨h.written, h.returned⟩
  · exact h

theorem wakeSection_zero : s.wakeSection d n 0 = s.testGo d n := by
  simp [FlowShared.wakeSection]

/-- A send behind the test of its loop, with `l` the label it came from. -/
theorem sendAt_testGo (l : FlowLabel) (h : UnderWay s n) (hout : n ∉ s.waiters) :
    SendAt (s.testGo d n).2 n
      (some ((flowMachine d).resume l (.ret (continueWait n (s.testGo d n).1)))) := by
  unfold FlowShared.testGo
  split
  · exact .waiting ⟨h.written, h.returned⟩
  · exact .done l (by simp [FlowShared.leave]) hout

theorem sendAt_txSection (l : FlowLabel) (h : Fresh s n) (len : UInt8) :
    SendAt (s.txSection d env n len).2 n
      (some ((flowMachine d).resume l (.ret (continueWait n (s.txSection d env n len).1)))) := by
  unfold FlowShared.txSection
  split
  · exact .done l (by simp [FlowShared.leave]) h.waiters
  · dsimp only
    split
    · exact .done l (by simp [FlowShared.leave]) h.waiters
    · split
      · exact .done l (by simp [FlowShared.leave]) h.waiters
      · exact sendAt_testGo l ⟨List.mem_cons_self, h.returned⟩ h.waiters

/-- All threads are where they should be, and the invariant holds. -/
structure FlowHolds (d : HciDefines) (c : FlowConfig) : Prop where
  inv : GoInv d c.shared
  sends : ∀ n, SendAt c.shared n (c.pool (.sender n))
  receiver : ReceiverAt (c.pool .receiver)
  clock : ClockAt (c.pool .clock)

end threads

section steps
variable {d : HciDefines} {c c' : FlowConfig} {env : FlowEnv} {n : Nat}

/-- The condition under which the steps of a run keep every GO. -/
def keeps (d : HciDefines) (c : FlowConfig) (mv : Move FlowLabel FlowTid FlowEnv) : Prop :=
  timely c mv = true ∧ keepsGo d c mv = true

theorem noSpawn {t : FlowTid} {l : FlowLabel} {o : FlowOp}
    {k : o.Res → FlowCmd (Option FlowLabel)} (ha : (flowMachine d).Acts t env c c' l o k)
    {u : FlowTid} (hut : u ≠ t) : c'.pool u = c.pool u :=
  ha.others u hut fun _ h => nomatch h

/-- A step of a send keeps everything, if the others see no difference. -/
theorem flowHolds_send {l : FlowLabel} {o : FlowOp} {k : o.Res → FlowCmd (Option FlowLabel)}
    (h : FlowHolds d c) (ha : (flowMachine d).Acts (.sender n) env c c' l o k)
    (hinv : GoInv d (flowEffect d env o c.shared).2)
    (hself : SendAt (flowEffect d env o c.shared).2 n
      (some ((flowMachine d).resume l (k (flowEffect d env o c.shared).1))))
    (hsame : ∀ m, m ≠ n → SameFor m c.shared (flowEffect d env o c.shared).2) :
    FlowHolds d c' := by
  have hshared : c'.shared = (flowEffect d env o c.shared).2 := ha.shared
  refine ⟨hshared ▸ hinv, fun m => ?_, ?_, ?_⟩
  · rw [hshared]
    by_cases hmn : m = n
    · subst hmn
      rw [ha.self.2]
      exact hself
    · rw [noSpawn ha (by simpa using hmn)]
      exact (h.sends m).same (hsame m hmn)
  · rw [noSpawn ha (by simp)]
    exact h.receiver
  · rw [noSpawn ha (by simp)]
    exact h.clock

theorem flowHolds_sender {l : FlowLabel} {o : FlowOp} {k : o.Res → FlowCmd (Option FlowLabel)}
    (h : FlowHolds d c) (ha : (flowMachine d).Acts (.sender n) env c c' l o k)
    (hC : keeps d c (.act (.sender n) env)) : FlowHolds d c' := by
  have hat := h.sends n
  rw [ha.thread] at hat
  generalize hth : some (⟨l, .op o k⟩ : FlowThread) = th at hat
  cases hat with
  | absent fresh => cases hth
  | sending len fresh =>
      cases hth
      have hno : env.iMutexResult ≠ 0 ∨ noGoPending c.shared = true := by
        simpa [keepsGo, ha.thread, Thread.head?] using hC.2
      exact flowHolds_send h ha (h.inv.txSection fresh.written fresh.returned hno len)
        (sendAt_txSection _ fresh len) fun m hmn => txSection_same hmn len
  | waiting underWay =>
      cases hth
      obtain ⟨hzero, hinv⟩ := h.inv.condTimedwait env underWay.written
        underWay.returned
      refine flowHolds_send h ha hinv ?_ fun m _ => condTimedwait_same m
      have hcode : (flowMachine d).resume (.waiting n)
          (wakeBody n (c.shared.condTimedwait env n).1) = ⟨.waiting n, wakeBody n 0⟩ := by
        rw [hzero]
        rfl
      exact hcode ▸ .woken (condTimedwait_underWay underWay) not_mem_condTimedwait
  | woken underWay waiters =>
      cases hth
      have hstep : flowEffect d env (.wakeSection n 0) c.shared = c.shared.testGo d n :=
        wakeSection_zero
      refine flowHolds_send h ha ?_ ?_ fun m hmn => ?_
      · rw [hstep]
        exact h.inv.testGo underWay.written underWay.returned
      · rw [hstep]
        exact sendAt_testGo _ underWay waiters
      · rw [hstep]
        exact testGo_same hmn
  | done l' returned waiters => cases hth

theorem flowHolds_other {t : FlowTid} {l : FlowLabel} {o : FlowOp}
    {k : o.Res → FlowCmd (Option FlowLabel)} (h : FlowHolds d c)
    (ha : (flowMachine d).Acts t env c c' l o k) (ht : ∀ n, t ≠ .sender n)
    (hinv : GoInv d (flowEffect d env o c.shared).2)
    (hsame : ∀ m, SameFor m c.shared (flowEffect d env o c.shared).2)
    (hreceiver : ReceiverAt (c'.pool .receiver)) (hclock : ClockAt (c'.pool .clock)) :
    FlowHolds d c' := by
  have hshared : c'.shared = (flowEffect d env o c.shared).2 := ha.shared
  refine ⟨hshared ▸ hinv, fun m => ?_, hreceiver, hclock⟩
  rw [hshared, noSpawn ha (Ne.symm (ht m))]
  exact (h.sends m).same (hsame m)

/-- Behind a store the receive thread signals, or ends if the lock has failed. -/
theorem receiverAt_stored {packet : Nat × UInt8}
    (ha : (flowMachine d).Acts .receiver env c c' .receive (.setFlowControl packet.1 packet.2)
      (signalBody packet.1)) : ReceiverAt (c'.pool .receiver) := by
  rw [ha.self.2]
  by_cases hmutex : env.iMutexResult = 0
  · have hzero : ((flowMachine d).effect .receiver env
        (.setFlowControl packet.1 packet.2) c.shared).1 = 0 := by
      simp [flowMachine, flowEffect, FlowShared.setFlowControl, setFlowControl, hmutex]
    rw [hzero]
    exact .signalling packet.1
  · have hfail : ((flowMachine d).effect .receiver env
        (.setFlowControl packet.1 packet.2) c.shared).1 = -1 := by
      simp [flowMachine, flowEffect, FlowShared.setFlowControl, setFlowControl, hmutex]
    rw [hfail]
    exact .failed

theorem flowHolds_receiver {l : FlowLabel} {o : FlowOp}
    {k : o.Res → FlowCmd (Option FlowLabel)} (h : FlowHolds d c)
    (ha : (flowMachine d).Acts .receiver env c c' l o k)
    (hC : keeps d c (.act .receiver env)) : FlowHolds d c' := by
  have hclock : ClockAt (c'.pool .clock) := by
    rw [noSpawn ha (by simp)]
    exact h.clock
  have hat := h.receiver
  rw [ha.thread] at hat
  generalize hth : some (⟨l, .op o k⟩ : FlowThread) = th at hat
  cases hat with
  | absent => cases hth
  | between =>
      cases hth
      refine flowHolds_other h ha (by simp) h.inv (fun m => .refl m _) ?_ hclock
      rw [ha.self.2]
      exact .storing _
  | storing packet =>
      cases hth
      have hno : env.iMutexResult ≠ 0 ∨ packet.2 = d.flowGo ∨
          noGoPending c.shared = true := by
        simpa [keepsGo, ha.thread, Thread.head?, or_assoc] using hC.2
      refine flowHolds_other h ha (by simp) (h.inv.setFlowControl packet.1 packet.2 hno)
        (fun m => ⟨Iff.rfl, rfl, id⟩) ?_ hclock
      exact receiverAt_stored ha
  | signalling i =>
      cases hth
      have hwake : c.shared.go i = true → i ∈ c.shared.waiters → env.woken i = true := by
        intro hgo hmem
        simpa [keepsGo, ha.thread, Thread.head?, hgo, hmem] using hC.2
      refine flowHolds_other h ha (by simp) (h.inv.condSignal i hwake)
        (fun m => ⟨Iff.rfl, rfl, fun hm => (mem_condSignal_waiters hm).1⟩) ?_ hclock
      rw [ha.self.2]
      exact .between
  | failed => cases hth

theorem flowHolds_clock {l : FlowLabel} {o : FlowOp} {k : o.Res → FlowCmd (Option FlowLabel)}
    (h : FlowHolds d c) (ha : (flowMachine d).Acts .clock env c c' l o k)
    (hC : keeps d c (.act .clock env)) : FlowHolds d c' := by
  have hreceiver : ReceiverAt (c'.pool .receiver) := by
    rw [noSpawn ha (by simp)]
    exact h.receiver
  have hat := h.clock
  rw [ha.thread] at hat
  generalize hth : some (⟨l, .op o k⟩ : FlowThread) = th at hat
  cases hat with
  | absent => cases hth
  | ticking =>
      cases hth
      have htime : ∀ n ∈ c.shared.written, c.shared.returned n = none →
          c.shared.stTimeout n ≤ c.shared.now + 1 → c.shared.signalled n = true := by
        intro n hn hr hle
        have htimely := hC.1
        simp only [timely, ha.thread, Option.bind_some, Thread.head?] at htimely
        have := List.all_eq_true.mp htimely n hn
        simpa [hr, Nat.not_lt.mpr hle] using this
      refine flowHolds_other h ha (by simp) (h.inv.tick htime)
        (fun m => ⟨Iff.rfl, rfl, id⟩) hreceiver ?_
      rw [ha.self.2]
      exact .ticking

/-- A start puts a new thread where there was none. -/
theorem start_kept {t : FlowTid} {l : FlowLabel} {P : Nat → Option FlowThread → Prop}
    (hs : (flowMachine d).step (.start t l) c = some c')
    (hnew : ∀ n len, P n none → P n (some ⟨.send n len, sendBody n len⟩))
    (hsends : ∀ n, P n (c.pool (.sender n))) (hreceiver : ReceiverAt (c.pool .receiver))
    (hclock : ClockAt (c.pool .clock)) :
    c'.shared = c.shared ∧ (∀ n, P n (c'.pool (.sender n))) ∧
      ReceiverAt (c'.pool .receiver) ∧ ClockAt (c'.pool .clock) := by
  obtain ⟨hentry, hfree, rfl⟩ := Machine.step_start hs
  cases t with
  | sender n =>
      cases l <;> simp only [flowMachine, isFlowEntry, decide_eq_true_eq,
        Bool.false_eq_true] at hentry
      subst hentry
      refine ⟨rfl, fun m => ?_, ?_, ?_⟩ <;> dsimp only
      · by_cases hmn : m = n
        · subst hmn
          rw [Function.update_self]
          exact hnew m _ (hfree ▸ hsends m)
        · rw [Function.update_of_ne (by simpa using hmn)]
          exact hsends m
      · rw [Function.update_of_ne (by simp)]
        exact hreceiver
      · rw [Function.update_of_ne (by simp)]
        exact hclock
  | receiver =>
      cases l <;> simp only [flowMachine, isFlowEntry, Bool.false_eq_true] at hentry
      refine ⟨rfl, fun m => ?_, ?_, ?_⟩ <;> dsimp only
      · rw [Function.update_of_ne (by simp)]
        exact hsends m
      · rw [Function.update_self]
        exact .between
      · rw [Function.update_of_ne (by simp)]
        exact hclock
  | clock =>
      cases l <;> simp only [flowMachine, isFlowEntry, Bool.false_eq_true] at hentry
      refine ⟨rfl, fun m => ?_, ?_, ?_⟩ <;> dsimp only
      · rw [Function.update_of_ne (by simp)]
        exact hsends m
      · rw [Function.update_of_ne (by simp)]
        exact hreceiver
      · rw [Function.update_self]
        exact .ticking

theorem flowHolds_start {t : FlowTid} {l : FlowLabel} (h : FlowHolds d c)
    (hs : (flowMachine d).step (.start t l) c = some c') : FlowHolds d c' := by
  obtain ⟨hshared, hsends, hreceiver, hclock⟩ := start_kept hs
    (fun n len hat => by
      cases hat with
      | absent fresh => exact SendAt.sending len fresh) h.sends h.receiver h.clock
  exact ⟨hshared ▸ h.inv, hshared ▸ hsends, hreceiver, hclock⟩

theorem flowHolds_step (h : FlowHolds d c) {mv : Move FlowLabel FlowTid FlowEnv}
    (hC : keeps d c mv) (hs : (flowMachine d).step mv c = some c') : FlowHolds d c' := by
  cases mv with
  | start t l => exact flowHolds_start h hs
  | act t env =>
      obtain ⟨l, o, k, ha⟩ := Machine.step_act hs
      cases t with
      | sender n => exact flowHolds_sender h ha hC
      | receiver => exact flowHolds_receiver h ha hC
      | clock => exact flowHolds_clock h ha hC

/-- A send that has been signalled succeeds by its own next steps. -/
theorem FlowHolds.succeeds (h : FlowHolds d c) {n : Nat} (hn : n ∈ c.shared.written)
    (hsig : c.shared.signalled n = true) : c.shared.returned n = some .success ∨
      ∃ th, c.pool (.sender n) = some th ∧
        ∀ env, ((th.code.run (flowEffect d env) c.shared).2).returned n = some .success := by
  obtain ⟨hgo, hout⟩ := h.inv.woke n hsig
  have hat := h.sends n
  generalize hth : c.pool (.sender n) = th at hat
  have htest : UnderWay c.shared n →
      ((c.shared.testGo d n).2).returned n = some .success := by
    intro hway
    have hresp := h.inv.stored n hn hway.returned hgo
    simp [FlowShared.testGo, hresp, FlowShared.leave]
  cases hat with
  | absent fresh => exact absurd hn fresh.written
  | sending len fresh => exact absurd hn fresh.written
  | waiting underWay =>
      refine .inr ⟨_, rfl, fun env => ?_⟩
      have hwait : c.shared.condTimedwait env n = (0, c.shared) := by
        simp [FlowShared.condTimedwait, hout]
      simp only [waitBody, wakeBody, Prog.run_op, Prog.run_ret, flowEffect, hwait,
        wakeSection_zero]
      exact htest underWay
  | woken underWay waiters =>
      refine .inr ⟨_, rfl, fun env => ?_⟩
      simp only [wakeBody, Prog.run_op, Prog.run_ret, flowEffect, wakeSection_zero]
      exact htest underWay
  | done l returned waiters =>
      obtain ⟨status, hstatus⟩ := Option.isSome_iff_exists.mp returned
      rw [hstatus, h.inv.success n hn status hstatus]
      exact .inl rfl

/-- In a run in which the chip answers in time and every GO is kept, each send
whose GO has been signalled succeeds, and none fails. -/
theorem go_kept {info : AntChannelInfo} (h : (flowMachine d).Path (keeps d) (flowInit info) c) :
    GoKept d c := by
  have hinit : FlowHolds d (flowInit info) :=
    ⟨⟨nofun, nofun, nofun, nofun, nofun⟩, fun _ => .absent ⟨nofun, nofun, rfl⟩, .absent, .absent⟩
  have hholds := h.invariant (fun _ _ _ hx hC hs => flowHolds_step hx hC hs) hinit
  exact fun n hn => ⟨hholds.inv.success n hn, fun hsig =>
    ⟨(hholds.inv.woke n hsig).2, hholds.succeeds hn hsig⟩⟩

/-- One send, and the GO that answers it. -/
def sendAnswered : List (Move FlowLabel FlowTid FlowEnv) :=
  [.start (.sender 0) (.send 0 3), .act (.sender 0) { write := 3 }, .start .receiver .receive,
    .act .receiver { packet := (0, 0) }, .act .receiver {}, .act .receiver {}]

theorem go_kept_answered : ∃ c : FlowConfig, 0 ∈ c.shared.written ∧
    c.shared.signalled 0 = true ∧ GoKept .shipped c := by
  obtain ⟨c, hpath, hc⟩ := Machine.exec_any (flowMachine .shipped)
    (fun c mv => timely c mv && keepsGo .shipped c mv) sendAnswered
    (flowInit ⟨3, true, 0, 0⟩)
    (fun c => decide (0 ∈ c.shared.written) && c.shared.signalled 0) (by decide)
  simp only [Bool.and_eq_true, decide_eq_true_eq] at hc
  exact ⟨c, hc.1, hc.2, go_kept (hpath.mono fun _ _ h => by simpa [keeps] using h)⟩

/-- The first send is answered and woken, but a second one stops the channel
before it looks. The GO of the second send wakes the second send only, and the
first one waits until its deadline. -/
def goOverwritten : List (Move FlowLabel FlowTid FlowEnv) :=
  sendAnswered ++
    [.start .clock .clock, .start (.sender 1) (.send 1 3), .act (.sender 1) { write := 3 },
      .act (.sender 0) {}, .act (.sender 0) {}, .act .receiver { packet := (1, 0) },
      .act .receiver {}, .act .receiver { woken := fun n => n = 1 }, .act (.sender 1) {},
      .act (.sender 1) {}] ++
    List.replicate 10 (.act .clock {}) ++
      [.act (.sender 0) { expired := true }, .act (.sender 0) {}]

theorem go_lost :
    ¬ ∀ (d : HciDefines) (info : AntChannelInfo) (c : FlowConfig),
      (flowMachine d).Path (fun x mv => timely x mv = true) (flowInit info) c → GoKept d c := by
  intro h
  obtain ⟨c, hpath, hc⟩ := Machine.exec_any (flowMachine .shipped) timely
    goOverwritten (flowInit ⟨3, true, 0, 0⟩)
    (fun c => decide (0 ∈ c.shared.written) && c.shared.signalled 0 &&
      decide (c.shared.returned 0 = some .hardwareErr)) (by decide)
  simp only [Bool.and_eq_true, decide_eq_true_eq] at hc
  obtain ⟨⟨hwritten, -⟩, hreturned⟩ := hc
  have hstatus := (h .shipped _ c hpath 0 hwritten).1 _ hreturned
  cases hstatus

end steps
end AntHal

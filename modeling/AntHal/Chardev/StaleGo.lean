import AntHal.Chardev.FlowGo

/-!
Does a send ever succeed on a GO that was there before its message?

The channel is stopped in the section that writes the message, and only
`setFlowControl` stores anything else. So a response byte that reads GO at the
test of a send has been stored since the send has written, whatever the other
senders have done to it in between.
-/

namespace AntHal

open Concurrency

section property
variable (d : HciDefines)

/-- The receive thread is about to store this setting. -/
def storesSetting (x : FlowConfig) (setting : UInt8) : Prop :=
  ∃ i, (x.pool .receiver).bind Thread.head? = some (.setFlowControl i setting)

/-- `setFlowControl` stores a GO while the send, completely written, is under way. -/
def StoresGoFor (n : Nat) (x : FlowConfig) (mv : Move FlowLabel FlowTid FlowEnv)
    (y : FlowConfig) : Prop :=
  storesSetting x d.flowGo ∧ (∃ env : FlowEnv, mv = .act .receiver env ∧ env.iMutexResult = 0) ∧
    UnderWay x.shared n ∧ UnderWay y.shared n

end property

section invariant
variable {d : HciDefines}

/-- Where the thread of a send is, in any run. -/
inductive StageAt (s : FlowShared) (n : Nat) : Option FlowThread → Prop where
  | absent (fresh : Fresh s n) : StageAt s n none
  | sending (len : UInt8) (fresh : Fresh s n) : StageAt s n (some ⟨.send n len, sendBody n len⟩)
  | waiting (underWay : UnderWay s n) : StageAt s n (some ⟨.waiting n, waitBody n⟩)
  | woken (iCondWaitResult : Int) (underWay : UnderWay s n) :
    StageAt s n (some ⟨.waiting n, wakeBody n iCondWaitResult⟩)
  | done (l : FlowLabel) : StageAt s n (some ⟨l, .ret none⟩)

theorem StageAt.same {s s' : FlowShared} {m : Nat} {th : Option FlowThread}
    (h : StageAt s m th) (hs : SameFor m s s') : StageAt s' m th := by
  cases h with
  | absent fresh => exact .absent (fresh.same hs)
  | sending len fresh => exact .sending len (fresh.same hs)
  | waiting underWay => exact .waiting (underWay.same hs)
  | woken r underWay => exact .woken r (underWay.same hs)
  | done l => exact .done l

/-- The step makes no send succeed, and brings no GO near a send. -/
structure AddsNoGo (d : HciDefines) (s s' : FlowShared) : Prop where
  stored : s'.info.ucFlowControlResp = d.flowGo →
    s.info.ucFlowControlResp = d.flowGo ∧ ∀ m, UnderWay s' m → UnderWay s m
  success : ∀ m, s'.returned m = some .success → s.returned m = some .success

theorem UnderWay.of_leave {s : FlowShared} {m n : Nat} {status : AntStatus}
    (h : UnderWay (s.leave n status).2 m) : UnderWay s m := by
  refine ⟨h.written, ?_⟩
  have hret := h.returned
  dsimp only [FlowShared.leave] at hret
  by_cases hmn : m = n
  · subst hmn
    rw [Function.update_self] at hret
    cases hret
  · rwa [Function.update_of_ne hmn] at hret

/-- To leave with a failure keeps the response byte and ends the send. -/
theorem AddsNoGo.leave {s s' : FlowShared} (h : AddsNoGo d s s') (n : Nat) {status : AntStatus}
    (hstatus : status ≠ .success) : AddsNoGo d s (s'.leave n status).2 := by
  refine ⟨fun hgo => ⟨(h.stored hgo).1, fun m hm => (h.stored hgo).2 m hm.of_leave⟩,
    fun m hm => h.success m ?_⟩
  dsimp only [FlowShared.leave] at hm
  by_cases hmn : m = n
  · subst hmn
    rw [Function.update_self] at hm
    exact absurd (Option.some.inj hm) hstatus
  · rwa [Function.update_of_ne hmn] at hm

/-- A GO in the response byte, or in the answer of a send, is never an old one. -/
structure NotStale (d : HciDefines) (init c : FlowConfig) : Prop where
  stored : ∀ n, UnderWay c.shared n → c.shared.info.ucFlowControlResp = d.flowGo →
    (flowMachine d).Occurred (StoresGoFor d n) init c
  success : ∀ n, c.shared.returned n = some .success →
    (flowMachine d).Occurred (StoresGoFor d n) init c

theorem NotStale.keep {init c c' : FlowConfig} {mv : Move FlowLabel FlowTid FlowEnv}
    (h : NotStale d init c) (hs : (flowMachine d).step mv c = some c')
    (hadds : AddsNoGo d c.shared c'.shared) : NotStale d init c' := by
  refine ⟨fun n hway hgo => ?_, fun n hret => ?_⟩
  · obtain ⟨hgo', hback⟩ := hadds.stored hgo
    exact (h.stored n (hback n hway) hgo').later hs
  · exact (h.success n (hadds.success n hret)).later hs

end invariant

section steps
variable {d : HciDefines} {init c c' : FlowConfig} {env : FlowEnv} {n : Nat}

end steps
end AntHal

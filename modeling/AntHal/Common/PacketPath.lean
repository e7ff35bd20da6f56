import AntHal.Common.MessagePath
import AntHal.Bluez.LiveReceiver
import AntHal.Bluez.PacketFormats
import AntHal.Concurrency.Trace

/-!
The path of a packet from the controller to Java, over the BlueZ back end.

A receive thread reads one packet at a time. The payload of a valid one is in its
hand until it is passed to the callback, and the thread reads no packet before that.
-/

namespace AntHal.Bluez

open Concurrency Jni

/-- The payload of a valid packet. -/
def payload? (b : Build) (len : Nat) (buf : Memory) : Option (List UInt8) :=
  let hciPayloadLen := validateHciEventPacket b.board buf len
  if hciPayloadLen = -1 then none else some (payloadSlice b.board buf hciPayloadLen.toNat)

def readPayload? (b : Build) : Step Op Op.Res → Option (List UInt8)
  | ⟨.read _, .ok (len, buf)⟩ => payload? b len buf
  | _ => none

/-- The payloads of the valid packets that have been read, in their order. -/
def payloadsRead (b : Build) (es : List (Step Op Op.Res)) : List (List UInt8) :=
  es.filterMap (readPayload? b)

/-- The messages that thread `t` has passed to Java. -/
def messagesFrom {σ : Type} (t : Tid) (s : Bridged σ) : List (List UInt8) :=
  (passedOn t s.passed).filterMap fun p => p.1.message?

/-- What may be done with this in the hand of the thread. -/
def MayDo (inHand : Option (List UInt8)) : Op → Prop
  | .getRxCallback => True
  | .rxCallback payload => inHand = some payload
  | _ => inHand = none

/-- What is in the hand of the thread behind an operation. -/
def inHandAfter (b : Build) (inHand : Option (List UInt8)) : (o : Op) → o.Res → Option (List UInt8)
  | .read _, .ok (len, buf) => payload? b len buf
  | .getRxCallback, false => none
  | .rxCallback _, _ => none
  | _, _ => inHand

/-- The program passes on what is in the hand of the thread and what it takes there. -/
def Carries {α : Type} (b : Build) (Q : α → Prop) : Option (List UInt8) → Cmd α → Prop
  | inHand, .ret a => inHand = none ∧ Q a
  | inHand, .op o k => MayDo inHand o ∧ ∀ r, Carries b Q (inHandAfter b inHand o r) (k r)

/-- A receive thread goes on at one of its labels. -/
def AtRx (next : Option Label) : Prop := ∀ l, next = some l → l.isRx = true

/-- Each valid packet that a receive thread has read is passed to Java once, in the
order of the reads, and nothing else is; the last one may be on its way. -/
structure PacketPath (b : Build) (n : Nat) (es : List (Step Op Op.Res))
    (c : Config Op Op.Res Label Tid (Bridged Shared)) (inHand : Option (List UInt8)) : Prop where
  passed : payloadsRead b es = messagesFrom (.rx n) c.shared ++ inHand.toList
  onItsWay : ∀ payload, inHand = some payload → ∃ th, c.pool (.rx n) = some th ∧
    (th.head? = some .getRxCallback ∨ th.head? = some (.rxCallback payload))

section packets
variable {b : Build} {len : Nat} {buf : Memory}

theorem payload?_valid (h : ValidPacket b.board buf len) :
    payload? b len buf = some (payloadSlice b.board buf (len - b.board.hciEventTotalOverhead)) := by
  have hmin := h.minimum
  have hlen : (len - b.board.hciEventTotalOverhead : Int).toNat =
      len - b.board.hciEventTotalOverhead := by omega
  simp only [payload?, h.result, hlen]
  exact if_neg (by omega)

/-- `deliver` passes on just that. -/
theorem deliver_eq :
    deliver b len buf = (payload? b len buf).elim (.ret ()) passToCallback := by
  by_cases h : ValidPacket b.board buf len
  · rw [deliver_valid h, payload?_valid h]
    rfl
  · have hneg := validateHciEventPacket_neg_iff.mpr h
    simp only [deliver, payload?, hneg, if_true]
    rfl

end packets

section carrying
variable {b : Build} {α β : Type} {Q : α → Prop} {inHand : Option (List UInt8)}

theorem carries_bind {p : Cmd α} {f : α → Cmd β} {Q : β → Prop}
    (h : Carries b (fun a => Carries b Q none (f a)) inHand p) :
    Carries b Q inHand (p >>= f) := by
  induction p generalizing inHand with
  | ret a =>
      obtain ⟨rfl, h⟩ := h
      exact h
  | op o k ih => exact ⟨h.1, fun r => ih r (h.2 r)⟩

theorem Carries.mono {p : Cmd α} {R : α → Prop} (h : Carries b Q inHand p) (hQR : ∀ a, Q a → R a) :
    Carries b R inHand p := by
  induction p generalizing inHand with
  | ret a => exact ⟨h.1, hQR a h.2⟩
  | op o k ih => exact ⟨h.1, fun r => ih r (h.2 r)⟩

/-- Nothing is taken to the hand or passed on. -/
def leavesHandOp : Op → Bool
  | .read _ | .getRxCallback | .rxCallback _ => false
  | _ => true

def LeavesHand (o : Op) : Prop := leavesHandOp o = true

theorem mayDo_none {o : Op} (h : LeavesHand o) :
    MayDo none o ∧ ∀ r, inHandAfter b none o r = none := by
  cases o with
  | read | getRxCallback | rxCallback => cases h
  | _ => exact ⟨rfl, fun _ => rfl⟩

theorem carries_only {p : Cmd α} (h : p.Only LeavesHand Q) : Carries b Q none p := by
  induction p with
  | ret a => exact ⟨rfl, h⟩
  | op o k ih =>
      obtain ⟨ho, hk⟩ := (Prog.only_op o k).mp h
      obtain ⟨hmay, hafter⟩ := mayDo_none (b := b) ho
      exact ⟨hmay, fun r => (hafter r).symm ▸ ih r (hk r)⟩

theorem leavesHand_of_call {o : Op} (h : IsCall o) : LeavesHand o := by
  cases o <;> first | rfl | cases h

/-- With a payload in its hand the thread looks for the callback and calls it. -/
theorem carries_deliver (len : Nat) (buf : Memory) :
    Carries b (fun _ => True) (payload? b len buf) (deliver b len buf) := by
  rw [deliver_eq]
  cases payload? b len buf with
  | none => exact ⟨rfl, trivial⟩
  | some payload =>
      refine ⟨trivial, fun set => ?_⟩
      cases set with
      | false => exact ⟨rfl, trivial⟩
      | true => exact ⟨rfl, fun _ => ⟨rfl, trivial⟩⟩

theorem atRx_some {l : Label} (hl : l.isRx = true) : AtRx (some l) :=
  fun _ h => Option.some.inj h ▸ hl

theorem carries_rxRead (fd : Int) : Carries b AtRx none (rxRead b fd) := by
  refine ⟨rfl, fun packet => ?_⟩
  cases packet with
  | again => exact ⟨rfl, atRx_some rfl⟩
  | error => exact ⟨rfl, atRx_some rfl⟩
  | ok packet =>
      have hdeliver : Carries b AtRx (payload? b packet.1 packet.2)
          (deliver b packet.1 packet.2 >>= fun _ => .ret (some (.rxLoop fd))) :=
        carries_bind ((carries_deliver packet.1 packet.2).mono fun _ _ => ⟨rfl, atRx_some rfl⟩)
      exact hdeliver

/-- The check of every label of a receive thread. -/
theorem carries_body {l : Label} (hl : l.isRx = true) : Carries b AtRx none (body b l) := by
  have hend : AtRx none := fun _ h => by cases h
  have hcalls {α : Type} {p : Cmd α} (h : Calls p) : p.Only LeavesHand fun _ => True :=
    h.mono (fun _ => leavesHand_of_call) fun _ h => h
  cases l with
  | rxRead fd => exact carries_rxRead fd
  | rxStart =>
      refine carries_only ?_
      simp only [body, rxStart, createHciSock, Prog.op_bind, Prog.ret_bind, Prog.pure_eq,
        Prog.only_op, Prog.only_ite]
      exact ⟨rfl, fun _ => ⟨rfl, fun fd =>
        ⟨fun _ => hend, fun _ => ⟨rfl, fun _ =>
          ⟨fun _ => atRx_some rfl, fun _ => atRx_some rfl⟩⟩⟩⟩⟩
  | rxLoop fd =>
      refine carries_only ((hcalls getAndSetRadioStatus_queries.controls.calls).bind fun _ _ => ?_)
      exact Prog.only_ite.mpr ⟨fun _ => atRx_some rfl, fun _ => atRx_some rfl⟩
  | rxPoll fd =>
      refine carries_only ((Prog.only_op _ _).mpr ⟨rfl, fun n => ?_⟩)
      cases n with
      | again => exact atRx_some rfl
      | error => exact atRx_some rfl
      | ok n => exact atRx_some (by dsimp only; split <;> rfl)
  | rxClose fd =>
      refine carries_only ((Prog.only_op _ _).mpr ⟨rfl, fun result => ?_⟩)
      refine (hcalls (crashCleanUp_calls result)).bind fun _ _ => ?_
      exact (Prog.only_op _ _).mpr ⟨rfl, fun _ => hend⟩
  | enableRadio | disableRadio | radioEnabledStatus | txMessage | txWrite | txWait | txRead
    | txClose => cases hl

end carrying

section running
variable {b : Build} {stateCallback : Bool} {n : Nat} {es : List (Step Op Op.Res)}
  {c d : Config Op Op.Res Label Tid (Bridged Shared)} {inHand : Option (List UInt8)}

theorem pfRxCallback_kept (t : Tid) (env : Env) (o : Op) (s : Shared) :
    (effect t env o s).2.pfRxCallback = s.pfRxCallback := by
  cases o with
  | mutexLock | mutexTrylock | pthreadCreate | read | writev =>
      simp only [effect]
      repeat' split
      all_goals rfl
  | _ => rfl

/-- What an operation takes to the hand or passes on; the callback is set. -/
theorem hand_effect (t : Tid) (env : Env) {o : Op} {s : Shared} (hset : s.pfRxCallback = true)
    (h : MayDo inHand o) :
    inHand.toList ++ (readPayload? b ⟨o, (effect t env o s).1⟩).toList =
      (callbacks env o s).filterMap Callback.message? ++
        (inHandAfter b inHand o (effect t env o s).1).toList := by
  cases o with
  | read fd =>
      have hnone : inHand = none := h
      subst hnone
      cases hread : env.read <;> simp [effect, hread, readPayload?, inHandAfter, callbacks]
  | getRxCallback => simp [effect, hset, readPayload?, inHandAfter, callbacks]
  | rxCallback payload =>
      have hsome : inHand = some payload := h
      subst hsome
      rfl
  | _ =>
      have hnone : inHand = none := h
      subst hnone
      rfl

/-- The thread carries what it has read and not passed on. -/
structure Carrying (b : Build) (n : Nat) (es : List (Step Op Op.Res))
    (c : Config Op Op.Res Label Tid (Bridged Shared)) (inHand : Option (List UInt8)) : Prop where
  set : c.shared.backEnd.pfRxCallback = true
  passed : payloadsRead b es = messagesFrom (.rx n) c.shared ++ inHand.toList
  carries : ∀ th, c.pool (.rx n) = some th → Carries b AtRx inHand th.code
  unborn : c.pool (.rx n) = none → inHand = none

theorem messagesFrom_self {t : Tid} {env : BridgedEnv Env} {o : Op} {s : Bridged Shared} :
    messagesFrom t ((backEnd b stateCallback true).bridgedEffect t env o s).2 =
      messagesFrom t s ++ (callbacks env.env o s.backEnd).filterMap Callback.message? := by
  let ps := (backEnd b stateCallback true).passes t env o s.backEnd
  have hcallbacks : ps.map Passed.callback = callbacks env.env o s.backEnd :=
    BackEnd.passes_callback
  change (passedOn t (s.passed ++ ps)).filterMap _ = _
  rw [passedOn_append, List.filterMap_append, passedOn_self BackEnd.passes_thread, ← hcallbacks,
    List.filterMap_map, List.filterMap_map]
  rfl

theorem messagesFrom_other {t u : Tid} {env : BridgedEnv Env} {o : Op} {s : Bridged Shared}
    (hut : u ≠ t) :
    messagesFrom u ((backEnd b stateCallback true).bridgedEffect t env o s).2 =
      messagesFrom u s := by
  let ps := (backEnd b stateCallback true).passes t env o s.backEnd
  change (passedOn u (s.passed ++ ps)).filterMap _ = _
  rw [passedOn_append, passedOn_other BackEnd.passes_thread hut, List.append_nil]
  rfl

theorem carries_resume {l : Label} {p : Cmd (Option Label)} (h : Carries b AtRx inHand p) :
    Carries b AtRx inHand ((backEnd b stateCallback true).bridged.resume l p).code := by
  obtain ⟨l', rfl, hr⟩ | hr := (backEnd b stateCallback true).bridged.resume_cases l p
  · obtain ⟨rfl, hl'⟩ := h
    rw [hr]
    exact carries_body (hl' l' rfl)
  · rw [hr]
    exact h

/-- A step of the receive thread itself. -/
theorem Carrying.own {env : BridgedEnv Env} {l : Label} {o : Op} {k : o.Res → Cmd (Option Label)}
    (h : Carrying b n es c inHand)
    (ha : Machine.Acts (backEnd b stateCallback true).bridged (.rx n) env c d l o k) :
    ∃ inHand', Carrying b n (es ++ [⟨o, (effect (.rx n) env.env o c.shared.backEnd).1⟩]) d
      inHand' := by
  obtain ⟨hmay, hrest⟩ := h.carries _ ha.thread
  have hshared : d.shared =
      ((backEnd b stateCallback true).bridgedEffect (.rx n) env o c.shared).2 := ha.shared
  refine ⟨inHandAfter b inHand o (effect (.rx n) env.env o c.shared.backEnd).1, ?_, ?_, ?_, ?_⟩
  · rw [hshared]
    exact (pfRxCallback_kept _ _ _ _).trans h.set
  · rw [hshared, messagesFrom_self, payloadsRead, List.filterMap_append, List.append_assoc,
      ← hand_effect (.rx n) env.env h.set hmay, ← List.append_assoc, ← h.passed]
    cases hpayload : readPayload? b ⟨o, (effect (.rx n) env.env o c.shared.backEnd).1⟩ <;>
      simp [payloadsRead, hpayload]
  · intro th hth
    rw [ha.self.2] at hth
    cases hth
    exact carries_resume (hrest _)
  · intro hnone
    rw [ha.self.2] at hnone
    cases hnone

/-- Nobody else takes it from its hand. -/
theorem Carrying.other {mv : Move Label Tid (BridgedEnv Env)} (h : Carrying b n es c inHand)
    (hne : ∀ env, mv ≠ .act (.rx n) env)
    (hs : (backEnd b stateCallback true).bridged.step mv c = some d) :
    Carrying b n es d inHand := by
  cases mv with
  | start t l =>
      obtain ⟨hentry, hfree, rfl⟩ := Machine.step_start hs
      have ht : .rx n ≠ t := by
        rintro rfl
        cases hentry
      have hpool : Function.update c.pool t (some ⟨l, body b l⟩) (.rx n) = c.pool (.rx n) :=
        Function.update_of_ne ht _ _
      exact ⟨h.set, h.passed, fun th hth => h.carries th (hpool.symm.trans hth),
        fun hnone => h.unborn (hpool.symm.trans hnone)⟩
  | act t env =>
      obtain ⟨l, o, k, ha⟩ := Machine.step_act hs
      have ht : .rx n ≠ t := by
        rintro rfl
        exact hne env rfl
      have hshared : d.shared = ((backEnd b stateCallback true).bridgedEffect t env o c.shared).2 :=
        ha.shared
      refine ⟨?_, ?_, fun th hth => ?_, fun hnone => ?_⟩
      · rw [hshared]
        exact (pfRxCallback_kept _ _ _ _).trans h.set
      · rw [hshared, messagesFrom_other ht]
        exact h.passed
      · rcases ha.cases hth with ⟨heq, -⟩ | ⟨lu, hspawn, rfl⟩ | ⟨-, hold⟩
        · exact absurd heq ht
        · obtain ⟨-, -, rfl⟩ := spawned_rx hspawn
          rw [h.unborn (ha.created _ _ hspawn).1]
          have hstart : Carries b AtRx none (body b .rxStart) := carries_body rfl
          exact hstart
        · exact h.carries th hold
      · cases hpool : c.pool (.rx n) with
        | none => exact h.unborn hpool
        | some th =>
            have hkept := ha.kept ht hpool
            rw [hnone] at hkept
            cases hkept

theorem carrying_run (h : Machine.ThreadRun (backEnd b stateCallback true).bridged (.rx n)
    c es d) (hc : Carrying b n [] c none) : ∃ inHand, Carrying b n es d inHand := by
  induction h with
  | refl => exact ⟨none, hc⟩
  | own _ ha ih =>
      obtain ⟨inHand, hd⟩ := ih
      exact hd.own ha
  | other _ hne hs ih =>
      obtain ⟨inHand, hd⟩ := ih
      exact ⟨inHand, hd.other hne hs⟩

/-- In every run, whatever the controller sends and the other threads do. -/
theorem packets_passed {vm : Vm} (h : Machine.ThreadRun (backEnd b stateCallback true).bridged
    (.rx n) ((backEnd b stateCallback true).bridgedInit vm) es c) :
    ∃ inHand, PacketPath b n es c inHand := by
  obtain ⟨inHand, hc⟩ := carrying_run h ⟨rfl, rfl, fun th hth => (by cases hth), fun _ => rfl⟩
  refine ⟨inHand, hc.passed, fun payload hpayload => ?_⟩
  subst hpayload
  cases hth : c.pool (.rx n) with
  | none => cases hc.unborn hth
  | some th =>
      obtain ⟨l, code⟩ := th
      refine ⟨_, rfl, ?_⟩
      have hcarries := hc.carries _ hth
      cases code with
      | ret a => cases hcarries.1
      | op o k =>
          have hmay : MayDo (some payload) o := hcarries.1
          cases o with
          | getRxCallback => exact .inl rfl
          | rxCallback payload' =>
              cases hmay
              exact .inr rfl
          | _ => cases hmay

/-- Behind `ant_enable_radio`, packets with this payload arrive. -/
def receiving (steps : Nat) (payload : List UInt8) : List (Move Label Tid (BridgedEnv Env)) :=
  let bytes := encodeVendorEvent .wl12xx 0 payload
  let arriving : Env := { poll := .ok 1, read := .ok (bytes.length, fun i => bytes.getD i 0) }
  let moves : List (Move Label Tid Env) :=
    enabling ++ List.replicate steps (.act (.rx 1) arriving)
  moves.map (answeredBy {})

theorem packets_passed_receiving :
    ∃ es c inHand, messagesFrom (.rx 1) c.shared = [[3, 0x4E, 0]] ∧
      PacketPath ⟨.wl12xx, false⟩ 1 es c inHand := by
  obtain ⟨c, hpath, hc⟩ := Machine.exec_any (backEnd ⟨.wl12xx, false⟩ true true).bridged
    (fun _ _ => true) (receiving 13 [3, 0x4E, 0])
    ((backEnd ⟨.wl12xx, false⟩ true true).bridgedInit loadedVm)
    (fun c => messagesFrom (.rx 1) c.shared = [[3, 0x4E, 0]]) (by decide +kernel)
  obtain ⟨es, hrun⟩ := Machine.exists_threadRun (.rx 1) hpath.reachable
  obtain ⟨inHand, h⟩ := packets_passed hrun
  exact ⟨es, c, inHand, of_decide_eq_true hc, h⟩

end running
end AntHal.Bluez

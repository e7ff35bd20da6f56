import AntHal.Chardev.FrameLoop
import AntHal.Chardev.ReceiveThread

/-!
The receive buffer over whole runs.

Between two calls a buffer holds an incomplete packet, so it is never full and
the next `read` has room. Inside a call the loop moves on with every iteration,
and what it reads, moves and delivers lies among the received bytes.
-/

namespace AntHal

open Framing Concurrency Relation

/-- A buffer that holds less than the packet which its first byte announces. -/
structure RxState.Bounded (rx : RxState) : Prop where
  length_le : rx.iRxBufferLength ≤ 255
  announced : 0 < rx.iRxBufferLength →
    rx.iRxBufferLength < (rx.aucRxBuffer.bytes.getD 0 0).toNat + 1

/-- The room that the next `read` is offered, behind what the buffer holds. -/
def RxState.offered (rx : RxState) : Nat := antHciMaxMsgSize - rx.iRxBufferLength

/-- What one iteration reads, moves and delivers lies among the received bytes. -/
structure LoopState.InBounds (d : HciDefines) (env : ReadEnv) (iRxLenRead : Nat)
    (s : LoopState) : Prop where
  size : s.iCurrentHciPacketOffset + d.sizeOffset < iRxLenRead
  moved : s.Incomplete d env iRxLenRead →
    s.iCurrentHciPacketOffset + s.remainder iRxLenRead ≤ iRxLenRead
  delivered : ¬ s.Incomplete d env iRxLenRead →
    s.iCurrentHciPacketOffset + d.dataOffset + s.iHciDataSize d env ≤ iRxLenRead

/-- A size byte and its payload, which lie at `off` among the received bytes. -/
structure HciDefines.PayloadAt (d : HciDefines) (stream : List UInt8) (off n : Nat)
    (msg : List UInt8) : Prop where
  inside : off + d.dataOffset + n ≤ stream.length
  size : n = (stream.getD (off + d.sizeOffset) 0).toNat
  payload : msg = (stream.drop (off + d.dataOffset)).take n

section proof
variable {rx : RxState} {kept : List UInt8}

theorem RxState.Holds.bounded (h : rx.Holds .shipped kept) : rx.Bounded := by
  have hinc : kept.length < 1 + (kept.getD 0 0).toNat := by
    simpa [Format.Complete, HciDefines.format, HciDefines.shipped, SizeField.bytes] using
      h.incomplete
  have hbyte := (kept.getD 0 0).toNat_lt
  refine ⟨?_, fun hpos => ?_⟩
  · rw [h.length]
    omega
  · rw [h.length] at hpos ⊢
    have hget : rx.aucRxBuffer.get (fun _ => 0) 0 = kept.getD 0 0 :=
      RxBuffer.get_of_take h.buffer hpos 0
    simp only [RxBuffer.get] at hget
    rw [hget]
    omega

/-- A bounded buffer leaves room for a read, and the read stays inside. -/
theorem RxState.Bounded.room (h : rx.Bounded) :
    5 ≤ rx.offered ∧ rx.offered ≤ 260 ∧
      rx.iRxBufferLength + rx.offered ≤ rx.aucRxBuffer.bytes.length := by
  have hlen := h.length_le
  rw [rx.aucRxBuffer.size]
  simp only [RxState.offered, antHciMaxMsgSize]
  omega

/-- Where the size byte comes first, the guard of the loop is enough. -/
theorem LoopState.inBounds_of_guard {d : HciDefines} {env : ReadEnv} {iRxLenRead : Nat}
    {s : LoopState} (hfirst : d.sizeOffset = 0)
    (hguard : s.iCurrentHciPacketOffset < iRxLenRead) : s.InBounds d env iRxLenRead := by
  refine ⟨by omega, fun _ => ?_, fun hwhole => ?_⟩
  · simp only [LoopState.remainder]
    omega
  · simp only [LoopState.Incomplete, Nat.not_lt] at hwhole
    simp only [HciDefines.dataOffset]
    omega

/-- A whole packet that the loop comes to is delivered as it was received. -/
theorem LoopState.Visits.payloadAt {d : HciDefines} {env : ReadEnv} {info : AntChannelInfo}
    {stream : List UInt8} {s : LoopState}
    (hbuf : rx.aucRxBuffer.bytes.take stream.length = stream)
    (hvisits : LoopState.Visits d env stream.length ⟨0, rx, info⟩ s)
    (hwhole : ¬ s.Incomplete d env stream.length) {n : Nat} {msg : List UInt8}
    (hframe : (s.action d env).frame? = some (n, msg)) :
    d.PayloadAt stream s.iCurrentHciPacketOffset n msg := by
  have hrx := (hvisits.scans hbuf).rx
  obtain ⟨rfl, rfl⟩ := Prod.mk.inj (Option.some.inj hframe)
  have hsize := d.sizeOffset_lt_headerSize
  simp only [LoopState.Incomplete, Nat.not_lt] at hwhole
  have hinside : s.iCurrentHciPacketOffset + d.dataOffset + s.iHciDataSize d env ≤
      stream.length := by
    simp only [HciDefines.dataOffset]
    omega
  refine ⟨hinside, ?_, ?_⟩
  · simp only [LoopState.iHciDataSize, hrx]
    rw [RxBuffer.get_of_take hbuf (by simp only [HciDefines.dataOffset] at hinside; omega) 0]
  · rw [hrx, RxBuffer.slice_of_take hbuf hinside]

theorem handlePackets_delivers {d : HciDefines} {env : ReadEnv} {info : AntChannelInfo}
    {stream : List UInt8} (hbuf : rx.aucRxBuffer.bytes.take stream.length = stream)
    {a : RxAction} (ha : a ∈ (handlePackets d env stream.length rx info).actions) {n : Nat}
    {msg : List UInt8} (hframe : a.frame? = some (n, msg)) :
    ∃ off, d.PayloadAt stream off n msg := by
  cases hloops : d.loops (rx.aucRxBuffer.get env.beyond d.opcodeOffset) with
  | true =>
      rw [handlePackets_loops hloops] at ha
      obtain ⟨s, hvisits, hwhole, rfl⟩ :=
        LoopState.frameLoop_actions (s := ⟨0, rx, info⟩) stream.length a ha
      exact ⟨_, hvisits.payloadAt hbuf hwhole hframe⟩
  | false =>
      rw [handlePackets_frameless hloops a ha] at hframe
      cases hframe

/-- Every range that a call delivers to the callback lies among the received bytes. -/
theorem readChannelMsg_delivers {d : HciDefines} (h : rx.Holds d kept) {env : ReadEnv}
    {info : AntChannelInfo} {a : RxAction} (ha : a ∈ (readChannelMsg d env rx info).actions)
    {n : Nat} {msg : List UInt8} (hframe : a.frame? = some (n, msg)) :
    ∃ bytes off, env.result = .data bytes ∧ d.PayloadAt (rx.stream bytes) off n msg := by
  cases hread : env.result with
  | data bytes =>
      rw [h.readChannelMsg_eq hread] at ha
      split at ha
      · obtain ⟨off, hoff⟩ := handlePackets_delivers (h.stored bytes) ha hframe
        exact ⟨bytes, off, rfl, hoff⟩
      · exact absurd ha List.not_mem_nil
  | enodev | enxio | otherError errno =>
      simp only [readChannelMsg, hread] at ha
      exact absurd ha List.not_mem_nil

theorem readChannelMsg_ends {d : HciDefines} {env : ReadEnv} {info : AntChannelInfo}
    {iRxLenRead : Nat} {start : LoopState}
    (h : loopStart d env rx info = some (iRxLenRead, start)) :
    ∃ e, ReflTransGen (LoopState.Iteration d env iRxLenRead) start e ∧
      e.Ends d env iRxLenRead (readChannelMsg d env rx info) := by
  obtain ⟨received, hcall⟩ := readChannelMsg_loopStart h
  rw [hcall]
  exact LoopState.frameLoop_runs iRxLenRead start (Nat.le_add_right _ _)

/-- Only `readChannelMsg` touches the buffers. -/
theorem rx_holds_effect (b : Build) (t : Tid) (env : Env) (o : Op) {s : Shared}
    (h : ∀ ch, ∃ kept, (s.rx ch).Holds b.hci kept) (ch : AntChannelType) :
    ∃ kept, ((effect b t env o s).2.rx ch).Holds b.hci kept := by
  cases o with
  | readChannelMsg ch' =>
      change ∃ kept, (Function.update s.rx ch' _ ch).Holds b.hci kept
      by_cases hch : ch = ch'
      · subst hch
        obtain ⟨kept, hkept⟩ := h ch
        rw [Function.update_self]
        exact readChannelMsg_holds hkept _ _
      · rw [Function.update_of_ne hch]
        exact h ch
  | mutexTrylock | openDevice | eventfdWrite | pthreadCreate | keepAliveCreate =>
      simp only [effect]
      split
      all_goals exact h ch
  | _ => exact h ch

/-- The buffers in every interleaving of the calls, the resets and the receive
threads. -/
theorem rx_holds_reachable {b : Build} {stateCallback rxCallback : Bool} {c : ThreadConfig}
    (h : (machine b).Reachable (initConfig stateCallback rxCallback) c) (ch : AntChannelType) :
    ∃ kept, (c.shared.rx ch).Holds b.hci kept := by
  refine h.invariant (I := fun c => ∀ ch, ∃ kept, (c.shared.rx ch).Holds b.hci kept)
    (fun c mv d hc _ hs ch => ?_) (fun _ => ⟨[], RxState.init_holds⟩) ch
  cases mv with
  | start t l =>
      obtain ⟨-, -, rfl⟩ := Machine.step_start hs
      exact hc ch
  | act t env =>
      obtain ⟨l, o, k, ha⟩ := Machine.step_act hs
      rw [show d.shared = (effect b t env o c.shared).2 from ha.shared]
      exact rx_holds_effect b t env o hc ch

/-- The buffer invariant, the progress of the loop and the place of what is delivered,
over all runs of calls, and the invariant, with the resets between them, over all
runs of the machine. -/
theorem readChannelMsg_bounded (calls : List RxCall) :
    let rx := RxCall.run .shipped calls fun _ => .init
    (∀ ch, (rx ch).Bounded ∧ 5 ≤ (rx ch).offered ∧ (rx ch).offered ≤ 260 ∧
      (rx ch).iRxBufferLength + (rx ch).offered ≤ (rx ch).aucRxBuffer.bytes.length) ∧
    (∀ (next : RxCall) (iRxLenRead : Nat) (start : LoopState),
      loopStart .shipped next.env (rx next.channel) next.info = some (iRxLenRead, start) →
      (∀ s, LoopState.Visits .shipped next.env iRxLenRead start s →
        s.InBounds .shipped next.env iRxLenRead) ∧
      ∃ e, ReflTransGen (LoopState.Iteration .shipped next.env iRxLenRead) start e ∧
        e.Ends .shipped next.env iRxLenRead
          (readChannelMsg .shipped next.env (rx next.channel) next.info)) ∧
    (∀ (env : ReadEnv) (iRxLenRead : Nat),
      (WellFounded fun s' s => LoopState.Iteration .shipped env iRxLenRead s s') ∧
      ∀ s s', LoopState.Iteration .shipped env iRxLenRead s s' →
        s.iCurrentHciPacketOffset < s'.iCurrentHciPacketOffset) ∧
    (∀ (next : RxCall) (a : RxAction) (n : Nat) (msg : List UInt8),
      a ∈ (readChannelMsg .shipped next.env (rx next.channel) next.info).actions →
      a.frame? = some (n, msg) → ∃ bytes off, next.env.result = .data bytes ∧
        HciDefines.shipped.PayloadAt ((rx next.channel).stream bytes) off n msg) ∧
    ∀ (b : Build) (stateCallback rxCallback : Bool) (c : ThreadConfig), b.hci = .shipped →
      (machine b).Reachable (initConfig stateCallback rxCallback) c →
      ∀ ch, (c.shared.rx ch).Bounded := by
  have hrun := RxCall.run_holds .shipped calls (fun _ => .init) fun _ => ⟨[], RxState.init_holds⟩
  refine ⟨fun ch => ?_, fun next iRxLenRead start hstart => ⟨?_, readChannelMsg_ends hstart⟩,
    fun env iRxLenRead => ⟨LoopState.iteration_wellFounded _ _ _, ?_⟩, ?_, ?_⟩
  · obtain ⟨kept, hholds⟩ := hrun ch
    exact ⟨hholds.bounded, hholds.bounded.room⟩
  · exact fun s hvisit => LoopState.inBounds_of_guard rfl hvisit.2
  · exact fun s s' hiter => LoopState.iterate_lt hiter.2
  · intro next a n msg ha hframe
    obtain ⟨kept, hholds⟩ := hrun next.channel
    exact readChannelMsg_delivers hholds ha hframe
  · intro b stateCallback rxCallback c hshipped hreach ch
    obtain ⟨kept, hholds⟩ := rx_holds_reachable hreach ch
    rw [hshipped] at hholds
    exact hholds.bounded

end proof
end AntHal

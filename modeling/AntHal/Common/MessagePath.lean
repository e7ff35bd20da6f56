import AntHal.Common.JniCallbacks
import AntHal.Chardev.Classification

/-!
The path of a message from the driver to Java, over a character-device back end.

What is read on a channel in a whole run is one stream, however the run is cut into
sessions. Its frames are dispatched one after the other, and those that are neither
flow control nor the keepalive response are passed to `nativeJAnt_RxCallback`.
-/

namespace AntHal

open Concurrency Framing Jni

def RxAction.message? : RxAction → Option (List UInt8)
  | .frame _ msg .rxCallback => some msg
  | _ => none

def Reading.messages (r : Reading) : List (List UInt8) := r.actions.filterMap RxAction.message?

def Event.reading? : Event → Option Reading
  | .received ch bytes actions => some ⟨ch, bytes, actions⟩
  | _ => none

/-- All that has been read since `ant_init`. -/
def Shared.readings (s : Shared) : List Reading := s.events.filterMap Event.reading?

def actionsOn (ch : AntChannelType) (readings : List Reading) : List RxAction :=
  (readings.filter fun r => r.channel = ch).flatMap Reading.actions

def messagesOn (ch : AntChannelType) (readings : List Reading) : List (List UInt8) :=
  (actionsOn ch readings).filterMap RxAction.message?

def Jni.Callback.message? : Callback → Option (List UInt8)
  | .antRxMessage msg => some msg
  | .antStateChange _ => none

/-- A frame for Java. -/
def isMessage (payload : List UInt8) : Bool :=
  payload.getD antMsgIdOffset 0 != 0xC9 && payload.take keepAliveResp.length != keepAliveResp

/-- What has come through to Java from the bytes that have been read. -/
structure MessagePath (b : Build) (s : Bridged Shared) : Prop where
  /-- The frames of a channel are those of its stream. -/
  reassembled : ∀ ch ∈ b.channels, framesOn ch s.backEnd.readings =
    (b.hci.format.frames (bytesOn ch s.backEnd.readings)).map b.hci.frameOf
  /-- Of a stream whose frames tell by themselves what they are, the messages come
  through, in their order. -/
  chosen : ∀ ch, (∀ f ∈ framesOn ch s.backEnd.readings, DecidesAlone f.2) →
    messagesOn ch s.backEnd.readings =
      ((framesOn ch s.backEnd.readings).map Prod.snd).filter isMessage
  /-- They have been passed to the callback, and nothing else. -/
  passed : (s.passed.map Passed.callback).filterMap Callback.message? =
    s.backEnd.readings.flatMap Reading.messages

section readings
variable {b : Build} {t : Tid} {env : Env} {s : Shared}

@[simp] theorem log_readings (s : Shared) (e : Event) :
    (s.log e).readings = s.readings ++ e.reading?.toList := by
  cases h : e.reading? <;> simp [Shared.readings, Shared.log, h]

/-- The whole run is one stream, and each frame is classified by `classify`. -/
structure Streams (b : Build) (s : Shared) : Prop where
  follows : Follows b s.rx s.readings
  registered : ∀ ch, (s.astChannels ch).fnRxCallback = true
  dispatches : ∀ r ∈ s.readings, ∀ a ∈ r.actions, Dispatches b.hci true a

theorem Streams.quiet {s' : Shared} (h : Streams b s) (hrx : s'.rx = s.rx)
    (hinfo : ∀ ch, (s'.astChannels ch).fnRxCallback = (s.astChannels ch).fnRxCallback)
    (hreadings : s'.readings = s.readings) : Streams b s' := by
  refine ⟨?_, fun ch => (hinfo ch).trans (h.registered ch), ?_⟩
  · rw [hreadings, hrx]
    exact h.follows
  · rw [hreadings]
    exact h.dispatches

theorem setFd_fnRxCallback (ch ch' : AntChannelType) (fd : Int) :
    ((s.setFd ch fd).astChannels ch').fnRxCallback = (s.astChannels ch').fnRxCallback := by
  by_cases h : ch' = ch
  · subst h
    simp [Shared.setFd]
  · simp [Shared.setFd, Function.update_of_ne h]

/-- A read goes on with the stream of its channel. -/
theorem Streams.read (hopcode : b.hci.opcode = none) (h : Streams b s) (ch : AntChannelType) :
    Streams b (effect b t env (.readChannelMsg ch) s).2 := by
  let r := readChannelMsg b.hci ⟨env.read, env.beyond, fun _ => 0⟩ (s.rx ch) (s.astChannels ch)
  have hreadings : (effect b t env (.readChannelMsg ch) s).2.readings =
      s.readings ++ [⟨ch, r.received, r.actions⟩] := log_readings _ _
  obtain ⟨hkeep, hdispatches⟩ := readChannelMsg_dispatches
    ⟨env.read, env.beyond, fun _ => 0⟩ hopcode (s.rx ch) (s.astChannels ch)
  rw [h.registered ch] at hkeep hdispatches
  refine ⟨?_, fun ch' => ?_, ?_⟩
  · rw [hreadings]
    exact h.follows.read hopcode ch
  · change (Function.update s.astChannels ch r.info ch').fnRxCallback = true
    by_cases hch : ch' = ch
    · subst hch
      rw [Function.update_self]
      exact hkeep
    · rw [Function.update_of_ne hch]
      exact h.registered ch'
  · rw [hreadings, List.forall_mem_append]
    exact ⟨h.dispatches, List.forall_mem_singleton.mpr hdispatches⟩

theorem streams_effect (hopcode : b.hci.opcode = none) (h : Streams b s) (o : Op) :
    Streams b (effect b t env o s).2 := by
  cases o with
  | readChannelMsg ch => exact h.read hopcode ch
  | setFd ch fd => exact h.quiet rfl (fun ch' => setFd_fnRxCallback ch ch' fd) rfl
  | mutexTrylock | openDevice | eventfdWrite | pthreadCreate | keepAliveCreate =>
      simp only [effect]
      split
      all_goals first
        | exact h.quiet rfl (fun _ => rfl) rfl
        | exact h.quiet rfl (fun _ => rfl) ((log_readings _ _).trans (List.append_nil _))
  | funcStart | funcEnd | stateCallback | closeDevice | vendorInit | powerCtrl | vendorCleanup
    | pthreadJoin | pthreadDetach =>
      exact h.quiet rfl (fun _ => rfl) ((log_readings _ _).trans (List.append_nil _))
  | _ => exact h.quiet rfl (fun _ => rfl) rfl

theorem streams_reachable (hopcode : b.hci.opcode = none) {stateCallback : Bool} {c : ThreadConfig}
    (h : (machine b).Reachable (initConfig stateCallback true) c) : Streams b c.shared := by
  refine h.invariant (I := fun c => Streams b c.shared) (fun c mv d hc _ hs => ?_) ?_
  · cases mv with
    | start t l =>
        obtain ⟨-, -, rfl⟩ := Machine.step_start hs
        exact hc
    | act t env =>
        obtain ⟨l, o, k, ha⟩ := Machine.step_act hs
        rw [show d.shared = (effect b t env o c.shared).2 from ha.shared]
        exact streams_effect hopcode hc o
  · exact ⟨follows_nil fun _ _ => rfl, fun _ => rfl, fun _ hmem => absurd hmem List.not_mem_nil⟩

end readings

section choosing
variable {payload : List UInt8}

theorem not_isMessage_flow (h : payload.getD antMsgIdOffset 0 = 0xC9) :
    isMessage payload = false := by
  rw [isMessage, h]
  rfl

theorem isMessage_other (h : payload.getD antMsgIdOffset 0 ≠ 0xC9) :
    isMessage payload = (payload.take keepAliveResp.length != keepAliveResp) := by
  rw [isMessage, bne_iff_ne.mpr h, Bool.true_and]

/-- A frame that decides alone goes to the callback exactly if it is a message. -/
theorem Dispatches.chosen {a : RxAction} (h : Dispatches .shipped true a)
    (halone : ∀ f ∈ a.frame?, DecidesAlone f.2) :
    a.message?.toList = (a.frame?.toList.map Prod.snd).filter isMessage := by
  obtain ⟨env, buffer, info, msg, n, hreg, rfl⟩ := h
  have hlong : keepAliveResp.length ≤ n + keepAliveResp.length := Nat.le_add_left _ _
  have halone : DecidesAlone (buffer.slice env.beyond msg n) := halone _ rfl
  rw [classify_eq .shipped env buffer info msg hlong, RxBuffer.slice_append,
    classifyBytes_append halone]
  generalize buffer.slice env.beyond msg n = payload
  change _ = [payload].filter isMessage
  by_cases hflow : payload.getD antMsgIdOffset 0 = 0xC9
  · rw [classifyBytes_flow hflow, List.filter_cons_of_neg (by simp [not_isMessage_flow hflow])]
    rfl
  · rw [classifyBytes_other hflow]
    by_cases hresp : payload.take keepAliveResp.length = keepAliveResp
    · rw [if_pos hresp, List.filter_cons_of_neg (by simp [isMessage_other hflow, hresp])]
      rfl
    · rw [if_neg hresp, if_pos hreg,
        List.filter_cons_of_pos (by simp [isMessage_other hflow, hresp])]
      rfl

variable {ch : AntChannelType} {readings : List Reading}

theorem framesOn_eq :
    framesOn ch readings = (actionsOn ch readings).filterMap RxAction.frame? := by
  induction readings with
  | nil => rfl
  | cons r readings ih =>
      by_cases hch : r.channel = ch
      · have hrest : framesOn ch (r :: readings) =
            r.actions.filterMap RxAction.frame? ++ framesOn ch readings := by
          simp [framesOn, hch]
        rw [hrest, ih]
        simp [actionsOn, hch]
      · have hrest : framesOn ch (r :: readings) = framesOn ch readings := by
          simp [framesOn, hch]
        rw [hrest, ih]
        simp [actionsOn, hch]

/-- What a stream of such frames hands on. -/
theorem messagesOn_eq (h : ∀ r ∈ readings, ∀ a ∈ r.actions, Dispatches .shipped true a)
    (halone : ∀ f ∈ framesOn ch readings, DecidesAlone f.2) :
    messagesOn ch readings = ((framesOn ch readings).map Prod.snd).filter isMessage := by
  have hone : ∀ a ∈ actionsOn ch readings,
      a.message?.toList = (a.frame?.toList.map Prod.snd).filter isMessage := by
    intro a ha
    obtain ⟨r, hr, har⟩ := List.mem_flatMap.mp ha
    refine (h r (List.mem_filter.mp hr).1 a har).chosen fun f hf => halone f ?_
    rw [framesOn_eq]
    exact List.mem_filterMap.mpr ⟨a, ha, hf⟩
  rw [messagesOn, framesOn_eq, List.filterMap_eq_flatMap_toList, List.filterMap_eq_flatMap_toList,
    List.map_flatMap, List.filter_flatMap]
  exact List.flatMap_congr hone

end choosing

section runs
variable {b : Build} {vm : Vm} {stateCallback : Bool}
  {c : Config Op Op.Res Label Tid (Bridged Shared)}

/-- The state callbacks aside, the log has the messages of its readings. -/
theorem logged_messages (s : Shared) :
    (chardevLogged s).filterMap Callback.message? = s.readings.flatMap Reading.messages := by
  have hevent (e : Event) : (eventCallbacks e).filterMap Callback.message? =
      e.reading?.toList.flatMap Reading.messages := by
    cases e with
    | received ch bytes actions =>
        have hframe : (fun a => (frameCallback a).bind Callback.message?) = RxAction.message? := by
          funext a
          cases a with
          | frame n msg handling => cases handling <;> rfl
          | _ => rfl
        simp [eventCallbacks, Event.reading?, Reading.messages, List.filterMap_filterMap, hframe]
    | _ => rfl
  rw [chardevLogged, Shared.readings, List.filterMap_flatMap, List.filterMap_eq_flatMap_toList,
    List.flatMap_assoc]
  exact List.flatMap_congr fun e _ => hevent e

/-- In every run the messages in the bytes of the driver, and nothing else, are passed
to Java, whatever sessions, resets and crashes the run is made of. -/
theorem messages_passed (hshipped : b.hci = .shipped) (hvm : vm.FromOnLoad)
    (h : (chardevBackEnd b stateCallback true).bridged.Reachable
      ((chardevBackEnd b stateCallback true).bridgedInit vm) c) : MessagePath b c.shared := by
  have hholds := BackEnd.holds_reachable hvm h
  have hopcode : b.hci.opcode = none := by rw [hshipped]; rfl
  have hstreams : Streams b c.shared.backEnd := streams_reachable hopcode hholds.reachable
  refine ⟨hstreams.follows.isolated, fun ch halone => ?_, ?_⟩
  · refine messagesOn_eq (fun r hr a ha => ?_) halone
    rw [← hshipped]
    exact hstreams.dispatches r hr a ha
  · rw [← hholds.logged]
    exact logged_messages _

theorem messages_passed_reading :
    ∃ s : Bridged Shared, (s.vms (.rx 1)).heard = [.antRxMessage [3, 0x4E, 0, 1, 2]] ∧
      MessagePath .smd s := by
  obtain ⟨c, hpath, hc⟩ := Machine.exec_any (chardevBackEnd .smd true true).bridged
    (fun _ _ => true) (reading {} [5, 3, 0x4E, 0, 1, 2])
    ((chardevBackEnd .smd true true).bridgedInit loadedVm)
    (fun c => (c.shared.vms (.rx 1)).heard = [.antRxMessage [3, 0x4E, 0, 1, 2]]) (by decide +kernel)
  exact ⟨c.shared, of_decide_eq_true hc, messages_passed rfl loadedVm_fromOnLoad hpath.reachable⟩

end runs
end AntHal

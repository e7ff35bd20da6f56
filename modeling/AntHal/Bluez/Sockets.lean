import AntHal.Bluez.SocketUse

/-!
The sockets of the BlueZ back end over whole runs.

No socket is used by a thread that has not opened it, or after its close, and none
is left open. The calls that send and the calls that enable or disable exclude each
other.
-/

namespace AntHal.Bluez

open Concurrency

section custody
variable {b : Build} {fd : Int}

def opensSocket (fd : Int) : (o : Op) → o.Res → Prop
  | .createHciSock, r => r = fd
  | _, _ => False

/-- The socket `fd`, from its open to its close. -/
def socketCustody (b : Build) (fd : Int) : Custody (wired b) where
  owner s := s.hci.ownerOf fd
  acquires := opensSocket fd
  release o := o = .close fd
  stop _ := False
  inside l := l.socket? = some fd
  effect := by
    intro pool t env o s u _ hu
    have hsame : (s.hci.answerAll env.answers).ownerOf = s.hci.ownerOf := ownerOf_answerAll _ _
    have hd : ((s.hci.answerAll env.answers).after t o (effect t env.env o s.shared).1).ownerOf fd =
        some u := hu
    by_cases hcreate : o = .createHciSock
    · subst hcreate
      by_cases hneg : (effect t env.env .createHciSock s.shared).1 < 0
      · rw [ownerOf_refused hneg, hsame] at hd
        exact .inr ⟨hd, fun _ => Op.noConfusion⟩
      · rw [ownerOf_create (Int.not_lt.mp hneg), hsame, Function.update_apply] at hd
        split at hd
        case isTrue heq => exact .inl ⟨(Option.some.inj hd).symm, heq.symm⟩
        case isFalse => exact .inr ⟨hd, fun _ => Op.noConfusion⟩
    by_cases hclose : ∃ fd', o = .close fd'
    · obtain ⟨fd', rfl⟩ := hclose
      rw [ownerOf_close, hsame, Function.update_apply] at hd
      split at hd
      case isTrue => cases hd
      case isFalse hne =>
          refine .inr ⟨hd, fun _ heq => hne ?_⟩
          cases heq
          rfl
    · have hkept : ∀ fd', o ≠ .close fd' := fun fd' heq => hclose ⟨fd', heq⟩
      rw [ownerOf_kept hcreate hkept, hsame] at hd
      exact .inr ⟨hd, fun _ => hkept fd⟩

/-- The block goes on with one that works with the socket. -/
def GoesOnWith (fd : Int) (a : Option Label) : Prop := ∃ l, a = some l ∧ l.socket? = some fd

theorem goesOnWith_some {l : Label} (h : l.socket? = some fd) : GoesOnWith fd (some l) :=
  ⟨l, rfl, h⟩

section returns
variable {tx : Sending} (htx : tx.txSocket = fd)
include htx

theorem txWrite_goesOnWith : (txWrite b tx).Returns (GoesOnWith fd) := by
  simp only [txWrite, Prog.op_bind, Prog.ret_bind, Prog.pure_eq, Prog.returns_op]
  intro socket
  split
  · exact goesOnWith_some (congrArg some htx)
  · intro bytesWritten
    refine goesOnWith_some ((?_ : _ = some tx.txSocket).trans (congrArg some htx))
    cases bytesWritten with
    | again | error => rfl
    | ok n =>
        dsimp only
        split <;> rfl

theorem txWait_goesOnWith : (txWait tx).Returns (GoesOnWith fd) := by
  intro n
  refine goesOnWith_some ((?_ : _ = some tx.txSocket).trans (congrArg some htx))
  cases n with
  | again | error => rfl
  | ok n =>
      dsimp only
      split <;> rfl

theorem handleCommandComplete_goesOnWith : (handleCommandComplete tx).Returns (GoesOnWith fd) := by
  unfold handleCommandComplete
  split
  · exact goesOnWith_some (congrArg some htx)
  · dsimp only
    split <;> exact goesOnWith_some (congrArg some htx)
  · intro _ currentTime
    cases currentTime with
    | none => exact goesOnWith_some (congrArg some htx)
    | some now =>
        refine goesOnWith_some ((?_ : _ = some tx.txSocket).trans (congrArg some htx))
        split <;> rfl
  · exact goesOnWith_some (congrArg some htx)

theorem txRead_goesOnWith : (txRead b tx).Returns (GoesOnWith fd) := by
  simp only [txRead, Prog.op_bind, Prog.ret_bind, Prog.pure_eq, Prog.returns_op]
  have hstatus (status : AntStatus) :
      (handleCommandComplete { tx with status := status }).Returns (GoesOnWith fd) :=
    handleCommandComplete_goesOnWith htx
  intro packet
  cases packet with
  | again => exact goesOnWith_some (congrArg some htx)
  | error | ok => exact hstatus _

end returns

theorem rxPoll_goesOnWith : (rxPoll fd).Returns (GoesOnWith fd) := by
  intro n
  refine goesOnWith_some ?_
  cases n with
  | again | error => rfl
  | ok n =>
      dsimp only
      split <;> rfl

theorem rxRead_goesOnWith : (rxRead b fd).Returns (GoesOnWith fd) := by
  intro packet
  cases packet with
  | again | error => exact goesOnWith_some rfl
  | ok packet => exact Prog.returns_bind (deliver b packet.1 packet.2) fun _ => goesOnWith_some rfl

theorem rxLoop_goesOnWith : (rxLoop b fd).Returns (GoesOnWith fd) := by
  refine Prog.returns_bind _ fun status => ?_
  split <;> exact goesOnWith_some rfl

/-- A program closes the socket behind anything that nothing stops. -/
theorem closes_bind {α : Type} {p : Cmd α} {f : α → Cmd (Option Label)}
    (hf : ∀ a, Closes fd (f a)) : Closes fd (p >>= f) :=
  (Prog.until_bind p f).mpr ((Prog.returns_true p).mono fun a _ => hf a).until

theorem rxClose_closes : Closes fd (rxClose b fd) := by
  have hclose : Closes fd (.op (.close fd) fun _ => .ret none) := .inl rfl
  simp only [rxClose, Prog.op_bind, Prog.ret_bind, Prog.pure_eq]
  exact Prog.Until.step id fun result _ => closes_bind fun _ => hclose

/-- A socket other than 0 is closed by the call that has opened it. -/
theorem txClose_closes {tx : Sending} (hpos : 0 < fd) (htx : tx.txSocket = fd) :
    Closes fd (txClose tx) := by
  subst htx
  unfold txClose antCloseTxTransport
  rw [if_pos hpos]
  exact .inl rfl

/-- The program opens no socket. -/
abbrev Unopening {α : Type} (p : Cmd α) : Prop := p.Only (· ≠ .createHciSock) fun _ => True

/-- What does not open a socket owes no close. -/
theorem acquiring_only {p : Cmd (Option Label)} (h : Unopening p) :
    p.Always (socketCustody b fd).Acquiring :=
  h.always fun o k ho r hr => by
    cases o with
    | createHciSock => exact absurd rfl ho
    | _ => exact hr.elim

theorem sendOver_only (pucMesg : List UInt8) (txSocket : Int) :
    Unopening (sendOver pucMesg txSocket) := by
  simp [sendOver]

/-- The socket is closed at once if it cannot be used. -/
theorem beginSending_acquiring (hpos : 0 < fd) (pucMesg : List UInt8) (status : RadioStatus) :
    (beginSending pucMesg status).Always (socketCustody b fd).Acquiring := by
  by_cases hstatus : status = .enabled
  · subst hstatus
    rw [beginSending_enabled]
    simp only [antOpenTxTransport, Prog.op_bind, Prog.ret_bind, Prog.pure_eq]
    refine ⟨fun r hr => ?_, fun r => acquiring_only ?_⟩
    · obtain rfl : r = fd := hr
      refine (Prog.until_bind _ _).mpr ?_
      rw [if_neg (by omega)]
      refine .step id fun _ _ => .step id fun ret _ => ?_
      split
      · exact .inl rfl
      · refine (Prog.until_ret _).mpr ?_
        unfold sendOver
        rw [if_neg (by omega)]
        exact .step id fun startTime _ => goesOnWith_some rfl
    · refine Prog.Only.bind (Q := fun _ => True) ?_ fun txSocket _ => sendOver_only pucMesg txSocket
      simp
  · unfold beginSending
    rw [if_pos hstatus]
    exact acquiring_only (by simp)

theorem Calls.unopening {α : Type} {p : Cmd α} (h : Calls p) : Unopening p :=
  h.mono (fun o ho => by cases o <;> first | exact Op.noConfusion | cases ho) fun _ _ => trivial

theorem Transmits.unopening {α : Type} {p : Cmd α} (h : Transmits p) : Unopening p :=
  h.mono (fun o ho => by cases o <;> first | exact Op.noConfusion | cases ho) fun _ _ => trivial

theorem Queries.unopening {α : Type} {p : Cmd α} (h : Queries p) : Unopening p :=
  h.controls.calls.unopening

/-- What opens no socket owes no close behind it. -/
theorem acquiring_unopened {o : Op} (k : o.Res → Cmd (Option Label)) (ho : o ≠ .createHciSock) :
    (socketCustody b fd).Acquiring o k := by
  intro r hr
  cases o with
  | createHciSock => exact absurd rfl ho
  | _ => exact hr.elim

theorem txMessage_acquiring (hpos : 0 < fd) (pucMesg : List UInt8) :
    (antTxMessage b pucMesg).Always (socketCustody b fd).Acquiring := by
  simp only [antTxMessage, Prog.op_bind, Prog.ret_bind, Prog.pure_eq]
  refine ⟨acquiring_unopened _ Op.noConfusion, fun _ =>
    ⟨acquiring_unopened _ Op.noConfusion, fun r => ?_⟩⟩
  dsimp only
  split
  · exact ⟨acquiring_unopened _ Op.noConfusion, fun _ => trivial⟩
  · exact (getAndSetRadioStatus_queries (b := b)).unopening.always_bind
      (fun o k => acquiring_unopened k) fun status _ => beginSending_acquiring hpos pucMesg status

theorem rxStart_acquiring (hpos : 0 < fd) : rxStart.Always (socketCustody b fd).Acquiring := by
  simp only [rxStart, Prog.op_bind, Prog.ret_bind, Prog.pure_eq]
  refine ⟨acquiring_unopened _ Op.noConfusion, fun _ => ⟨fun r hr => ?_, fun r => ?_⟩⟩
  · obtain rfl : r = fd := hr
    dsimp only
    rw [if_neg (by omega)]
    refine .step id fun ret _ => ?_
    split <;> exact goesOnWith_some rfl
  · refine acquiring_only ?_
    simp

theorem rxRead_unopened (rxSocket : Int) : Unopening (rxRead b rxSocket) := by
  simp only [rxRead, Prog.op_bind, Prog.ret_bind, Prog.pure_eq, Prog.only_op]
  refine ⟨Op.noConfusion, fun packet => ?_⟩
  cases packet with
  | again | error => trivial
  | ok packet => exact Prog.Only.bind (Q := fun _ => True) (by simp [deliver]) fun _ _ => trivial

theorem rxClose_unopened (rxSocket : Int) : Unopening (rxClose b rxSocket) := by
  simp only [rxClose, Prog.op_bind, Prog.ret_bind, Prog.pure_eq, Prog.only_op]
  refine ⟨Op.noConfusion, fun result => ?_⟩
  refine (crashCleanUp_calls result).unopening.bind fun _ _ => ?_
  exact (Prog.only_op _ _).mpr ⟨Op.noConfusion, fun _ => trivial⟩

/-- Only a send and the receive thread open sockets. -/
theorem body_acquires (hpos : 0 < fd) (l : Label) :
    (body b l).Always (socketCustody b fd).Acquiring := by
  cases l with
  | enableRadio => exact acquiring_only (antEnableRadio_calls.unopening.bind fun _ _ => by trivial)
  | disableRadio =>
      exact acquiring_only (antDisableRadio_calls.unopening.bind fun _ _ => by trivial)
  | radioEnabledStatus =>
      have hstatus := (antRadioEnabledStatus_queries (b := b)).unopening
      exact acquiring_only (hstatus.bind fun _ _ => by trivial)
  | txMessage pucMesg => exact txMessage_acquiring hpos pucMesg
  | txWrite tx => exact acquiring_only (txWrite_transmits tx).unopening
  | txWait tx => exact acquiring_only (txWait_transmits tx).unopening
  | txRead tx => exact acquiring_only (txRead_transmits tx).unopening
  | txClose tx => exact acquiring_only (txClose_transmits tx).unopening
  | rxStart => exact rxStart_acquiring hpos
  | rxLoop rxSocket =>
      have hstatus := (getAndSetRadioStatus_queries (b := b)).unopening
      refine acquiring_only (hstatus.bind fun status _ => ?_)
      split <;> trivial
  | rxPoll rxSocket => exact acquiring_only (by simp [body, rxPoll])
  | rxRead rxSocket => exact acquiring_only (rxRead_unopened rxSocket)
  | rxClose rxSocket => exact acquiring_only (rxClose_unopened rxSocket)

/-- A block that works with a socket closes it, or goes on with it. -/
theorem body_closes (hpos : 0 < fd) {l : Label} (hl : l.socket? = some fd) :
    Closes fd (body b l) := by
  cases l with
  | txWrite tx => exact (txWrite_goesOnWith (Option.some.inj hl)).until
  | txWait tx => exact (txWait_goesOnWith (Option.some.inj hl)).until
  | txRead tx => exact (txRead_goesOnWith (Option.some.inj hl)).until
  | txClose tx => exact txClose_closes hpos (Option.some.inj hl)
  | rxLoop rxSocket =>
      obtain rfl := Option.some.inj hl
      exact rxLoop_goesOnWith.until
  | rxPoll rxSocket =>
      obtain rfl := Option.some.inj hl
      exact rxPoll_goesOnWith.until
  | rxRead rxSocket =>
      obtain rfl := Option.some.inj hl
      exact rxRead_goesOnWith.until
  | rxClose rxSocket =>
      obtain rfl := Option.some.inj hl
      exact rxClose_closes
  | enableRadio | disableRadio | radioEnabledStatus | txMessage | rxStart => cases hl

/-- A block begins with an operation. -/
theorem body_op (l : Label) : ∃ o k, body b l = .op o k := by
  cases l with
  | txClose tx =>
      simp only [body, txClose, antCloseTxTransport]
      split <;> exact ⟨_, _, rfl⟩
  | _ => exact ⟨_, _, rfl⟩

theorem socketCustody_checked (hpos : 0 < fd) : (socketCustody b fd).Checked where
  acquiring := body_acquires hpos
  inside l hl := by
    obtain ⟨o, k, hbody⟩ := body_op (b := b) l
    exact ⟨o, k, hbody, hbody ▸ body_closes hpos hl⟩

end custody

section runs
variable {b : Build} {c : WiredConfig} {stateCallback rxCallback : Bool}

/-- In every run a socket is used by the thread that has opened it only, and until
it has closed it; each open socket but 0 is going to be closed, and one that cannot be
bound is closed where it was created. -/
theorem sockets_owned (hreach : (wired b).Reachable (wiredInit stateCallback rxCallback) c) :
    SocketsOwned c where
  used := by
    intro t l o k fd hth hfd
    have hallow (x : WiredConfig) (mv : Move Label Tid WiredEnv) : (socketUse b).Allowed x mv := by
      cases mv <;> simp [Typestate.Allowed, socketUse]
    have hholds : (socketUse b).Holds c :=
      Typestate.holds_path (socketUse_checked b) (fun x mv _ => hallow x mv) (fun _ => rfl) hreach
    obtain ⟨v, howns, hpermits⟩ := hholds.permitted hth
    exact howns.uses hpermits hfd
  closed := by
    intro t fd hpos howner
    have hholds : (socketCustody b fd).Holds c :=
      (socketCustody b fd).holds_reachable (socketCustody_checked hpos) rfl (fun _ => rfl) hreach
    obtain ⟨l, o, k, hth, howed⟩ := hholds.owed t howner
    exact ⟨_, hth, howed⟩
  created := fun _ _ _ hnew => createHciSock_run hnew

/-- A call that is about to write has opened the socket it writes to. -/
theorem sockets_owned_writing :
    ∃ (c : WiredConfig) (l : Label) (bytes : List UInt8) (k : Outcome Nat → Cmd (Option Label)),
      c.pool (.app 1) = some ⟨l, .op (.writev 3 bytes) k⟩ ∧ SocketsOwned c := by
  obtain ⟨c, hpath, hc⟩ := Machine.exec_any (wired ⟨.wl12xx, false⟩) (fun _ _ => true)
    (wiredEnabling ++ (writing (.app 1) []).dropLast) (wiredInit true true)
    (fun c => (c.pool (.app 1)).any fun th =>
      th.head? = some (.writev 3 (writeDataBytes ⟨.wl12xx, false⟩ [1, 2]))) (by decide)
  obtain ⟨⟨l, code⟩, hth, hhead⟩ := Option.any_eq_true _ _ |>.mp hc
  obtain ⟨k, rfl⟩ := Thread.code_of_head (of_decide_eq_true hhead)
  exact ⟨c, l, _, k, hth, sockets_owned hpath.reachable⟩

/-- A socket with descriptor 0 stays open behind the call that has opened it. -/
theorem zero_stays_open :
    ∃ c, (wired ⟨.wl12xx, false⟩).Reachable (wiredInit true true) c ∧
      c.shared.hci.ownerOf 0 = some (.app 1) ∧ (c.pool (.app 1)).any Thread.terminated = true := by
  obtain ⟨c, hpath, hc⟩ := Machine.exec_any (wired ⟨.wl12xx, false⟩) (fun _ _ => true)
    (wiredEnabling ++ .start (.app 1) (.txMessage [1, 2]) ::
      List.replicate 13 (.act (.app 1) { env := { hciSock := some 0 } })) (wiredInit true true)
    (fun c => decide (c.shared.hci.ownerOf 0 = some (.app 1)) &&
      (c.pool (.app 1)).any Thread.terminated) (by decide)
  rw [Bool.and_eq_true, decide_eq_true_eq] at hc
  exact ⟨c, hpath.reachable, hc⟩

end runs

section exclusion
variable {b : Build} {c : ThreadConfig} {stateCallback rxCallback : Bool}

/-- What a thread has of txLock. -/
structure Turn where
  caller : Bool
  locked : Bool

def Grip.turn (v : Grip) : Turn := ⟨v.caller, v.locked⟩

namespace Turn

structure Permits (v : Turn) (o : Op) : Prop where
  ordered : Grip.Ordered v.caller v.locked o
  unlock : o = .mutexUnlock .txLock → v.locked = true

def next (v : Turn) : (o : Op) → o.Res → Turn
  | .mutexLock .txLock, r => if r = 0 then { v with locked := true } else v
  | .mutexUnlock .txLock, _ => { v with locked := false }
  | _, _ => v

structure Owns (s : Shared) (t : Tid) (v : Turn) : Prop where
  caller : v.caller = true ↔ ∃ n, t = .app n
  locked : v.locked = true → s.locks .txLock = some t

end Turn

theorem turn_permits (v : Grip) (o : Op) (h : v.Permits o) : v.turn.Permits o := by
  refine ⟨h.ordered, fun ho => ?_⟩
  subst ho
  exact h.fits

theorem turn_next (v : Grip) (o : Op) (r : o.Res) : v.turn.next o r = (v.next o r).turn := by
  cases o with
  | mutexLock l =>
      cases l with
      | enableLock => rfl
      | txLock =>
          simp only [Turn.next, Grip.next]
          split <;> rfl
  | mutexUnlock l => cases l <;> rfl
  | createHciSock =>
      simp only [Turn.next, Grip.next]
      split <;> rfl
  | _ => rfl

section owns
variable {s : Shared} {t u : Tid} {v w : Turn} {env : Env} {o : Op}

theorem turn_self (h : Turn.Owns s t v) :
    Turn.Owns (effect t env o s).2 t (v.next o (effect t env o s).1) := by
  have hplain (hlock : o ≠ .mutexLock .txLock) (hunlock : o ≠ .mutexUnlock .txLock) :
      Turn.Owns (effect t env o s).2 t v :=
    ⟨h.caller, fun hw => Transport.owner_kept hlock hunlock (h.locked hw)⟩
  cases o with
  | mutexLock l =>
      cases l with
      | enableLock => exact hplain (by simp) (by simp)
      | txLock =>
          simp only [effect]
          split
          · exact ⟨h.caller, fun _ => Shared.setLock_self _ _ _⟩
          · rename_i herr
            simp only [Turn.next, herr, if_false]
            exact h
  | mutexUnlock l =>
      cases l with
      | enableLock => exact hplain (by simp) (by simp)
      | txLock => exact ⟨h.caller, fun hw => Bool.noConfusion hw⟩
  | _ => exact hplain (by simp) (by simp)

theorem turn_frame {pool : Pool Op Op.Res Label Tid} (ht : Turn.Owns s t v) (hpermits : v.Permits o)
    (hready : isReady pool env o s = true) (htu : u ≠ t) (h : Turn.Owns s u w) :
    Turn.Owns (effect t env o s).2 u w := by
  refine ⟨h.caller, fun hw => ?_⟩
  have hs := h.locked hw
  by_cases hlock : o = .mutexLock .txLock
  · subst hlock
    have herr : env.mutex ≠ 0 := by simpa [isReady, hs] using hready
    simpa [effect, herr] using hs
  by_cases hunlock : o = .mutexUnlock .txLock
  · exact absurd (Option.some.inj (hs.symm.trans (ht.locked (hpermits.unlock hunlock)))) htu
  · exact Transport.owner_kept hlock hunlock hs

end owns

/-- The turns of the calls, without what they hold of the sockets. -/
def turns (b : Build) : Typestate (machine b) Turn where
  permits := Turn.Permits
  next := Turn.next
  enters l v := ∃ g : Grip, g.enters l ∧ g.turn = v
  owns := Turn.Owns
  allow _ _ _ _ := True
  entry := by
    intro t l hentry s
    cases t with
    | rx handle => cases l <;> cases hentry
    | app n =>
        refine ⟨_, ⟨.idle true, ?_, rfl⟩, ⟨fun _ => ⟨n, rfl⟩, fun _ => rfl⟩,
          fun h => Bool.noConfusion h⟩
        cases l <;> first | rfl | cases hentry
  spawn := by
    intro o r s u l hspawn
    obtain ⟨-, ⟨handle, rfl⟩, rfl⟩ := spawned_rx hspawn
    refine ⟨_, ⟨.idle false, rfl, rfl⟩, ⟨fun h => Bool.noConfusion h, fun h => ?_⟩,
      fun h => Bool.noConfusion h⟩
    obtain ⟨n, hn⟩ := h
    cases hn
  self := by
    intro env pool t o s v howns hpermits _ _
    exact turn_self howns
  frame := by
    intro env pool t o s v u w howns hpermits hready _ htu hother
    exact turn_frame howns hpermits hready htu hother

theorem turns_checked (b : Build) : (turns b).Checked := by
  rintro l _ ⟨g, hg, rfl⟩
  refine (socketUse_checked b l g hg).map turn_permits turn_next fun a w hdone l' hl => ?_
  exact ⟨w, hdone l' hl, rfl⟩

/-- In every run, whatever the sockets and the power library answer, only one call
at a time is at an operation on the transport, the power or the receive thread. -/
theorem calls_exclusive (hreach : (machine b).Reachable (initConfig stateCallback rxCallback) c)
    {m n : Nat} {l l' : Label} {o o' : Op} {k : o.Res → Cmd (Option Label)}
    {k' : o'.Res → Cmd (Option Label)} (hm : c.pool (.app m) = some ⟨l, .op o k⟩)
    (hn : c.pool (.app n) = some ⟨l', .op o' k'⟩) (ho : o.usesChip = true)
    (ho' : o'.usesChip = true) : m = n := by
  have hallow (x : ThreadConfig) (mv : Move Label Tid Env) : (turns b).Allowed x mv := by
    cases mv <;> simp [Typestate.Allowed, turns]
  have hholds : (turns b).Holds c :=
    Typestate.holds_path (turns_checked b) (fun x mv _ => hallow x mv) (fun _ => rfl) hreach
  have howner {i : Nat} {l : Label} {o : Op} {k : o.Res → Cmd (Option Label)}
      (hi : c.pool (.app i) = some ⟨l, .op o k⟩) (hchip : o.usesChip = true) :
      c.shared.locks .txLock = some (.app i) := by
    obtain ⟨v, howns, hpermits⟩ := hholds.permitted hi
    exact howns.locked (hpermits.ordered hchip (howns.caller.mpr ⟨i, rfl⟩))
  have heq : some (Tid.app m) = some (Tid.app n) := (howner hm ho).symm.trans (howner hn ho')
  cases heq
  rfl

/-- One call is about to write, and another one has been started. -/
theorem calls_exclusive_writing :
    ∃ c : ThreadConfig, (c.pool (.app 1)).isSome ∧ (c.pool (.app 2)).isSome ∧
      ∀ n l o k, c.pool (.app n) = some ⟨l, .op o k⟩ → o.usesChip = true → n = 1 := by
  obtain ⟨c, hpath, hc⟩ := Machine.exec_any (machine ⟨.wl12xx, false⟩) (fun _ _ => true)
    (.start (.app 0) .enableRadio :: List.replicate 14 (.act (.app 0) {}) ++
      .start (.app 1) (.txMessage [1, 2]) :: List.replicate 9 (.act (.app 1) {}) ++
      [.start (.app 2) .disableRadio, .act (.app 2) {}]) (initConfig true true)
    (fun c => (c.pool (.app 2)).isSome && (c.pool (.app 1)).any fun th =>
      th.head? = some (.writev 3 (writeDataBytes ⟨.wl12xx, false⟩ [1, 2]))) (by decide)
  obtain ⟨hother, hwriting⟩ := Bool.and_eq_true_iff.mp hc
  obtain ⟨⟨l, code⟩, hth, hhead⟩ := Option.any_eq_true _ _ |>.mp hwriting
  obtain ⟨k, rfl⟩ := Thread.code_of_head (of_decide_eq_true hhead)
  refine ⟨c, by simp [hth], hother, fun n l' o k' hn ho => ?_⟩
  exact calls_exclusive hpath.reachable hn hth ho rfl

end exclusion
end AntHal.Bluez

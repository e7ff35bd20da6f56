import AntHal.Concurrency.Obligation
import AntHal.Bluez.CommandComplete
import AntHal.Bluez.Operations
import AntHal.Bluez.JoinWaits

/-!
Who uses which HCI socket.

A call of `ant_tx_message` writes to the socket in g_ant_cmd_socket, which all calls
share, and polls and reads the one it has opened. Under txLock the two are the same.
A socket is used by the thread that has opened it only, and not after its close.
-/

namespace AntHal.Bluez

open Concurrency

section creation

/-- The calls of `create_hci_sock`. -/
inductive HciSockOp where
  | socket
  | bind (sk : Int)
  | close (sk : Int)

@[reducible] def HciSockOp.Res : HciSockOp → Type
  | .socket | .bind _ => Int
  | .close _ => Unit

/-- `create_hci_sock`, which is one operation of the machine. -/
def createHciSockBody : Prog HciSockOp HciSockOp.Res Int := do
  let sk ← Prog.perform HciSockOp.socket
  if sk < 0 then return sk
  else
    let result ← Prog.perform (HciSockOp.bind sk)
    if result < 0 then
      let _ ← Prog.perform (HciSockOp.close sk)
      return -1
    else return sk

/-- What its calls do to the sockets, if socket answers `sk` and bind answers `bind`. -/
def hciSockEffect (t : Tid) (sk : Option Nat) (bind : Int) :
    (o : HciSockOp) → Hci → o.Res × Hci
  | .socket, h =>
    match sk with
    | none => (-1, h)
    | some fd =>
      (Int.ofNat fd, { h with sockets := Function.update h.sockets fd (some ⟨t, []⟩) })
  | .bind _, h => (bind, h)
  | .close fd, h => ((), { h with sockets := Function.update h.sockets fd none })

/-- The descriptor that it returns: the one that socket answers, if it could be bound. -/
def createdSock (sk : Option Nat) (bind : Int) : Int :=
  (sk.filter fun _ => decide (0 ≤ bind)).elim (-1) Int.ofNat

/-- The operation does what the function does, a socket that cannot be bound is closed again. -/
theorem createHciSock_run {t : Tid} {sk : Option Nat} {bind : Int} {h : Hci}
    (hnew : ∀ fd : Nat, sk = some fd → h.sockets fd = none) :
    createHciSockBody.run (hciSockEffect t sk bind) h =
      (createdSock sk bind, h.after t .createHciSock (createdSock sk bind)) := by
  simp only [createHciSockBody, Prog.perform_bind, Prog.pure_eq, Prog.run_op]
  cases sk with
  | none => rfl
  | some fd =>
      have hfd : ¬ (Int.ofNat fd < 0) := Int.not_lt.mpr (Int.natCast_nonneg fd)
      simp only [hciSockEffect, hfd, if_false, Prog.run_op]
      by_cases hbind : bind < 0
      · have hnot : createdSock (some fd) bind = -1 := by
          simp [createdSock, Option.filter, Int.not_le.mpr hbind]
        have hclosed : Function.update (Function.update h.sockets (Int.ofNat fd) (some ⟨t, []⟩))
            (Int.ofNat fd) none = h.sockets := by
          rw [Function.update_idem, ← hnew fd rfl]
          exact Function.update_eq_self _ _
        simp only [hbind, if_true, Prog.run_op, Prog.run_ret, hciSockEffect, hnot, Hci.after]
        exact congrArg (fun sockets => ((-1 : Int), { h with sockets := sockets })) hclosed
      · have hcreated : createdSock (some fd) bind = Int.ofNat fd := by
          simp [createdSock, Option.filter, Int.not_lt.mp hbind]
        simp only [hbind, if_false, Prog.run_ret, hcreated, Hci.after, hfd]
        rfl

end creation

section property

/-- The socket that an operation is applied to. -/
def Op.socket? : Op → Option Int
  | .setCmdSocket fd | .setsockopt fd | .poll fd | .read fd | .writev fd _ | .close fd => some fd
  | _ => none

/-- Operations on the transport, on the power of the chip, and on the receive
thread. -/
@[local simp] def Op.usesChip : Op → Bool
  | .createHciSock | .setCmdSocket _ | .getCmdSocket | .setsockopt _ | .poll _ | .read _
  | .writev _ _ | .close _ | .antEnable | .antDisable | .pthreadCreate | .pthreadJoin _ => true
  | _ => false

/-- The socket that a block works with. -/
def Label.socket? : Label → Option Int
  | .txWrite tx | .txWait tx | .txRead tx | .txClose tx => some tx.txSocket
  | .rxLoop fd | .rxPoll fd | .rxRead fd | .rxClose fd => some fd
  | _ => none

/-- Along every path the program closes the socket, or ends with a block that
works with it. -/
def Closes (fd : Int) (p : Cmd (Option Label)) : Prop :=
  p.Until (fun _ _ => True) (· = .close fd) (fun _ => False)
    fun a => ∃ l, a = some l ∧ l.socket? = some fd

/-- The thread that has opened a socket. -/
def Hci.ownerOf (h : Hci) (fd : Int) : Option Tid := (h.sockets fd).map HciSocket.owner

structure SocketsOwned (c : WiredConfig) : Prop where
  /-- A socket that is used is open, and was opened by its user. -/
  used : ∀ t l o k fd, c.pool t = some ⟨l, .op o k⟩ → o.socket? = some fd →
    c.shared.hci.ownerOf fd = some t
  /-- An open socket has an owner that is still to close it. -/
  closed : ∀ t fd, 0 < fd → c.shared.hci.ownerOf fd = some t →
    ∃ th, c.pool t = some th ∧ Closes fd th.code
  /-- Call by call, `create_hci_sock` is the one operation: a socket that cannot be bound
  is closed again. -/
  created : ∀ (t : Tid) (sk : Option Nat) (bind : Int),
    (∀ fd : Nat, sk = some fd → c.shared.hci.sockets fd = none) →
    createHciSockBody.run (hciSockEffect t sk bind) c.shared.hci =
      (createdSock sk bind, c.shared.hci.after t .createHciSock (createdSock sk bind))

end property

section ownerOf
variable {h : Hci} {t : Tid} {fd : Int}

@[simp] theorem ownerOf_answerAll (h : Hci) (results : List UInt8) :
    (h.answerAll results).ownerOf = h.ownerOf := by
  induction results generalizing h with
  | nil => rfl
  | cons result results ih =>
      refine (ih (h.answer result)).trans ?_
      funext fd
      unfold Hci.answer Hci.ownerOf
      cases h.unanswered with
      | nil => rfl
      | cons call rest =>
          cases hs : h.sockets fd with
          | none => simp [hs]
          | some s => cases hown : s.owner <;> simp [hs, HciSocket.deliver, hown]

theorem ownerOf_receive (h : Hci) (t : Tid) (fd : Int) : (h.receive t fd).ownerOf = h.ownerOf := by
  funext fd'
  unfold Hci.receive Hci.ownerOf
  split
  case h_1 owner cc inbox hs =>
      by_cases hfd : fd' = fd
      · subst hfd
        simp [hs]
      · simp [Function.update_of_ne hfd]
  case h_2 => rfl

theorem ownerOf_create (hfd : 0 ≤ fd) :
    (h.after t .createHciSock fd).ownerOf = Function.update h.ownerOf fd (some t) := by
  funext fd'
  simp only [Hci.after, if_neg (Int.not_lt.mpr hfd), Hci.ownerOf]
  by_cases heq : fd' = fd
  · subst heq
    simp
  · simp [Function.update_of_ne heq, Hci.ownerOf]

theorem ownerOf_refused (hfd : fd < 0) : (h.after t .createHciSock fd).ownerOf = h.ownerOf := by
  simp only [Hci.after, if_pos hfd]

theorem ownerOf_close (r : Unit) :
    (h.after t (.close fd) r).ownerOf = Function.update h.ownerOf fd none := by
  funext fd'
  by_cases heq : fd' = fd
  · subst heq
    simp [Hci.after, Hci.ownerOf]
  · simp [Hci.after, Hci.ownerOf, Function.update_of_ne heq]

/-- Only an open and a close change who owns which socket. -/
theorem ownerOf_kept {o : Op} (hcreate : o ≠ .createHciSock) (hclose : ∀ fd, o ≠ .close fd)
    (r : o.Res) : (h.after t o r).ownerOf = h.ownerOf := by
  cases o with
  | createHciSock => exact absurd rfl hcreate
  | close fd => exact absurd rfl (hclose fd)
  | writev fd bytes =>
      funext fd'
      simp only [Hci.ownerOf, (Transport.writev_after t fd bytes r h).1]
  | read fd =>
      cases r with
      | ok r => exact ownerOf_receive h t fd
      | again | error => rfl
  | _ => rfl

end ownerOf

/-- What a thread has of the transport. -/
structure Grip where
  /-- A call of the application. -/
  caller : Bool
  /-- It holds txLock. -/
  locked : Bool
  /-- The socket that it has opened. -/
  socket : Option Int
  /-- That socket is the one in g_ant_cmd_socket. -/
  recorded : Bool
  /-- The socket that it has read from there. -/
  told : Option Int

namespace Grip

def idle (caller : Bool) : Grip := ⟨caller, false, none, false, none⟩

/-- Without its own socket a thread uses none. -/
def fits (v : Grip) : Op → Prop
  | .mutexLock .txLock => v.caller = true
  | .mutexUnlock .txLock => v.locked = true
  | .createHciSock => v.socket = none
  | .getCmdSocket => v.recorded = true
  | .setCmdSocket fd => v.locked = true ∧ v.socket = some fd
  | .setsockopt fd | .poll fd | .read fd | .close fd => v.socket = some fd
  | .writev fd _ => v.told = some fd
  | _ => True

/-- Calls use the chip under txLock. -/
def Ordered (caller locked : Bool) (o : Op) : Prop :=
  o.usesChip = true → caller = true → locked = true

structure Permits (v : Grip) (o : Op) : Prop where
  ordered : Ordered v.caller v.locked o
  fits : v.fits o

def next (v : Grip) : (o : Op) → o.Res → Grip
  | .mutexLock .txLock, r => if r = 0 then { v with locked := true } else v
  | .mutexUnlock .txLock, _ => idle v.caller
  | .createHciSock, fd => if fd < 0 then v else { v with socket := some fd }
  | .setCmdSocket _, _ => { v with recorded := true, told := none }
  | .getCmdSocket, fd => { v with told := some fd }
  | .close _, _ => { v with socket := none, recorded := false, told := none }
  | _, _ => v

def enters : Label → Grip → Prop
  | .txWrite tx, v | .txWait tx, v | .txRead tx, v | .txClose tx, v =>
    v.locked = true ∧ v.socket = some tx.txSocket ∧ v.recorded = true
  | .rxLoop fd, v | .rxPoll fd, v | .rxRead fd, v | .rxClose fd, v =>
    v.caller = false ∧ v.socket = some fd
  | .rxStart, v => v = idle false
  | _, v => v = idle true

structure Owns (s : Wired) (t : Tid) (v : Grip) : Prop where
  caller : v.caller = true ↔ ∃ n, t = .app n
  locked : v.locked = true → s.shared.locks .txLock = some t
  socket : ∀ fd, v.socket = some fd → s.hci.ownerOf fd = some t
  recorded : v.recorded = true → v.locked = true ∧ v.socket = some s.shared.gAntCmdSocket
  told : ∀ fd, v.told = some fd → v.recorded = true ∧ fd = s.shared.gAntCmdSocket

section owns
variable {s s' : Wired} {t u : Tid} {v w : Grip} {o : Op}

/-- What keeps the lock, the sockets and g_ant_cmd_socket of a thread. -/
theorem Owns.kept (h : Owns s u w)
    (hlock : s.shared.locks .txLock = some u → s'.shared.locks .txLock = some u)
    (hsocket : ∀ fd, s.hci.ownerOf fd = some u → s'.hci.ownerOf fd = some u)
    (hrecorded : w.recorded = true → s'.shared.gAntCmdSocket = s.shared.gAntCmdSocket) :
    Owns s' u w where
  caller := h.caller
  locked hw := hlock (h.locked hw)
  socket fd hfd := hsocket fd (h.socket fd hfd)
  recorded hw := by
    rw [hrecorded hw]
    exact h.recorded hw
  told fd hfd := by
    rw [hrecorded (h.told fd hfd).1]
    exact h.told fd hfd

theorem owns_answerAll {results : List UInt8} (h : Owns s t v) :
    Owns ⟨s.shared, s.hci.answerAll results⟩ t v :=
  h.kept (fun hs => hs) (fun fd hs => by rwa [ownerOf_answerAll]) fun _ => rfl

theorem owns_idle (s : Wired) {caller : Bool} (h : caller = true ↔ ∃ n, t = .app n) :
    Owns s t (idle caller) where
  caller := h
  locked hw := Bool.noConfusion hw
  socket fd hfd := by cases hfd
  recorded hw := Bool.noConfusion hw
  told fd hfd := by cases hfd

theorem gAntCmdSocket_kept {env : Env} {s : Shared} (h : ∀ fd, o ≠ .setCmdSocket fd) :
    (effect t env o s).2.gAntCmdSocket = s.gAntCmdSocket := by
  cases o with
  | setCmdSocket fd => exact absurd rfl (h fd)
  | mutexLock | mutexTrylock | pthreadCreate | read | writev =>
      simp only [effect]
      repeat' split
      all_goals rfl
  | _ => rfl

/-- A thread that uses a socket has opened it. -/
theorem Owns.uses (h : Owns s t v) (hpermits : v.Permits o) {fd : Int}
    (hfd : o.socket? = some fd) : s.hci.ownerOf fd = some t := by
  cases o with
  | setCmdSocket fd' =>
      cases hfd
      exact h.socket fd hpermits.fits.2
  | writev fd' bytes =>
      cases hfd
      obtain ⟨hrecorded, rfl⟩ := h.told fd hpermits.fits
      exact h.socket _ (h.recorded hrecorded).2
  | setsockopt fd' | poll fd' | read fd' | close fd' =>
      cases hfd
      exact h.socket fd hpermits.fits
  | _ => cases hfd

/-- An operation of another thread takes nothing from a thread. -/
theorem owns_frame {b : Build} {env : Env} {pool : Pool Op Op.Res Label Tid} (ht : Owns s t v)
    (hpermits : v.Permits o) (hready : isReady pool env o s.shared = true)
    (hagrees : agrees b.board t env s.hci o = true) (htu : u ≠ t) (h : Owns s u w) :
    Owns ⟨(effect t env o s.shared).2, s.hci.after t o (effect t env o s.shared).1⟩ u w := by
  have hplain (hlock : o ≠ .mutexLock .txLock) (hunlock : o ≠ .mutexUnlock .txLock)
      (hcreate : o ≠ .createHciSock) (hclose : ∀ fd, o ≠ .close fd)
      (hset : ∀ fd, o ≠ .setCmdSocket fd) :
      Owns ⟨(effect t env o s.shared).2, s.hci.after t o (effect t env o s.shared).1⟩ u w := by
    refine h.kept (Transport.owner_kept hlock hunlock) (fun fd hs => ?_)
      fun _ => gAntCmdSocket_kept hset
    rw [ownerOf_kept hcreate hclose]
    exact hs
  cases o with
  | mutexLock l =>
      cases l with
      | enableLock => exact hplain (by simp) (by simp) (by simp) (by simp) (by simp)
      | txLock =>
          refine h.kept (fun hs => ?_) (fun _ hs => hs) fun _ => gAntCmdSocket_kept (by simp)
          have herr : env.mutex ≠ 0 := by simpa [isReady, hs] using hready
          simpa [effect, herr] using hs
  | mutexUnlock l =>
      cases l with
      | enableLock => exact hplain (by simp) (by simp) (by simp) (by simp) (by simp)
      | txLock =>
          refine h.kept (fun hs => ?_) (fun _ hs => hs) fun _ => rfl
          exact absurd (Option.some.inj (hs.symm.trans (ht.locked hpermits.fits))) htu
  | createHciSock =>
      refine h.kept (Transport.owner_kept (by simp) (by simp)) (fun fd hs => ?_) fun _ => rfl
      cases hsock : env.hciSock with
      | none =>
          rw [show (effect t env .createHciSock s.shared).1 = -1 by simp [effect, hsock],
            ownerOf_refused (by omega)]
          exact hs
      | some n =>
          rw [show (effect t env .createHciSock s.shared).1 = Int.ofNat n by simp [effect, hsock],
            ownerOf_create (by simp)]
          refine (Function.update_of_ne ?_ _ _).trans hs
          rintro rfl
          simp [agrees, hsock] at hagrees
          simp [Hci.ownerOf, hagrees] at hs
  | close fd =>
      refine h.kept (Transport.owner_kept (by simp) (by simp)) (fun fd' hs => ?_) fun _ => rfl
      rw [ownerOf_close]
      refine (Function.update_of_ne ?_ _ _).trans hs
      rintro rfl
      exact htu (Option.some.inj (hs.symm.trans (ht.uses hpermits rfl)))
  | setCmdSocket fd =>
      refine h.kept (fun hs => hs) (fun _ hs => hs) fun hrecorded => ?_
      have hlock := h.locked (h.recorded hrecorded).1
      exact absurd (Option.some.inj (hlock.symm.trans (ht.locked hpermits.fits.1))) htu
  | _ => exact hplain (by simp) (by simp) (by simp) (by simp) (by simp)

/-- After its own operation a thread has what the operation has given it. -/
theorem owns_self {env : Env} (h : Owns s t v) (hpermits : v.Permits o) :
    Owns ⟨(effect t env o s.shared).2, s.hci.after t o (effect t env o s.shared).1⟩ t
      (v.next o (effect t env o s.shared).1) := by
  have hplain (hlock : o ≠ .mutexLock .txLock) (hunlock : o ≠ .mutexUnlock .txLock)
      (hcreate : o ≠ .createHciSock) (hclose : ∀ fd, o ≠ .close fd)
      (hset : ∀ fd, o ≠ .setCmdSocket fd) :
      Owns ⟨(effect t env o s.shared).2, s.hci.after t o (effect t env o s.shared).1⟩ t v := by
    refine h.kept (Transport.owner_kept hlock hunlock) (fun fd hs => ?_)
      fun _ => gAntCmdSocket_kept hset
    rw [ownerOf_kept hcreate hclose]
    exact hs
  cases o with
  | mutexLock l =>
      cases l with
      | enableLock => exact hplain (by simp) (by simp) (by simp) (by simp) (by simp)
      | txLock =>
          simp only [effect]
          split
          · exact ⟨h.caller, fun _ => Shared.setLock_self _ _ _, h.socket,
              fun hw => ⟨rfl, (h.recorded hw).2⟩, h.told⟩
          · rename_i herr
            simp only [next, herr, if_false]
            exact h
  | mutexUnlock l =>
      cases l with
      | enableLock => exact hplain (by simp) (by simp) (by simp) (by simp) (by simp)
      | txLock => exact owns_idle _ h.caller
  | createHciSock =>
      have hlock (hw : v.locked = true) :
          (effect t env .createHciSock s.shared).2.locks .txLock = some t :=
        Transport.owner_kept (by simp) (by simp) (h.locked hw)
      have hfree : v.recorded = true → False := fun hw => by
        cases hpermits.fits.symm.trans (h.recorded hw).2
      by_cases hfd : (effect t env .createHciSock s.shared).1 < 0
      · simp only [next, if_pos hfd]
        refine ⟨h.caller, hlock, fun fd hs => ?_, fun hw => (hfree hw).elim, h.told⟩
        cases hpermits.fits.symm.trans hs
      · simp only [next, if_neg hfd]
        refine ⟨h.caller, hlock, fun fd hs => ?_, fun hw => (hfree hw).elim, h.told⟩
        cases hs
        rw [ownerOf_create (Int.not_lt.mp hfd)]
        exact Function.update_self _ _ _
  | setCmdSocket fd =>
      exact ⟨h.caller, h.locked, h.socket, fun _ => ⟨hpermits.fits.1, hpermits.fits.2⟩,
        fun fd' hfd => by cases hfd⟩
  | getCmdSocket =>
      refine ⟨h.caller, h.locked, h.socket, h.recorded, fun fd hfd => ?_⟩
      cases hfd
      exact ⟨hpermits.fits, rfl⟩
  | close fd =>
      exact ⟨h.caller, h.locked, fun fd' hs => (by cases hs), fun hw => Bool.noConfusion hw,
        fun fd' hs => (by cases hs)⟩
  | _ => exact hplain (by simp) (by simp) (by simp) (by simp) (by simp)

end owns
end Grip

def socketUse (b : Build) : Typestate (wired b) Grip where
  permits := Grip.Permits
  next := Grip.next
  enters := Grip.enters
  owns := Grip.Owns
  allow _ _ _ _ := True
  entry := by
    intro t l hentry s
    cases t with
    | rx handle => cases l <;> cases hentry
    | app n =>
        refine ⟨.idle true, ?_, Grip.owns_idle s ⟨fun _ => ⟨n, rfl⟩, fun _ => rfl⟩⟩
        cases l <;> first | rfl | cases hentry
  spawn := by
    intro o r s u l hspawn
    obtain ⟨-, ⟨handle, rfl⟩, rfl⟩ := spawned_rx hspawn
    refine ⟨.idle false, rfl, Grip.owns_idle s ⟨fun h => Bool.noConfusion h, fun h => ?_⟩⟩
    obtain ⟨n, hn⟩ := h
    cases hn
  self := by
    intro env pool t o s v howns hpermits _ _
    exact Grip.owns_self (Grip.owns_answerAll howns) hpermits
  frame := by
    intro env pool t o s v u w howns hpermits hready _ htu hother
    obtain ⟨hready, hagrees⟩ := Bool.and_eq_true_iff.mp hready
    exact Grip.owns_frame (s := ⟨s.shared, s.hci.answerAll env.answers⟩)
      (Grip.owns_answerAll howns) hpermits hready hagrees htu (Grip.owns_answerAll hother)

section programs
variable {b : Build} {α : Type} {v : Grip} {Q : α → Grip → Prop}

/-- Operations that have nothing to do with txLock and the chip. -/
def OffChip (o : Op) : Prop :=
  o ≠ .mutexLock .txLock ∧ o ≠ .mutexUnlock .txLock ∧ o.usesChip = false

/-- Operations that have nothing to do with txLock and the sockets. -/
def OffSockets (o : Op) : Prop :=
  OffChip o ∨ o = .antEnable ∨ o = .antDisable ∨ o = .pthreadCreate ∨ ∃ h, o = .pthreadJoin h

abbrev ChipFree (p : Cmd α) : Prop := p.Only OffChip fun _ => True

abbrev SocketFree (p : Cmd α) : Prop := p.Only OffSockets fun _ => True

theorem offChip_keeps {o : Op} (ho : OffChip o) :
    (socketUse b).permits v o ∧ ∀ r, (socketUse b).next v o r = v := by
  obtain ⟨hlock, hunlock, hchip⟩ := ho
  have hordered : Grip.Ordered v.caller v.locked o := fun h => by cases hchip.symm.trans h
  cases o with
  | mutexLock l | mutexUnlock l =>
      cases l with
      | txLock => simp at hlock hunlock
      | enableLock => exact ⟨⟨hordered, trivial⟩, fun _ => rfl⟩
  | createHciSock | setCmdSocket | getCmdSocket | setsockopt | poll | read | writev | close
    | antEnable | antDisable | pthreadCreate | pthreadJoin => cases hchip
  | _ => exact ⟨⟨hordered, trivial⟩, fun _ => rfl⟩

theorem offSockets_keeps (hv : v.caller = true → v.locked = true) {o : Op} (ho : OffSockets o) :
    (socketUse b).permits v o ∧ ∀ r, (socketUse b).next v o r = v := by
  rcases ho with ho | rfl | rfl | rfl | ⟨h, rfl⟩
  · exact offChip_keeps ho
  all_goals exact ⟨⟨fun _ => hv, trivial⟩, fun _ => rfl⟩

theorem sat_offChip {β : Type} {p : Cmd β} {f : β → Cmd α} (h : ChipFree p)
    (hf : ∀ a, (socketUse b).Sat Q v (f a)) : (socketUse b).Sat Q v (p >>= f) := by
  refine (socketUse b).sat_bind (((socketUse b).sat_only h fun _ => offChip_keeps).mono _ ?_)
  intro a w hw
  obtain ⟨rfl, -⟩ := hw
  exact hf a

theorem sat_offSockets {β : Type} {p : Cmd β} {f : β → Cmd α}
    (hv : v.caller = true → v.locked = true) (h : SocketFree p)
    (hf : ∀ a, (socketUse b).Sat Q v (f a)) :
    (socketUse b).Sat Q v (p >>= f) := by
  refine (socketUse b).sat_bind (((socketUse b).sat_only h fun _ => offSockets_keeps hv).mono _ ?_)
  intro a w hw
  obtain ⟨rfl, -⟩ := hw
  exact hf a

theorem sat_op_offChip {o : Op} {k : o.Res → Cmd α} (ho : OffChip o)
    (hk : ∀ r, (socketUse b).Sat Q v (k r)) : (socketUse b).Sat Q v (.op o k) := by
  obtain ⟨hpermits, hnext⟩ := offChip_keeps (b := b) (v := v) ho
  exact ⟨hpermits, fun r => (hnext r).symm ▸ hk r⟩

theorem Queries.chipFree {p : Cmd α} (h : Queries p) : ChipFree p := by
  refine h.mono (fun o ho => ?_) fun _ _ => trivial
  cases o <;> first | exact ⟨Op.noConfusion, Op.noConfusion, rfl⟩ | cases ho

/-- The control of the radio uses the power library and the receive thread, and no
socket. -/
theorem offSockets_of_control {o : Op} (ho : IsControl o) : OffSockets o := by
  cases o with
  | antEnable => exact .inr (.inl rfl)
  | antDisable => exact .inr (.inr (.inl rfl))
  | pthreadCreate => exact .inr (.inr (.inr (.inl rfl)))
  | pthreadJoin h => exact .inr (.inr (.inr (.inr ⟨h, rfl⟩)))
  | _ => first | exact .inl ⟨Op.noConfusion, Op.noConfusion, rfl⟩ | cases ho

theorem Controls.socketFree {p : Cmd α} (h : Controls p) : SocketFree p :=
  h.mono (fun _ => offSockets_of_control) fun _ _ => trivial

/-- The receive thread holds no txLock for its clean-up. -/
theorem crashCleanUp_offSockets (result : Int) : SocketFree (crashCleanUp b result) := by
  refine (crashCleanUp_unlocks result).mono (fun o ho => ?_) fun _ _ => trivial
  obtain ho | rfl := ho
  · exact offSockets_of_control ho
  · exact .inl ⟨Op.noConfusion, by simp, rfl⟩

/-- A call takes txLock around what it does with the chip. -/
theorem socketUse_underTxLock {f : Func} {locked : Cmd AntStatus}
    (h : SocketFree locked) {k : AntStatus → Cmd (Option Label)}
    (hk : ∀ a, (socketUse b).Sat (socketUse b).Done (.idle true) (k a)) :
    (socketUse b).Sat (socketUse b).Done (.idle true) (underTxLock f locked >>= k) := by
  refine (socketUse b).sat_bind ?_
  simp only [underTxLock, Prog.op_bind, Prog.ret_bind, Prog.pure_eq]
  refine ⟨⟨fun hchip => Bool.noConfusion hchip, rfl⟩, fun r => ?_⟩
  have hunlock (a : AntStatus) : (socketUse b).Sat
      (fun a w => (socketUse b).Sat (socketUse b).Done w (k a)) (.idle true)
        (unlockReturn f a >>= fun _ => .ret a) :=
    sat_op_offChip (by simp [OffChip, Op.usesChip]) fun _ => hk a
  by_cases hr : r = 0
  · subst hr
    refine sat_offSockets (fun _ => rfl) h fun ret => ?_
    exact ⟨⟨fun hchip => Bool.noConfusion hchip, rfl⟩, fun _ => hunlock ret⟩
  · have hnext : (socketUse b).next (.idle true) (.mutexLock .txLock) r = .idle true := by
      simp [socketUse, Grip.next, hr]
    dsimp only
    rw [hnext, if_pos hr]
    exact hunlock .failed

theorem done_none (w : Grip) : (socketUse b).Done none w := by
  intro l hl
  cases hl

theorem done_at {l : Label} (h : v.enters l) : (socketUse b).Done (some l) v := by
  intro l' hl
  cases hl
  exact h

theorem socketUse_enableRadio :
    (socketUse b).Sat (socketUse b).Done (.idle true) (body b .enableRadio) := by
  have hmark : ChipFree markEnabling := by
    simp [markEnabling, OffChip, Op.usesChip]
  simp only [body, antEnableRadio, Prog.op_bind, Prog.ret_bind, Prog.pure_eq]
  refine sat_op_offChip (by simp [OffChip, Op.usesChip]) fun _ =>
    sat_op_offChip (by simp [OffChip, Op.usesChip]) fun r => ?_
  split
  · exact sat_op_offChip (by simp [OffChip, Op.usesChip]) fun _ => done_none _
  · rw [Prog.bind_assoc]
    exact sat_offChip hmark fun _ =>
      socketUse_underTxLock enableRadioLocked_controls.socketFree fun _ => done_none _

theorem socketUse_disableRadio :
    (socketUse b).Sat (socketUse b).Done (.idle true) (body b .disableRadio) := by
  simp only [body, antDisableRadio, Prog.op_bind, Prog.ret_bind, Prog.pure_eq]
  refine sat_op_offChip (by simp [OffChip, Op.usesChip]) fun _ =>
    sat_op_offChip (by simp [OffChip, Op.usesChip]) fun r => ?_
  split
  · exact sat_op_offChip (by simp [OffChip, Op.usesChip]) fun _ => done_none _
  · exact socketUse_underTxLock disableRadioLocked_controls.socketFree fun _ => done_none _

section sending
variable {pucMesg : List UInt8} {tx : Sending}

/-- The call returns without a socket that it would have to close. -/
theorem socketUse_release (hlocked : v.locked = true) (status : AntStatus) :
    (socketUse b).Sat (socketUse b).Done v (do
      mutexUnlock .txLock
      funcEnd .antTxMessage (.status status)
      return (none : Option Label)) :=
  ⟨⟨fun hchip => Bool.noConfusion hchip, hlocked⟩, fun _ =>
    sat_op_offChip (by simp [OffChip, Op.usesChip]) fun _ => done_none _⟩

/-- `ant_tx_message` behind the open of its socket. -/
def sendOver (pucMesg : List UInt8) (txSocket : Int) : Cmd (Option Label) :=
  if txSocket < 0 then do
    mutexUnlock .txLock
    funcEnd .antTxMessage (.status .failed)
    return none
  else do
    let startTime ← time
    return some (.txWrite ⟨pucMesg, txSocket, txEndTime startTime, 0, .failed⟩)

theorem beginSending_enabled :
    beginSending pucMesg .enabled = antOpenTxTransport >>= sendOver pucMesg :=
  if_neg fun h => h rfl

theorem socketUse_sendOver {fd : Int} (hlocked : v.locked = true)
    (hfd : 0 ≤ fd → v.socket = some fd ∧ v.recorded = true) :
    (socketUse b).Sat (socketUse b).Done v (sendOver pucMesg fd) := by
  unfold sendOver
  split
  · exact socketUse_release hlocked _
  · refine sat_op_offChip (by simp [OffChip, Op.usesChip]) fun startTime => done_at ?_
    exact ⟨hlocked, hfd (by omega)⟩

/-- The socket that is opened is the one that is recorded. -/
theorem socketUse_beginSending (status : RadioStatus) :
    (socketUse b).Sat (socketUse b).Done ⟨true, true, none, false, none⟩
      (beginSending pucMesg status) := by
  by_cases hstatus : status = .enabled
  · subst hstatus
    rw [beginSending_enabled]
    refine (socketUse b).sat_bind ?_
    simp only [antOpenTxTransport, Prog.op_bind, Prog.ret_bind, Prog.pure_eq]
    refine ⟨⟨fun _ _ => rfl, rfl⟩, fun fd => ?_⟩
    dsimp only
    by_cases hfd : fd < 0
    · have hnext : (socketUse b).next ⟨true, true, none, false, none⟩ .createHciSock fd =
          ⟨true, true, none, false, none⟩ := by
        simp [socketUse, Grip.next, hfd]
      rw [hnext, if_pos hfd]
      exact socketUse_sendOver rfl fun hpos => absurd hfd (Int.not_lt.mpr hpos)
    · have hnext : (socketUse b).next ⟨true, true, none, false, none⟩ .createHciSock fd =
          ⟨true, true, some fd, false, none⟩ := by
        simp [socketUse, Grip.next, hfd]
      rw [hnext, if_neg hfd]
      refine ⟨⟨fun _ _ => rfl, rfl, rfl⟩, fun _ => ⟨⟨fun _ _ => rfl, rfl⟩, fun ret => ?_⟩⟩
      dsimp only
      split
      · exact ⟨⟨fun _ _ => rfl, rfl⟩, fun _ => socketUse_sendOver rfl fun hpos => by omega⟩
      · exact socketUse_sendOver rfl fun _ => ⟨rfl, rfl⟩
  · unfold beginSending
    rw [if_pos hstatus]
    exact socketUse_release rfl _

theorem socketUse_txMessage :
    (socketUse b).Sat (socketUse b).Done (.idle true) (antTxMessage b pucMesg) := by
  simp only [antTxMessage, Prog.op_bind, Prog.ret_bind, Prog.pure_eq]
  refine sat_op_offChip (by simp [OffChip, Op.usesChip]) fun _ =>
    ⟨⟨fun hchip => Bool.noConfusion hchip, rfl⟩, fun r => ?_⟩
  dsimp only
  by_cases hr : r = 0
  · subst hr
    exact sat_offChip getAndSetRadioStatus_queries.chipFree fun status =>
      socketUse_beginSending status
  · have hnext : (socketUse b).next (.idle true) (.mutexLock .txLock) r = .idle true := by
      simp [socketUse, Grip.next, hr]
    rw [hnext, if_pos hr]
    exact sat_op_offChip (by simp [OffChip, Op.usesChip]) fun _ => done_none _

variable (hv : v.locked = true ∧ v.socket = some tx.txSocket ∧ v.recorded = true)
include hv

/-- What is written goes to the socket in g_ant_cmd_socket. -/
theorem socketUse_txWrite : (socketUse b).Sat (socketUse b).Done v (txWrite b tx) := by
  simp only [txWrite, Prog.op_bind, Prog.ret_bind, Prog.pure_eq]
  refine ⟨⟨fun _ _ => hv.1, hv.2.2⟩, fun socket => ?_⟩
  dsimp only
  split
  · exact done_at hv
  · refine ⟨⟨fun _ _ => hv.1, rfl⟩, fun bytesWritten => done_at ?_⟩
    cases bytesWritten with
    | again | error => exact hv
    | ok n =>
        dsimp only
        split <;> exact hv

theorem socketUse_txWait : (socketUse b).Sat (socketUse b).Done v (txWait tx) := by
  refine ⟨⟨fun _ _ => hv.1, hv.2.1⟩, fun n => done_at ?_⟩
  cases n with
  | again | error => exact hv
  | ok n =>
      dsimp only
      split <;> exact hv

theorem socketUse_handleCommandComplete :
    (socketUse b).Sat (socketUse b).Done v (handleCommandComplete tx) := by
  unfold handleCommandComplete
  split
  · exact done_at hv
  · dsimp only
    split <;> exact done_at hv
  · refine sat_op_offChip (by simp [OffChip, Op.usesChip]) fun _ =>
      sat_op_offChip (by simp [OffChip, Op.usesChip]) fun currentTime => ?_
    cases currentTime with
    | none => exact done_at hv
    | some now =>
        refine done_at ?_
        split <;> exact hv
  · exact done_at hv

theorem socketUse_txRead : (socketUse b).Sat (socketUse b).Done v (txRead b tx) := by
  simp only [txRead, Prog.op_bind, Prog.ret_bind, Prog.pure_eq]
  refine ⟨⟨fun _ _ => hv.1, hv.2.1⟩, fun packet => ?_⟩
  dsimp only
  cases packet with
  | again => exact done_at hv
  | error | ok => exact socketUse_handleCommandComplete hv

theorem socketUse_txClose : (socketUse b).Sat (socketUse b).Done v (txClose tx) := by
  unfold txClose antCloseTxTransport
  split
  · refine ⟨⟨fun _ _ => hv.1, hv.2.1⟩, fun _ => ?_⟩
    exact socketUse_release (v := { v with socket := none, recorded := false, told := none }) hv.1 _
  · exact socketUse_release hv.1 _

end sending

section receiving

theorem socketUse_rxStart : (socketUse b).Sat (socketUse b).Done (.idle false) rxStart := by
  simp only [rxStart, Prog.op_bind, Prog.ret_bind, Prog.pure_eq]
  refine sat_op_offChip (by simp [OffChip, Op.usesChip]) fun _ =>
    ⟨⟨fun _ hcaller => Bool.noConfusion hcaller, rfl⟩, fun fd => ?_⟩
  dsimp only
  split
  · exact done_none _
  · rename_i hfd
    have hnext : (socketUse b).next (.idle false) .createHciSock fd =
        { Grip.idle false with socket := some fd } := by
      simp [socketUse, Grip.next, hfd]
    rw [hnext]
    refine ⟨⟨fun _ hcaller => Bool.noConfusion hcaller, rfl⟩, fun ret => ?_⟩
    dsimp only
    split <;> exact done_at ⟨rfl, rfl⟩

variable {fd : Int} (hv : v.caller = false ∧ v.socket = some fd)
include hv

/-- The receive thread needs no txLock. -/
theorem ordered_rx (o : Op) : Grip.Ordered v.caller v.locked o := by
  intro _ hcaller
  cases hv.1.symm.trans hcaller

theorem socketUse_rxLoop : (socketUse b).Sat (socketUse b).Done v (rxLoop b fd) := by
  refine sat_offChip getAndSetRadioStatus_queries.chipFree fun status => ?_
  split <;> exact done_at hv

theorem socketUse_rxPoll : (socketUse b).Sat (socketUse b).Done v (rxPoll fd) := by
  refine ⟨⟨ordered_rx hv _, hv.2⟩, fun n => done_at ?_⟩
  cases n with
  | again | error => exact hv
  | ok n =>
      dsimp only
      split <;> exact hv

theorem socketUse_rxRead : (socketUse b).Sat (socketUse b).Done v (rxRead b fd) := by
  simp only [rxRead, Prog.op_bind, Prog.ret_bind, Prog.pure_eq]
  refine ⟨⟨ordered_rx hv _, hv.2⟩, fun packet => ?_⟩
  dsimp only
  cases packet with
  | again | error => exact done_at hv
  | ok packet =>
      have hdeliver : ChipFree (deliver b packet.1 packet.2) := by
        simp [deliver, OffChip, Op.usesChip]
      exact sat_offChip hdeliver fun _ => done_at hv

theorem socketUse_rxClose : (socketUse b).Sat (socketUse b).Done v (rxClose b fd) := by
  simp only [rxClose, Prog.op_bind, Prog.ret_bind, Prog.pure_eq]
  refine sat_op_offChip (by simp [OffChip, Op.usesChip]) fun result =>
    sat_offSockets (ordered_rx hv .antDisable rfl) (crashCleanUp_offSockets result) fun _ => ?_
  exact ⟨⟨ordered_rx hv _, hv.2⟩, fun _ => done_none _⟩

end receiving

theorem socketUse_checked (b : Build) : (socketUse b).Checked := by
  intro l v hv
  cases l with
  | enableRadio => exact hv ▸ socketUse_enableRadio
  | disableRadio => exact hv ▸ socketUse_disableRadio
  | radioEnabledStatus =>
      exact sat_offChip antRadioEnabledStatus_queries.chipFree fun _ => done_none _
  | txMessage pucMesg => exact hv ▸ socketUse_txMessage
  | txWrite tx => exact socketUse_txWrite hv
  | txWait tx => exact socketUse_txWait hv
  | txRead tx => exact socketUse_txRead hv
  | txClose tx => exact socketUse_txClose hv
  | rxStart => exact hv ▸ socketUse_rxStart
  | rxLoop fd => exact socketUse_rxLoop hv
  | rxPoll fd => exact socketUse_rxPoll hv
  | rxRead fd => exact socketUse_rxRead hv
  | rxClose fd => exact socketUse_rxClose hv

end programs
end AntHal.Bluez

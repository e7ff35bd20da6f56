import AntHal.Concurrency.Typestate
import AntHal.Bluez.LockInvariant
import AntHal.Bluez.Wired

/-!
Whose command does a Command Complete answer?

A call takes the first Command Complete that comes to its socket for the answer
to its command. That is so unless a command was still unanswered when an earlier
call gave up.
-/

namespace AntHal.Bluez

open Concurrency

section property

/-- A call that is about to return ANT_STATUS_SUCCESS has read a Command Complete
with result 0 that answers a command of its own. -/
def Credited (c : WiredConfig) : Prop :=
  ∀ t l k, c.pool t = some ⟨l, .op (.funcEnd .antTxMessage (.status .success)) k⟩ →
    c.shared.hci.lastRead t = some ⟨t, 0⟩

/-- An answer with result 0 to a command of another call does not come while the
call that holds txLock has its socket open. -/
def comesInTime (holder : Option Tid) (h : Hci) (result : UInt8) : Prop :=
  ∀ call rest u, h.unanswered = call :: rest → result = 0 → holder = some u →
    u = call ∨ ∀ fd s, h.sockets fd = some s → s.owner ≠ u

def comeInTime (holder : Option Tid) : List UInt8 → Hci → Prop
  | [], _ => True
  | result :: results, h =>
    comesInTime holder h result ∧ comeInTime holder results (h.answer result)

def inTime (c : WiredConfig) : Move Label Tid WiredEnv → Prop
  | .start _ _ => True
  | .act _ env => comeInTime (c.shared.shared.locks .txLock) env.answers c.shared.hci

end property

/-- What a thread holds of the transport. -/
structure Transport where
  /-- A call of the application. -/
  caller : Bool
  locked : Bool
  socket : Option Int
  /-- The last packet that was read under txLock is a success. -/
  success : Bool

namespace Transport

def idle (caller : Bool) : Transport := ⟨caller, false, none, false⟩

/-- A thread uses its own socket only, and unlocks what it has locked. -/
def permits (v : Transport) : Op → Prop
  | .mutexLock .txLock => v.caller = true ∧ v.socket = none
  | .mutexUnlock .txLock => v.locked = true
  | .createHciSock => v.socket = none
  | .close fd | .read fd => v.socket = some fd
  | .funcEnd .antTxMessage (.status .success) => v.success = true
  | _ => True

def next (board : Board) (v : Transport) : (o : Op) → o.Res → Transport
  | .mutexLock .txLock, r => if r = 0 then { v with locked := true } else v
  | .mutexUnlock .txLock, _ => { v with locked := false, socket := none }
  | .createHciSock, fd => if fd < 0 then v else { v with socket := some fd }
  | .close _, _ => { v with socket := none }
  | .read _, .ok (len, buf) =>
    { v with success := v.locked && decide (commandCompleteStatus board buf len = .success) }
  | _, _ => v

def enters : Label → Transport → Prop
  | .txWrite tx, v | .txWait tx, v | .txRead tx, v =>
    v.locked = true ∧ v.socket = some tx.txSocket ∧ tx.status ≠ .success
  | .txClose tx, v =>
    v.locked = true ∧ v.socket = some tx.txSocket ∧ (tx.status = .success → v.success = true)
  | .rxLoop rxSocket, v | .rxPoll rxSocket, v | .rxRead rxSocket, v | .rxClose rxSocket, v =>
    v.socket = some rxSocket
  | .rxStart, v => v = idle false
  | _, v => v = idle true

structure Owns (s : Wired) (t : Tid) (v : Transport) : Prop where
  caller : v.caller = true → ∃ n, t = .app n
  locked : v.locked = true → v.caller = true ∧ s.shared.locks .txLock = some t
  /-- Under txLock the socket has got no success but the thread's own. -/
  socket : ∀ fd, v.socket = some fd → ∃ inbox, s.hci.sockets fd = some ⟨t, inbox⟩ ∧
    (v.locked = true → ∀ cc ∈ inbox, cc.result = 0 → cc.call = t)
  success : v.success = true → s.hci.lastRead t = some ⟨t, 0⟩

section owns
variable {s s' : Wired} {t u : Tid} {v w : Transport} {env : WiredEnv} {o : Op}

/-- What keeps the lock, the socket and the last packet of a thread. -/
theorem Owns.kept (h : Owns s u w)
    (hlock : s.shared.locks .txLock = some u → s'.shared.locks .txLock = some u)
    (hsockets : ∀ fd inbox, s.hci.sockets fd = some ⟨u, inbox⟩ →
      s'.hci.sockets fd = some ⟨u, inbox⟩)
    (hread : s'.hci.lastRead u = s.hci.lastRead u) : Owns s' u w where
  caller := h.caller
  locked hw := ⟨(h.locked hw).1, hlock (h.locked hw).2⟩
  socket fd hfd := by
    obtain ⟨inbox, hs, hown⟩ := h.socket fd hfd
    exact ⟨inbox, hsockets fd inbox hs, hown⟩
  success hw := hread.trans (h.success hw)

theorem owns_idle (s : Wired) {caller : Bool} (h : caller = true → ∃ n, t = .app n) :
    Owns s t (idle caller) := by
  refine ⟨h, ?_, ?_, ?_⟩
  · intro hw
    cases hw
  · intro fd hfd
    cases hfd
  · intro hw
    cases hw

/-- The socket of the holder of txLock gets no success but its own. -/
theorem owns_answer {result : UInt8} (h : Owns s t v)
    (hcomes : comesInTime (s.shared.locks .txLock) s.hci result) :
    Owns ⟨s.shared, s.hci.answer result⟩ t v := by
  unfold Hci.answer
  cases hun : s.hci.unanswered with
  | nil => exact h
  | cons call rest =>
      refine ⟨h.caller, h.locked, fun fd hfd => ?_, h.success⟩
      obtain ⟨inbox, hs, hown⟩ := h.socket fd hfd
      simp only [hs, Option.map_some]
      cases t with
      | rx handle => exact ⟨inbox, rfl, hown⟩
      | app n =>
          refine ⟨inbox ++ [⟨call, result⟩], rfl, fun hw cc hcc hzero => ?_⟩
          obtain hold | hnew := List.mem_append.mp hcc
          · exact hown hw cc hold hzero
          · obtain rfl := List.mem_singleton.mp hnew
            obtain hcall | hnone := hcomes call rest (.app n) hun hzero (h.locked hw).2
            · exact hcall.symm
            · exact absurd rfl (hnone fd _ hs)

theorem owns_answerAll {results : List UInt8} (h : Owns s t v)
    (hcome : comeInTime (s.shared.locks .txLock) results s.hci) :
    Owns ⟨s.shared, s.hci.answerAll results⟩ t v := by
  induction results generalizing s with
  | nil => exact h
  | cons result results ih =>
      exact ih (s := ⟨s.shared, s.hci.answer result⟩) (owns_answer h hcome.1) hcome.2

theorem owner_kept {env : Env} {s : Shared} (hlock : o ≠ .mutexLock .txLock)
    (hunlock : o ≠ .mutexUnlock .txLock) (hs : s.locks .txLock = some u) :
    (effect t env o s).2.locks .txLock = some u := by
  refine Eq.trans ?_ hs
  have hother (owner : Option Tid) : (s.setLock .enableLock owner).locks .txLock =
      s.locks .txLock :=
    s.setLock_other (by simp) owner
  cases o with
  | mutexLock l | mutexUnlock l =>
      cases l with
      | txLock => simp at hlock hunlock
      | enableLock =>
          simp only [effect]
          try split
          all_goals simp [hother]
  | mutexTrylock | pthreadCreate | read | writev =>
      simp only [effect]
      repeat' split
      all_goals simp [hother]
  | unlockReturn f ret => exact hother none
  | _ => rfl

theorem not_own (htu : u ≠ t) {fd : Int} {inbox inbox' : List CommandComplete}
    (h : s.hci.sockets fd = some ⟨t, inbox⟩) : s.hci.sockets fd ≠ some ⟨u, inbox'⟩ := by
  rw [h]
  intro heq
  cases heq
  exact htu rfl

theorem receive_other (htu : u ≠ t) {h : Hci} {fd : Int} {inbox : List CommandComplete}
    (hfd : h.sockets fd = some ⟨t, inbox⟩) :
    (∀ fd' inbox', h.sockets fd' = some ⟨u, inbox'⟩ →
        (h.receive t fd).sockets fd' = some ⟨u, inbox'⟩) ∧
      (h.receive t fd).lastRead u = h.lastRead u := by
  unfold Hci.receive
  rw [hfd]
  cases inbox with
  | nil => exact ⟨fun _ _ hs => hs, rfl⟩
  | cons cc inbox =>
      refine ⟨fun fd' inbox' hs => ?_, Function.update_of_ne htu _ _⟩
      have hne : fd' ≠ fd := by
        rintro rfl
        cases hfd.symm.trans hs
        exact htu rfl
      exact (Function.update_of_ne hne _ _).trans hs

/-- A write changes what the chip has received only. -/
theorem writev_after (t : Tid) (fd : Int) (bytes : List UInt8) (r : Outcome Nat) (h : Hci) :
    (h.after t (.writev fd bytes) r).sockets = h.sockets ∧
      (h.after t (.writev fd bytes) r).lastRead = h.lastRead := by
  cases r with
  | again | error => exact ⟨rfl, rfl⟩
  | ok n =>
      simp only [Hci.after]
      split <;> exact ⟨rfl, rfl⟩

/-- An operation of another thread takes nothing from a thread. -/
theorem owns_frame {b : Build} {env : Env} {pool : Pool Op Op.Res Label Tid} (ht : Owns s t v)
    (hpermits : v.permits o) (hready : isReady pool env o s.shared = true)
    (hagrees : agrees b.board t env s.hci o = true) (htu : u ≠ t) (h : Owns s u w) :
    Owns ⟨(effect t env o s.shared).2, s.hci.after t o (effect t env o s.shared).1⟩ u w := by
  cases o with
  | mutexLock l =>
      refine h.kept (fun hs => ?_) (fun _ _ hs => hs) rfl
      cases l with
      | enableLock => exact owner_kept (by simp) (by simp) hs
      | txLock =>
          have herr : env.mutex ≠ 0 := by simpa [isReady, hs] using hready
          simpa [effect, herr] using hs
  | mutexUnlock l =>
      refine h.kept (fun hs => ?_) (fun _ _ hs => hs) rfl
      cases l with
      | enableLock => exact owner_kept (by simp) (by simp) hs
      | txLock => exact absurd (Option.some.inj (hs.symm.trans (ht.locked hpermits).2)) htu
  | createHciSock =>
      refine h.kept (owner_kept (by simp) (by simp)) (fun fd inbox hs => ?_) ?_
      all_goals simp only [Hci.after]
      all_goals split
      · exact hs
      · rename_i hfd
        refine (Function.update_of_ne ?_ _ _).trans hs
        rintro rfl
        cases hsock : env.hciSock with
        | none => simp [effect, hsock] at hfd
        | some n => simp_all [agrees, effect]
      · rfl
      · rfl
  | close fd =>
      obtain ⟨inbox, hown, -⟩ := ht.socket fd hpermits
      refine h.kept (owner_kept (by simp) (by simp)) (fun fd' inbox' hs => ?_) rfl
      refine (Function.update_of_ne ?_ _ _).trans hs
      rintro rfl
      exact not_own htu hown hs
  | read fd =>
      obtain ⟨inbox, hown, -⟩ := ht.socket fd hpermits
      obtain ⟨hsockets, hread⟩ := receive_other htu hown
      cases hr : (effect t env (.read fd) s.shared).1 with
      | ok r => exact h.kept (owner_kept (by simp) (by simp)) hsockets hread
      | again => exact h.kept (owner_kept (by simp) (by simp)) (fun _ _ hs => hs) rfl
      | error => exact h.kept (owner_kept (by simp) (by simp)) (fun _ _ hs => hs) rfl
  | writev fd bytes =>
      obtain ⟨hsockets, hread⟩ :=
        writev_after t fd bytes (effect t env (.writev fd bytes) s.shared).1 s.hci
      refine h.kept (owner_kept (by simp) (by simp)) (fun fd' _ hs => ?_) (congrFun hread u)
      exact (congrFun hsockets fd').trans hs
  | _ => exact h.kept (owner_kept (by simp) (by simp)) (fun _ _ hs => hs) rfl

theorem commandComplete_result {board : Board} {buf : Memory} {result : UInt8}
    (h : isCommandComplete board buf result = true)
    (hsuccess : commandCompleteStatus board buf commandCompletePacketSize = .success) :
    result = 0 := by
  simp only [isCommandComplete, Bool.and_eq_true, decide_eq_true_eq] at h
  obtain ⟨⟨⟨htype, hevt⟩, hopcode⟩, hresult⟩ := h
  by_contra hne
  rw [← hresult] at hne
  simp only [commandCompleteStatus, htype, hevt, hopcode, hne, ne_eq, not_true, if_false]
    at hsuccess
  split at hsuccess <;> cases hsuccess

/-- What is read under txLock was delivered to the socket of the thread. -/
theorem owns_read {b : Build} {env : Env} {fd : Int} (h : Owns s t v)
    (hpermits : v.permits (.read fd)) (hagrees : agrees b.board t env s.hci (.read fd) = true) :
    Owns ⟨(effect t env (.read fd) s.shared).2,
        s.hci.after t (.read fd) (effect t env (.read fd) s.shared).1⟩ t
      (v.next b.board (.read fd) (effect t env (.read fd) s.shared).1) := by
  have hfd : v.socket = some fd := hpermits
  obtain ⟨inbox, hs, hown⟩ := h.socket fd hfd
  cases hread : env.read with
  | again | error =>
      simp only [effect, hread, Hci.after, next]
      exact h
  | ok packet =>
      obtain ⟨len, buf⟩ := packet
      simp only [effect, hread, Hci.after, next, Hci.receive, hs]
      cases inbox with
      | nil =>
          refine ⟨h.caller, h.locked, h.socket, fun hsuccess => ?_⟩
          obtain ⟨hlocked, -⟩ := (Bool.and_eq_true_iff.mp hsuccess)
          obtain ⟨n, rfl⟩ := h.caller (h.locked hlocked).1
          simp [agrees, hread, hs] at hagrees
      | cons cc inbox =>
          refine ⟨h.caller, h.locked, fun fd' hfd' => ?_, fun hsuccess => ?_⟩
          · obtain rfl := Option.some.inj (hfd.symm.trans hfd')
            refine ⟨inbox, Function.update_self _ _ _, fun hlocked cc' hcc' => ?_⟩
            exact hown hlocked cc' (List.mem_cons_of_mem _ hcc')
          · obtain ⟨hlocked, hstatus⟩ := Bool.and_eq_true_iff.mp hsuccess
            obtain ⟨n, rfl⟩ := h.caller (h.locked hlocked).1
            simp only [agrees, hread, hs, Bool.and_eq_true, decide_eq_true_eq, Option.any_some,
              List.head?_cons] at hagrees
            obtain ⟨rfl, hcc⟩ := hagrees
            have hzero := commandComplete_result hcc (of_decide_eq_true hstatus)
            have hcall := hown hlocked cc List.mem_cons_self hzero
            refine (Function.update_self _ _ _).trans ?_
            rw [← hzero, ← hcall]

/-- After its own operation a thread holds what the operation has given it. -/
theorem owns_self {b : Build} {env : Env} (h : Owns s t v) (hpermits : v.permits o)
    (hagrees : agrees b.board t env s.hci o = true) :
    Owns ⟨(effect t env o s.shared).2, s.hci.after t o (effect t env o s.shared).1⟩ t
      (v.next b.board o (effect t env o s.shared).1) := by
  cases o with
  | mutexLock l =>
      cases l with
      | enableLock => exact h.kept (owner_kept (by simp) (by simp)) (fun _ _ hs => hs) rfl
      | txLock =>
          simp only [effect]
          split
          · refine ⟨h.caller, fun _ => ⟨hpermits.1, Shared.setLock_self _ _ _⟩, fun fd hfd => ?_,
              h.success⟩
            cases hpermits.2.symm.trans hfd
          · rename_i herr
            simp only [next, herr, if_false]
            exact h
  | mutexUnlock l =>
      cases l with
      | enableLock => exact h.kept (owner_kept (by simp) (by simp)) (fun _ _ hs => hs) rfl
      | txLock =>
          refine ⟨h.caller, ?_, ?_, h.success⟩
          · intro hw
            cases hw
          · intro fd hfd
            cases hfd
  | createHciSock =>
      have hlocked : v.locked = true → v.caller = true ∧
          (effect t env .createHciSock s.shared).2.locks .txLock = some t :=
        fun hw => (h.locked hw).imp_right (owner_kept (by simp) (by simp))
      simp only [Hci.after, next]
      split
      · exact ⟨h.caller, hlocked, h.socket, h.success⟩
      · refine ⟨h.caller, hlocked, fun fd hfd => ?_, h.success⟩
        cases hfd
        exact ⟨[], Function.update_self _ _ _, fun _ cc hcc => by cases hcc⟩
  | close fd =>
      refine ⟨h.caller, h.locked, ?_, h.success⟩
      intro fd' hfd'
      cases hfd'
  | read fd => exact owns_read h hpermits hagrees
  | writev fd bytes =>
      obtain ⟨hsockets, hread⟩ :=
        writev_after t fd bytes (effect t env (.writev fd bytes) s.shared).1 s.hci
      refine h.kept (owner_kept (by simp) (by simp)) (fun fd' _ hs => ?_) (congrFun hread t)
      exact (congrFun hsockets fd').trans hs
  | _ => exact h.kept (owner_kept (by simp) (by simp)) (fun _ _ hs => hs) rfl

end owns
end Transport

section programs
variable {b : Build} {α : Type} {v : Transport} {Q : α → Transport → Prop}

def transport (b : Build) : Typestate (wired b) Transport where
  permits := Transport.permits
  next := Transport.next b.board
  enters := Transport.enters
  owns := Transport.Owns
  allow t env o s := comeInTime (s.shared.locks .txLock) env.answers s.hci
  entry := by
    intro t l hentry s
    cases t with
    | rx handle => cases l <;> cases hentry
    | app n =>
        refine ⟨.idle true, ?_, Transport.owns_idle s fun _ => ⟨n, rfl⟩⟩
        cases l <;> first | rfl | cases hentry
  spawn := by
    intro o r s u l hspawn
    obtain ⟨-, -, rfl⟩ := spawned_rx hspawn
    exact ⟨.idle false, rfl, Transport.owns_idle s fun h => Bool.noConfusion h⟩
  self := by
    intro env pool t o s v howns hpermits hready hallow
    exact Transport.owns_self (Transport.owns_answerAll howns hallow) hpermits
      (Bool.and_eq_true_iff.mp hready).2
  frame := by
    intro env pool t o s v u w howns hpermits hready hallow htu hother
    obtain ⟨hready, hagrees⟩ := Bool.and_eq_true_iff.mp hready
    exact Transport.owns_frame (s := ⟨s.shared, s.hci.answerAll env.answers⟩)
      (Transport.owns_answerAll howns hallow) hpermits hready hagrees htu
      (Transport.owns_answerAll hother hallow)

/-- The operations that have nothing to do with the transport. -/
def aside : Op → Bool
  | .mutexLock l | .mutexUnlock l => l ≠ .txLock
  | .createHciSock | .close _ | .read _ => false
  | .funcEnd f ret => f ≠ .antTxMessage || ret ≠ .status .success
  | _ => true

def IsAside (o : Op) : Prop := aside o = true

abbrev Aside (p : Cmd α) : Prop := p.Only IsAside fun _ => True

theorem aside_keeps {o : Op} (ho : IsAside o) :
    (transport b).permits v o ∧ ∀ r, (transport b).next v o r = v := by
  cases o with
  | mutexLock l | mutexUnlock l =>
      cases l with
      | txLock => cases ho
      | enableLock => exact ⟨trivial, fun _ => rfl⟩
  | createHciSock | close | read => cases ho
  | funcEnd f ret =>
      refine ⟨?_, fun _ => rfl⟩
      simp only [IsAside, aside, Bool.or_eq_true, decide_eq_true_eq] at ho
      simp only [transport, Transport.permits]
      split <;> simp_all
  | _ => exact ⟨trivial, fun _ => rfl⟩

theorem sat_aside {β : Type} {p : Cmd β} {f : β → Cmd α} (h : Aside p)
    (hf : ∀ a, (transport b).Sat Q v (f a)) : (transport b).Sat Q v (p >>= f) := by
  refine (transport b).sat_bind (((transport b).sat_only h fun _ => aside_keeps).mono _ ?_)
  rintro a w ⟨rfl, -⟩
  exact hf a

theorem sat_op_aside {o : Op} {k : o.Res → Cmd α} (ho : IsAside o)
    (hk : ∀ r, (transport b).Sat Q v (k r)) : (transport b).Sat Q v (.op o k) := by
  obtain ⟨hpermits, hnext⟩ := aside_keeps (b := b) (v := v) ho
  exact ⟨hpermits, fun r => (hnext r).symm ▸ hk r⟩

theorem reportRadioStatus_aside : Aside reportRadioStatus := by
  simp [reportRadioStatus, IsAside, aside]

theorem getAndSetRadioStatus_aside : Aside (getAndSetRadioStatus b) := by
  have hrefresh : Aside (withPowerLibrary b refreshRadioStatus) := by
    refine Prog.only_ite.mpr ⟨fun _ => ?_, fun _ => trivial⟩
    simp [refreshRadioStatus, IsAside, aside, reportRadioStatus_aside]
  refine (Prog.only_op _ _).mpr ⟨rfl, fun _ => hrefresh.bind fun _ _ => ?_⟩
  simp [IsAside, aside]

theorem joinThread_aside : Aside joinThread := by
  simp [joinThread, IsAside, aside]

theorem enableRadioLocked_aside : Aside (enableRadioLocked b) := by
  have hbegin (status : RadioStatus) : Aside (beginEnabling b status) := by
    refine Prog.only_ite.mpr ⟨fun _ => joinThread_aside.bind fun _ _ => ?_, fun _ => trivial⟩
    exact (Prog.only_op _ _).mpr ⟨rfl, fun _ =>
      Prog.only_ite.mpr ⟨fun _ => reportRadioStatus_aside, fun _ => trivial⟩⟩
  have hpower : Aside (powerOn b) :=
    Prog.only_ite.mpr ⟨fun _ => by simp [IsAside, aside], fun _ => trivial⟩
  have hthread : Aside (enabledWithThread b) := by
    refine Prog.only_ite.mpr ⟨fun _ => ?_, fun _ => by simp [IsAside, aside]⟩
    simp [IsAside, aside, reportRadioStatus_aside]
  have hconnect (result : Int) : Aside (connectThread b result) := by
    refine Prog.only_ite.mpr ⟨fun _ => ?_, fun _ => trivial⟩
    simp only [Prog.op_bind, Prog.ret_bind, Prog.pure_eq, Prog.only_op, Prog.only_ite,
      Prog.only_ret,
      implies_true, and_true]
    exact ⟨rfl, fun _ => ⟨fun _ => rfl, fun _ => ⟨rfl, fun _ => ⟨trivial, fun _ =>
      hthread.bind fun _ _ => trivial⟩⟩⟩⟩
  have hclean (ret : AntStatus) : Aside (enableCleanUp b ret) := by
    refine Prog.only_ite.mpr ⟨fun _ => ?_, fun _ => trivial⟩
    have hdisable : Aside (withPowerLibrary b (do let _ ← antDisable; return ())) :=
      Prog.only_ite.mpr ⟨fun _ => by simp [IsAside, aside], fun _ => trivial⟩
    exact hdisable.bind fun _ _ => getAndSetRadioStatus_aside.bind fun _ _ => trivial
  exact getAndSetRadioStatus_aside.bind fun status _ => (hbegin status).bind fun _ _ =>
    hpower.bind fun result _ => (hconnect result).bind fun ret _ => (hclean ret).bind fun _ _ =>
      trivial

theorem disableRadioLocked_aside : Aside (disableRadioLocked b) := by
  have hannounce (status : RadioStatus) : Aside (announceDisabling status) := by
    refine Prog.only_ite.mpr ⟨fun _ => ?_, fun _ => trivial⟩
    simp [IsAside, aside, reportRadioStatus_aside]
  have hbegin : Aside (beginDisabling b) := by
    refine Prog.only_ite.mpr ⟨fun _ => ?_, fun _ => by simp [IsAside, aside]⟩
    refine getAndSetRadioStatus_aside.bind fun status _ => (hannounce status).bind fun _ _ => ?_
    simp [IsAside, aside]
  exact hbegin.bind fun _ _ => joinThread_aside.bind fun _ _ =>
    getAndSetRadioStatus_aside.bind fun _ _ => trivial

/-- The program is permitted all it does, with whatever it ends. -/
abbrev Permitted (b : Build) (v : Transport) (p : Cmd α) : Prop :=
  (transport b).Sat (fun _ _ => True) v p

theorem Permitted.ends {p : Cmd α} (h : Permitted b v p) :
    (transport b).Sat (transport b).Done v (p >>= fun _ => .ret none) := by
  refine (transport b).sat_bind (h.mono _ fun _ w _ l hl => ?_)
  cases hl

theorem next_notLocked {r : Int} (hr : r ≠ 0) :
    (transport b).next v (.mutexLock .txLock) r = v := by
  simp [transport, Transport.next, hr]

theorem permitted_underTxLock {f : Func} {locked : Cmd AntStatus}
    (h : Aside locked) : Permitted b (.idle true) (underTxLock f locked) := by
  simp only [underTxLock, Prog.op_bind, Prog.ret_bind, Prog.pure_eq]
  refine ⟨⟨rfl, rfl⟩, fun r => ?_⟩
  by_cases hr : r = 0
  · subst hr
    refine sat_aside h fun ret => ⟨rfl, fun _ => sat_op_aside rfl fun _ => trivial⟩
  · dsimp only
    rw [next_notLocked hr, if_pos hr]
    exact sat_op_aside rfl fun _ => trivial

theorem permitted_antEnableRadio : Permitted b (.idle true) (antEnableRadio b) := by
  have hmark : Aside markEnabling := by
    simp [markEnabling, IsAside, aside]
  simp only [antEnableRadio, Prog.op_bind, Prog.ret_bind, Prog.pure_eq]
  refine sat_op_aside rfl fun _ => sat_op_aside rfl fun r => ?_
  split
  · exact sat_op_aside rfl fun _ => trivial
  · exact sat_aside hmark fun _ => permitted_underTxLock enableRadioLocked_aside

theorem permitted_antDisableRadio : Permitted b (.idle true) (antDisableRadio b) := by
  simp only [antDisableRadio, Prog.op_bind, Prog.ret_bind, Prog.pure_eq]
  refine sat_op_aside rfl fun _ => sat_op_aside rfl fun r => ?_
  split
  · exact sat_op_aside rfl fun _ => trivial
  · exact permitted_underTxLock disableRadioLocked_aside

theorem antRadioEnabledStatus_aside : Aside (antRadioEnabledStatus b) := by
  have hrefresh : Aside (refreshUnlessInTransition b) := by
    simp only [refreshUnlessInTransition, Prog.op_bind, Prog.ret_bind, Prog.pure_eq, Prog.only_op,
      Prog.only_ite, Prog.only_ret]
    exact ⟨rfl, fun _ => ⟨fun _ => ⟨rfl, fun _ => ⟨fun _ =>
      getAndSetRadioStatus_aside.bind fun _ _ => trivial, fun _ => trivial⟩⟩, fun _ => trivial⟩⟩
  refine (Prog.only_op _ _).mpr ⟨rfl, fun _ => hrefresh.bind fun _ _ => ?_⟩
  simp [IsAside, aside]

/-- The transport is opened under txLock, and closed again if it cannot be used. -/
theorem transport_beginSending (pucMesg : List UInt8) (status : RadioStatus)
    (hlocked : v.locked = true) (hsocket : v.socket = none) :
    (transport b).Sat (transport b).Done v (beginSending pucMesg status) := by
  have hend (w : Transport) (hw : w.locked = true) (s : AntStatus) (hs : s ≠ .success) :
      (transport b).Sat (transport b).Done w (do
        mutexUnlock .txLock
        funcEnd .antTxMessage (.status s)
        return (none : Option Label)) := by
    refine ⟨hw, fun _ => sat_op_aside (by simp [IsAside, aside, hs]) fun _ l hl => ?_⟩
    cases hl
  unfold beginSending
  split
  · exact hend v hlocked _ (by simp)
  · have hrest (w : Transport) (hw : w.locked = true) (fd : Int)
        (hfd : 0 ≤ fd → w.socket = some fd) :
        (transport b).Sat (transport b).Done w (
          if fd < 0 then do
            mutexUnlock .txLock
            funcEnd .antTxMessage (.status .failed)
            return none
          else do
            let startTime ← time
            return some (.txWrite ⟨pucMesg, fd, txEndTime startTime, 0, .failed⟩)) := by
      split
      · exact hend w hw _ (by simp)
      · refine sat_op_aside rfl fun startTime l hl => ?_
        cases hl
        exact ⟨hw, hfd (by omega), by simp⟩
    simp only [antOpenTxTransport, Prog.op_bind, Prog.ret_bind, Prog.pure_eq]
    refine ⟨hsocket, fun fd => ?_⟩
    dsimp only
    by_cases hfd : fd < 0
    · have hnext : (transport b).next v .createHciSock fd = v := by
        simp [transport, Transport.next, hfd]
      rw [hnext, if_pos hfd]
      exact hrest v hlocked fd fun hpos => absurd hfd (Int.not_lt.mpr hpos)
    · have hnext : (transport b).next v .createHciSock fd = { v with socket := some fd } := by
        simp [transport, Transport.next, hfd]
      rw [hnext, if_neg hfd]
      refine sat_op_aside rfl fun _ => sat_op_aside rfl fun ret => ?_
      dsimp only
      split
      · refine ⟨rfl, fun _ => ?_⟩
        have hclosed := hrest { v with socket := none } hlocked (-1) fun hpos => by omega
        exact hclosed
      · exact hrest { v with socket := some fd } hlocked fd fun _ => rfl

theorem transport_antTxMessage (pucMesg : List UInt8) :
    (transport b).Sat (transport b).Done (.idle true) (antTxMessage b pucMesg) := by
  simp only [antTxMessage, Prog.op_bind, Prog.ret_bind, Prog.pure_eq]
  refine sat_op_aside rfl fun _ => ⟨⟨rfl, rfl⟩, fun r => ?_⟩
  dsimp only
  by_cases hr : r = 0
  · subst hr
    exact sat_aside getAndSetRadioStatus_aside fun status =>
      transport_beginSending pucMesg status rfl rfl
  · rw [next_notLocked hr, if_pos hr]
    refine sat_op_aside rfl fun _ l hl => ?_
    cases hl

theorem done_some {l : Label} (h : v.enters l) : (transport b).Done (some l) v := by
  intro l' hl
  cases hl
  exact h

section sending
variable {tx : Sending} (hlocked : v.locked = true) (hsocket : v.socket = some tx.txSocket)
include hlocked hsocket

theorem transport_txWrite (hstatus : tx.status ≠ .success) :
    (transport b).Sat (transport b).Done v (txWrite b tx) := by
  simp only [txWrite, Prog.op_bind, Prog.ret_bind, Prog.pure_eq]
  have hclose : v.enters (.txClose { tx with status := .failed }) :=
    ⟨hlocked, hsocket, fun h => AntStatus.noConfusion h⟩
  refine sat_op_aside rfl fun socket => ?_
  split
  · exact done_some hclose
  · refine sat_op_aside rfl fun bytesWritten => done_some ?_
    cases bytesWritten with
    | again => exact ⟨hlocked, hsocket, hstatus⟩
    | error => exact hclose
    | ok n =>
        dsimp only
        split
        · exact hclose
        · exact ⟨hlocked, hsocket, hstatus⟩

/-- Without a packet the status is the old one, which is no success. -/
theorem transport_txWait (hstatus : tx.status ≠ .success) :
    (transport b).Sat (transport b).Done v (txWait tx) := by
  have hclose : v.enters (.txClose tx) := ⟨hlocked, hsocket, fun h => absurd h hstatus⟩
  refine sat_op_aside rfl fun n => done_some ?_
  cases n with
  | again => exact ⟨hlocked, hsocket, hstatus⟩
  | error => exact hclose
  | ok n =>
      dsimp only
      split
      · exact hclose
      · exact ⟨hlocked, hsocket, hstatus⟩

/-- The switch leaves the loop with a success only if the packet was one. -/
theorem transport_handleCommandComplete (hsuccess : tx.status = .success → v.success = true) :
    (transport b).Sat (transport b).Done v (handleCommandComplete tx) := by
  unfold handleCommandComplete
  split
  · exact done_some ⟨hlocked, hsocket, by simp_all⟩
  · dsimp only
    split
    · exact done_some ⟨hlocked, hsocket, by simp_all⟩
    · exact done_some ⟨hlocked, hsocket, hsuccess⟩
  · refine sat_op_aside rfl fun _ => sat_op_aside rfl fun currentTime => ?_
    cases currentTime with
    | none => exact done_some ⟨hlocked, hsocket, hsuccess⟩
    | some now =>
        refine done_some ?_
        split
        · exact ⟨hlocked, hsocket, by simp_all⟩
        · exact ⟨hlocked, hsocket, hsuccess⟩
  · exact done_some ⟨hlocked, hsocket, hsuccess⟩

theorem transport_txRead (hstatus : tx.status ≠ .success) :
    (transport b).Sat (transport b).Done v (txRead b tx) := by
  simp only [txRead, Prog.op_bind, Prog.ret_bind, Prog.pure_eq]
  refine ⟨hsocket, fun packet => ?_⟩
  dsimp only
  cases packet with
  | again => exact done_some ⟨hlocked, hsocket, hstatus⟩
  | error =>
      refine transport_handleCommandComplete hlocked ?_ ?_
      · exact hsocket
      · intro h
        cases h
  | ok packet =>
      refine transport_handleCommandComplete hlocked ?_ fun h => ?_
      · exact hsocket
      · exact Bool.and_eq_true_iff.mpr ⟨hlocked, decide_eq_true h⟩

/-- A success is returned only behind a packet that was one. -/
theorem transport_txClose (hsuccess : tx.status = .success → v.success = true) :
    (transport b).Sat (transport b).Done v (txClose tx) := by
  have hrest (w : Transport) (hw : w.locked = true) (hsame : w.success = v.success) :
      (transport b).Sat (transport b).Done w (do
        mutexUnlock .txLock
        funcEnd .antTxMessage (.status tx.status)
        return (none : Option Label)) := by
    refine ⟨hw, fun _ => ⟨?_, fun _ l hl => ?_⟩⟩
    · cases hstatus : tx.status with
      | success => exact hsame.trans (hsuccess hstatus)
      | _ => trivial
    · cases hl
  unfold txClose antCloseTxTransport
  split
  · exact ⟨hsocket, fun _ => hrest { v with socket := none } hlocked rfl⟩
  · exact hrest v hlocked rfl

end sending

theorem transport_rxStart : (transport b).Sat (transport b).Done (.idle false) rxStart := by
  simp only [rxStart, Prog.op_bind, Prog.ret_bind, Prog.pure_eq]
  refine sat_op_aside rfl fun _ => ⟨rfl, fun fd => ?_⟩
  dsimp only
  split
  · intro l hl
    cases hl
  · rename_i hfd
    have hnext : (transport b).next (.idle false) .createHciSock fd =
        { Transport.idle false with socket := some fd } := by
      simp [transport, Transport.next, hfd]
    rw [hnext]
    refine sat_op_aside rfl fun ret => ?_
    dsimp only
    split <;> exact done_some rfl

section receiving
variable {rxSocket : Int} (hsocket : v.socket = some rxSocket)
include hsocket

theorem transport_rxLoop : (transport b).Sat (transport b).Done v (rxLoop b rxSocket) := by
  refine sat_aside getAndSetRadioStatus_aside fun status => ?_
  split <;> exact done_some hsocket

theorem transport_rxPoll : (transport b).Sat (transport b).Done v (rxPoll rxSocket) := by
  refine sat_op_aside rfl fun n => done_some ?_
  cases n with
  | again | error => exact hsocket
  | ok n =>
      dsimp only
      split <;> exact hsocket

theorem transport_rxRead : (transport b).Sat (transport b).Done v (rxRead b rxSocket) := by
  simp only [rxRead, Prog.op_bind, Prog.ret_bind, Prog.pure_eq]
  refine ⟨hsocket, fun packet => ?_⟩
  dsimp only
  cases packet with
  | again | error => exact done_some hsocket
  | ok packet =>
      have hdeliver : Aside (deliver b packet.1 packet.2) := by
        unfold deliver
        simp [IsAside, aside]
      exact sat_aside hdeliver fun _ => done_some hsocket

theorem transport_rxClose : (transport b).Sat (transport b).Done v (rxClose b rxSocket) := by
  have hreport : Aside reportDisabling := by simp [reportDisabling, IsAside, aside]
  have hcrash : Aside (crashDisable b) := by
    refine Prog.only_ite.mpr ⟨fun _ => hreport.bind fun _ _ => ?_,
      fun _ => by simp [IsAside, aside]⟩
    exact (Prog.only_op _ _).mpr ⟨rfl, fun _ => getAndSetRadioStatus_aside.bind fun _ _ => trivial⟩
  have hclean (result : Int) : Aside (crashCleanUp b result) := by
    refine Prog.only_ite.mpr ⟨fun _ => hcrash.bind fun _ _ => ?_, fun _ => trivial⟩
    simp [IsAside, aside]
  simp only [rxClose, Prog.op_bind, Prog.ret_bind, Prog.pure_eq]
  refine sat_op_aside rfl fun result => sat_aside (hclean result)
    fun _ => ⟨hsocket, fun _ l hl => ?_⟩
  cases hl

end receiving

theorem transport_checked (b : Build) : (transport b).Checked := by
  intro l v hv
  cases l with
  | enableRadio =>
      obtain rfl := hv
      exact permitted_antEnableRadio.ends
  | disableRadio =>
      obtain rfl := hv
      exact permitted_antDisableRadio.ends
  | radioEnabledStatus =>
      refine sat_aside antRadioEnabledStatus_aside fun _ l hl => ?_
      cases hl
  | txMessage pucMesg =>
      obtain rfl := hv
      exact transport_antTxMessage pucMesg
  | txWrite tx => exact transport_txWrite hv.1 hv.2.1 hv.2.2
  | txWait tx => exact transport_txWait hv.1 hv.2.1 hv.2.2
  | txRead tx => exact transport_txRead hv.1 hv.2.1 hv.2.2
  | txClose tx => exact transport_txClose hv.1 hv.2.1 hv.2.2
  | rxStart =>
      obtain rfl := hv
      exact transport_rxStart
  | rxLoop rxSocket => exact transport_rxLoop hv
  | rxPoll rxSocket => exact transport_rxPoll hv
  | rxRead rxSocket => exact transport_rxRead hv
  | rxClose rxSocket => exact transport_rxClose hv

end programs

section runs
variable {b : Build} {c : WiredConfig} {mv : Move Label Tid WiredEnv}
  {stateCallback rxCallback : Bool}

theorem allowed_of_inTime (h : inTime c mv) : (transport b).Allowed c mv := by
  cases mv with
  | start t l => trivial
  | act t env => exact fun _ _ => h

/-- If no success of a call that gave up comes to the socket of a later one, each
call that succeeds has read the answer to a command of its own. -/
theorem tx_credited
    (h : (wired b).Path inTime (wiredInit stateCallback rxCallback) c) : Credited c := by
  have hholds : (transport b).Holds c :=
    Typestate.holds_path (transport_checked b) (fun _ _ => allowed_of_inTime) (fun _ => rfl) h
  intro t l k hth
  obtain ⟨v, howns, hpermits⟩ := hholds.permitted hth
  exact howns.success hpermits

/-- While the commands of the holder of txLock are the only unanswered ones, every
answer comes in time. -/
theorem comeInTime_of_own {holder : Option Tid} {results : List UInt8} {h : Hci}
    (hown : ∀ call ∈ h.unanswered, holder = some call) : comeInTime holder results h := by
  induction results generalizing h with
  | nil => trivial
  | cons result results ih =>
      refine ⟨fun call rest u hun _ hu => .inl ?_, ih fun call hcall => ?_⟩
      · exact Option.some.inj (hu.symm.trans (hown call (by simp [hun])))
      · unfold Hci.answer at hcall
        cases hun : h.unanswered with
        | nil =>
            rw [hun] at hcall
            exact hown call hcall
        | cons call' rest =>
            rw [hun] at hcall
            exact hown call (hun ▸ List.mem_cons_of_mem _ hcall)

def ownUnanswered (c : WiredConfig) : Move Label Tid WiredEnv → Bool
  | .start _ _ => true
  | .act _ _ => c.shared.hci.unanswered.all fun call => c.shared.shared.locks .txLock = some call

theorem inTime_of_ownUnanswered (h : ownUnanswered c mv = true) : inTime c mv := by
  cases mv with
  | start t l => trivial
  | act t env =>
      refine comeInTime_of_own fun call hcall => ?_
      exact of_decide_eq_true (List.all_eq_true.mp h call hcall)

/-- An enabled radio without a power library. -/
def wiredEnabling : List (Move Label Tid WiredEnv) :=
  .start (.app 0) .enableRadio :: List.replicate 14 (.act (.app 0) {})

/-- A call of `ant_tx_message` up to its write. -/
def writing (t : Tid) (answers : List UInt8) : List (Move Label Tid WiredEnv) :=
  .start t (.txMessage [1, 2]) :: List.replicate 5 (.act t {}) ++
    .act t { answers := answers } :: List.replicate 4 (.act t {})

/-- The call finds a packet with result 0, and is about to return. -/
def readingSuccess (t : Tid) (answers : List UInt8) : List (Move Label Tid WiredEnv) :=
  .act t { env := { poll := .ok 1 }, answers := answers } ::
    List.replicate 3 (.act t { env := { read := .ok (7, commandCompletePacket .wl12xx 0) } })

def returnsSuccessTo (t : Tid) (c : WiredConfig) : Bool :=
  (c.pool t).any fun th => decide (th.head? = some (.funcEnd .antTxMessage (.status .success)))

theorem pool_of_returnsSuccessTo {t : Tid} (h : returnsSuccessTo t c = true) :
    ∃ l k, c.pool t = some ⟨l, .op (.funcEnd .antTxMessage (.status .success)) k⟩ := by
  obtain ⟨⟨l, code⟩, hth, hhead⟩ := Option.any_eq_true _ _ |>.mp h
  obtain ⟨k, rfl⟩ := Thread.code_of_head (of_decide_eq_true hhead)
  exact ⟨l, k, hth⟩

/-- The chip answers the command of the call that waits for it. -/
theorem tx_credited_answered :
    ∃ c : WiredConfig, returnsSuccessTo (.app 1) c = true ∧
      c.shared.hci.lastRead (.app 1) = some ⟨.app 1, 0⟩ := by
  obtain ⟨c, hpath, hc⟩ := Machine.exec_any (wired ⟨.wl12xx, false⟩) ownUnanswered
    (wiredEnabling ++ writing (.app 1) [] ++ readingSuccess (.app 1) [0]) (wiredInit true true)
    (returnsSuccessTo (.app 1)) (by decide)
  obtain ⟨l, k, hth⟩ := pool_of_returnsSuccessTo hc
  exact ⟨c, hc, tx_credited (hpath.mono fun _ _ => inTime_of_ownUnanswered) _ l k hth⟩

/-- A call times out, and its answer comes to the socket of the next one. -/
theorem tx_notCredited :
    ¬ ∀ (b : Build) (stateCallback rxCallback : Bool) (c : WiredConfig),
      (wired b).Reachable (wiredInit stateCallback rxCallback) c → Credited c := by
  intro h
  obtain ⟨c, hpath, hc⟩ := Machine.exec_any (wired ⟨.wl12xx, false⟩) (fun _ _ => true)
    (wiredEnabling ++ writing (.app 1) [] ++
      List.replicate 4 (.act (.app 1) { env := { poll := .ok 0 } }) ++
      writing (.app 2) [0] ++ readingSuccess (.app 2) []) (wiredInit true true)
    (fun c => returnsSuccessTo (.app 2) c &&
      decide (c.shared.hci.lastRead (.app 2) = some ⟨.app 1, 0⟩)) (by decide)
  rw [Bool.and_eq_true, decide_eq_true_eq] at hc
  obtain ⟨l, k, hth⟩ := pool_of_returnsSuccessTo hc.1
  have hown := h _ true true c hpath.reachable _ l k hth
  cases hown.symm.trans hc.2

end runs
end AntHal.Bluez

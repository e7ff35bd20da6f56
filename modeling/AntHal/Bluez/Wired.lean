import AntHal.Bluez.ReceiveThread

/-!
The BlueZ back end with its chip.

Here the HCI sockets and the chip are part of the state: the chip receives the
commands that are written, answers each of them with one Command Complete, in
order, and whenever it wants. Its answers come to all sockets that are open for
them. The programs and the shared state are those of the machine of all threads.
-/

namespace AntHal.Bluez

open Concurrency

/-- A Command Complete, with the call that wrote the command it answers. -/
structure CommandComplete where
  call : Tid
  result : UInt8
  deriving DecidableEq

/-- An open HCI socket, with what has been delivered to it and not been read. -/
structure HciSocket where
  owner : Tid
  inbox : List CommandComplete
  deriving DecidableEq

/-- The filter of the receive thread drops Command Completes. -/
def HciSocket.deliver (cc : CommandComplete) (s : HciSocket) : HciSocket :=
  match s.owner with
  | .app _ => { s with inbox := s.inbox ++ [cc] }
  | .rx _ => s

structure Hci where
  /-- The commands that the chip is still to answer, as the calls that wrote them. -/
  unanswered : List Tid
  sockets : Int → Option HciSocket
  /-- The Command Complete that each call has read last. -/
  lastRead : Tid → Option CommandComplete

namespace Hci

def init : Hci := ⟨[], fun _ => none, fun _ => none⟩

/-- The chip answers the command that it received first. -/
def answer (h : Hci) (result : UInt8) : Hci :=
  match h.unanswered with
  | [] => h
  | call :: rest =>
    { h with
      unanswered := rest
      sockets := fun fd => (h.sockets fd).map (HciSocket.deliver ⟨call, result⟩) }

def answerAll (h : Hci) (results : List UInt8) : Hci := results.foldl answer h

/-- Thread `t` takes what was delivered first to the socket `fd`. -/
def receive (h : Hci) (t : Tid) (fd : Int) : Hci :=
  match h.sockets fd with
  | some ⟨owner, cc :: inbox⟩ =>
    { h with
      sockets := Function.update h.sockets fd (some ⟨owner, inbox⟩)
      lastRead := Function.update h.lastRead t (some cc) }
  | _ => h

/-- What an operation of thread `t` does to the sockets and to the chip. A
command is received when it has been written as a whole. -/
def after (t : Tid) : (o : Op) → o.Res → Hci → Hci
  | .createHciSock, fd, h =>
    if fd < 0 then h else { h with sockets := Function.update h.sockets fd (some ⟨t, []⟩) }
  | .close fd, _, h => { h with sockets := Function.update h.sockets fd none }
  | .writev _ bytes, .ok n, h =>
    if n < bytes.length then h else { h with unanswered := h.unanswered ++ [t] }
  | .read fd, .ok _, h => h.receive t fd
  | _, _, h => h

end Hci

/-- The bytes of a Command Complete; its length is commandCompletePacketSize. -/
def isCommandComplete (board : Board) (buf : Memory) (result : UInt8) : Bool :=
  buf 0 = hciEventPkt && buf 1 = evtCmdComplete && leToHost16 buf 4 = board.antCommandOpcode &&
    buf 6 = result

/-- A Command Complete of the chip. -/
def commandCompletePacket (board : Board) (result : UInt8) : Memory := fun i =>
  ([hciEventPkt, evtCmdComplete, 4, 1] ++ le16 board.antCommandOpcode ++ [result]).getD i 0

/-- The sockets answer as their state says: a new descriptor is not in use, a call
times out with nothing to read, and it reads what was delivered first. -/
def agrees (board : Board) (t : Tid) (env : Env) (h : Hci) : Op → Bool
  | .createHciSock => env.hciSock.all fun fd => (h.sockets (Int.ofNat fd)).isNone
  | .poll fd =>
    match t, env.poll with
    | .app _, .ok 0 => (h.sockets fd).all fun s => s.inbox.isEmpty
    | _, _ => true
  | .read fd =>
    match t, env.read with
    | .app _, .ok (len, buf) =>
      len = commandCompletePacketSize && (h.sockets fd).any fun s =>
        s.inbox.head?.any fun cc => isCommandComplete board buf cc.result
    | _, _ => true
  | _ => true

structure Wired where
  shared : Shared
  hci : Hci

/-- Before an operation the chip may answer any number of commands. -/
structure WiredEnv where
  env : Env := {}
  answers : List UInt8 := []

def wiredEffect (t : Tid) (env : WiredEnv) (o : Op) (s : Wired) : o.Res × Wired :=
  let (r, shared) := effect t env.env o s.shared
  (r, ⟨shared, (s.hci.answerAll env.answers).after t o r⟩)

def wired (b : Build) : Machine Op Op.Res Label Tid Wired WiredEnv where
  body := body b
  entry := isEntry
  ready pool t env o s :=
    isReady pool env.env o s.shared && agrees b.board t env.env (s.hci.answerAll env.answers) o
  effect := wiredEffect
  spawn o r s := spawned o r s.shared

abbrev WiredConfig : Type := Config Op Op.Res Label Tid Wired

def wiredInit (stateCallback rxCallback : Bool) : WiredConfig :=
  ⟨⟨.init stateCallback rxCallback, .init⟩, fun _ => none⟩

/-- The wired machine makes runs of the machine of all threads only. -/
theorem wired_projects (b : Build) : (wired b).Projects (machine b) Wired.shared WiredEnv.env where
  body := rfl
  entry := rfl
  ready h := (Bool.and_eq_true_iff.mp h).1
  effect _ _ _ _ := rfl
  spawn _ _ _ := rfl

end AntHal.Bluez

import AntHal.Common.Types
import AntHal.Concurrency.Machine

/-!
The callbacks of JAntNative.cpp and the Java VM under them.

A callback runs on the thread that the back end calls it from: on a thread that Java
has started, or on a receive thread, which the VM does not know. What the functions
of JNI answer is decided by the environment. The VM keeps for each thread what JNI
asks its users to keep: whether it is attached, an exception that is pending, and the
local references.
-/

namespace AntHal.Jni

open Concurrency

/-- What a back end passes to a callback, and a callback to its Java method. -/
inductive Callback where
  | antRxMessage (msg : List UInt8)
  | antStateChange (s : RadioStatus)
  deriving DecidableEq

inductive JavaMethod where
  | nativeCbAntRxMessage
  | nativeCbAntStateChange
  deriving DecidableEq

/-- The statics of JAntNative.cpp: which of them are not NULL. -/
structure Globals where
  gJVM : Bool
  gSJClazz : Bool
  gSMethodId : JavaMethod → Bool

/-- What the VM knows of a thread. -/
structure VmThread where
  /-- The thread was started by Java. -/
  javaFrames : Bool
  attached : Bool
  /-- An exception is pending. -/
  exception : Bool
  /-- The elements of jAntRxMsg, if there is a local reference to it. -/
  jAntRxMsg : Option (List UInt8)
  localRefs : Nat

structure Vm where
  /-- GetEnv knows JNI_VERSION_1_4. -/
  version14 : Bool
  globals : Globals
  thread : VmThread
  /-- What the Java methods have been called with. -/
  heard : List Callback
  /-- No rule of JNI has been broken. -/
  sound : Bool

/-- What the VM answers. A Java method may throw as well. -/
structure VmEnv where
  attach : Bool := true
  newByteArray : Bool := true
  setByteArrayRegion : Bool := true
  callStaticVoidMethod : Bool := true
  findClass : Bool := true
  newGlobalRef : Bool := true
  registerNatives : Bool := true
  getStaticMethodID : JavaMethod → Bool := fun _ => true

/-- One call of a function of JNI. -/
inductive JniOp where
  | setJVM
  | getEnv
  | attachCurrentThread
  | detachCurrentThread
  | findClass
  | newGlobalRef
  | registerNatives
  | getStaticMethodID (m : JavaMethod)
  | newByteArray (length : Nat)
  | setByteArrayRegion (buf : List UInt8)
  | exceptionOccurred
  | exceptionDescribe
  | exceptionClear
  /-- CallStaticVoidMethod with jAntRxMsg, and with a status. -/
  | callAntRxMessage
  | callAntStateChange (s : RadioStatus)
  | deleteLocalRef

/-- Pointers come back as whether they are not NULL, codes as whether they are
JNI_OK. -/
@[reducible] def JniOp.Res : JniOp → Type
  | .getEnv | .attachCurrentThread | .findClass | .newGlobalRef | .registerNatives
  | .getStaticMethodID _ | .newByteArray _ | .exceptionOccurred => Bool
  | _ => Unit

/-- The rules of JNI. Only the functions on exceptions and references may be called
with an exception pending, and no thread of Java may be detached. -/
@[simp] def JniOp.legal (vm : Vm) : JniOp → Bool
  | .setJVM => true
  | .getEnv | .attachCurrentThread => vm.globals.gJVM
  | .detachCurrentThread => vm.globals.gJVM && vm.thread.attached && !vm.thread.javaFrames
  | .findClass | .newGlobalRef => vm.thread.attached && !vm.thread.exception
  | .registerNatives | .getStaticMethodID _ =>
    vm.thread.attached && !vm.thread.exception && vm.globals.gSJClazz
  | .newByteArray _ => vm.thread.attached && !vm.thread.exception
  | .setByteArrayRegion buf =>
    vm.thread.attached && !vm.thread.exception &&
      vm.thread.jAntRxMsg.any fun elements => buf.length ≤ elements.length
  | .exceptionOccurred | .exceptionDescribe | .exceptionClear => vm.thread.attached
  | .callAntRxMessage =>
    vm.thread.attached && !vm.thread.exception && vm.thread.jAntRxMsg.isSome &&
      vm.globals.gSJClazz && vm.globals.gSMethodId .nativeCbAntRxMessage
  | .callAntStateChange _ =>
    vm.thread.attached && !vm.thread.exception && vm.globals.gSJClazz &&
      vm.globals.gSMethodId .nativeCbAntStateChange
  | .deleteLocalRef => vm.thread.attached && vm.thread.jAntRxMsg.isSome

/-- What a function answers, and does to the thread that calls it. -/
@[simp] def Vm.call (env : VmEnv) (vm : Vm) : (o : JniOp) → o.Res × VmThread
  | .setJVM => ((), vm.thread)
  | .getEnv => (vm.version14 && vm.thread.attached, vm.thread)
  | .attachCurrentThread =>
    (vm.thread.attached || env.attach,
      { vm.thread with attached := vm.thread.attached || env.attach })
  -- The references go with the environment of the thread.
  | .detachCurrentThread =>
    ((), { vm.thread with
      attached := false, exception := false, jAntRxMsg := none, localRefs := 0 })
  | .findClass =>
    (env.findClass, { vm.thread with
      exception := !env.findClass
      localRefs := if env.findClass then vm.thread.localRefs + 1 else vm.thread.localRefs })
  | .newGlobalRef => (env.newGlobalRef, vm.thread)
  | .registerNatives =>
    (env.registerNatives, { vm.thread with exception := !env.registerNatives })
  | .getStaticMethodID m =>
    (env.getStaticMethodID m, { vm.thread with exception := !env.getStaticMethodID m })
  | .newByteArray length =>
    if env.newByteArray then
      (true, { vm.thread with
        jAntRxMsg := some (List.replicate length 0), localRefs := vm.thread.localRefs + 1 })
    else (false, { vm.thread with exception := true })
  | .setByteArrayRegion buf =>
    if env.setByteArrayRegion then
      ((), { vm.thread with
        jAntRxMsg := vm.thread.jAntRxMsg.map fun elements => buf ++ elements.drop buf.length })
    else ((), { vm.thread with exception := true })
  -- An exception comes as a local reference.
  | .exceptionOccurred =>
    (vm.thread.exception, { vm.thread with
      localRefs := if vm.thread.exception then vm.thread.localRefs + 1 else vm.thread.localRefs })
  | .exceptionDescribe => ((), vm.thread)
  | .exceptionClear => ((), { vm.thread with exception := false })
  | .callAntRxMessage | .callAntStateChange _ =>
    ((), { vm.thread with exception := !env.callStaticVoidMethod })
  | .deleteLocalRef =>
    ((), { vm.thread with jAntRxMsg := none, localRefs := vm.thread.localRefs - 1 })

@[simp] def Globals.after (env : VmEnv) (g : Globals) : JniOp → Globals
  | .setJVM => { g with gJVM := true }
  | .findClass => { g with gSJClazz := env.findClass }
  | .newGlobalRef => { g with gSJClazz := env.newGlobalRef }
  | .getStaticMethodID m =>
    { g with gSMethodId := fun m' => if m' = m then env.getStaticMethodID m else g.gSMethodId m' }
  | _ => g

/-- What Java hears by a function. -/
@[simp] def VmThread.says (th : VmThread) : JniOp → List Callback
  | .callAntRxMessage => (th.jAntRxMsg.map Callback.antRxMessage).toList
  | .callAntStateChange s => [.antStateChange s]
  | _ => []

@[simp] def exec (env : VmEnv) (o : JniOp) (vm : Vm) : o.Res × Vm :=
  ((vm.call env o).1,
    { vm with
      globals := vm.globals.after env o
      thread := (vm.call env o).2
      heard := vm.heard ++ vm.thread.says o
      sound := vm.sound && o.legal vm })

abbrev JniCmd (α : Type) : Type := Prog JniOp JniOp.Res α

section primitives

abbrev setJVM : JniCmd Unit := .op .setJVM .ret
abbrev getEnv : JniCmd Bool := .op .getEnv .ret
abbrev attachCurrentThread : JniCmd Bool := .op .attachCurrentThread .ret
abbrev detachCurrentThread : JniCmd Unit := .op .detachCurrentThread .ret
abbrev findClass : JniCmd Bool := .op .findClass .ret
abbrev newGlobalRef : JniCmd Bool := .op .newGlobalRef .ret
abbrev registerNatives : JniCmd Bool := .op .registerNatives .ret
abbrev getStaticMethodID (m : JavaMethod) : JniCmd Bool := .op (.getStaticMethodID m) .ret
abbrev newByteArray (length : Nat) : JniCmd Bool := .op (.newByteArray length) .ret
abbrev setByteArrayRegion (buf : List UInt8) : JniCmd Unit := .op (.setByteArrayRegion buf) .ret
abbrev exceptionOccurred : JniCmd Bool := .op .exceptionOccurred .ret
abbrev exceptionDescribe : JniCmd Unit := .op .exceptionDescribe .ret
abbrev exceptionClear : JniCmd Unit := .op .exceptionClear .ret
abbrev callAntRxMessage : JniCmd Unit := .op .callAntRxMessage .ret
abbrev callAntStateChange (s : RadioStatus) : JniCmd Unit := .op (.callAntStateChange s) .ret
abbrev deleteLocalRef : JniCmd Unit := .op .deleteLocalRef .ret

end primitives

/-- `if (env->ExceptionOccurred())` with the report and the clear behind it. -/
def describeAndClear : JniCmd Unit := do
  let occurred ← exceptionOccurred
  if occurred then
    exceptionDescribe
    exceptionClear

/-- The label `CLEANUP` of `nativeJAnt_RxCallback`. -/
def rxCleanUp (jAntRxMsg : Bool) : JniCmd Unit := do
  if jAntRxMsg then deleteLocalRef
  describeAndClear
  detachCurrentThread

/-- The callback gets `ucLen` bytes at `pucData`. -/
def nativeJAntRxCallback (pucData : List UInt8) : JniCmd Unit := do
  let env ← attachCurrentThread
  if !env then return ()
  else
    let jAntRxMsg ← newByteArray pucData.length
    if !jAntRxMsg then rxCleanUp false
    else
      setByteArrayRegion pucData
      let occurred ← exceptionOccurred
      if occurred then rxCleanUp true
      else
        callAntRxMessage
        let occurred ← exceptionOccurred
        if occurred then rxCleanUp true
        else
          deleteLocalRef
          detachCurrentThread

/-- The call of the Java method, on a thread that the VM knows. -/
def reportToJava (uiNewState : RadioStatus) (iShouldDetach : Bool) : JniCmd Unit := do
  callAntStateChange uiNewState
  describeAndClear
  if iShouldDetach then detachCurrentThread

def nativeJAntStateCallback (uiNewState : RadioStatus) : JniCmd Unit := do
  let env ← getEnv
  if !env then
    let env ← attachCurrentThread
    if !env then return ()
    else reportToJava uiNewState true
  else reportToJava uiNewState false

def jniVersion14 : Int := 0x00010004

/-- The class reference is not checked behind NewGlobalRef. -/
def jniOnLoad : JniCmd Int := do
  setJVM
  let env ← getEnv
  if !env then return -1
  else
    let found ← findClass
    if !found then return -1
    else
      let _ ← newGlobalRef
      let registered ← registerNatives
      if !registered then return -1
      else
        let rx ← getStaticMethodID .nativeCbAntRxMessage
        if !rx then return -1
        else
          let state ← getStaticMethodID .nativeCbAntStateChange
          if !state then return -1
          else return jniVersion14

/-- The back end calls one of the two callbacks. -/
def invoke : Callback → JniCmd Unit
  | .antRxMessage msg => nativeJAntRxCallback msg
  | .antStateChange s => nativeJAntStateCallback s

section atRest

/-- A thread between two callbacks. It is attached exactly if it is one of Java, and
no exception is pending; a receive thread has left no reference behind. -/
structure VmThread.AtRest (java : Bool) (th : VmThread) : Prop where
  javaFrames : th.javaFrames = java
  attached : th.attached = java
  exception : th.exception = false
  jAntRxMsg : th.jAntRxMsg = none
  localRefs : java = false → th.localRefs = 0

/-- The statics are set. -/
structure Globals.Loaded (g : Globals) : Prop where
  gJVM : g.gJVM = true
  gSJClazz : g.gSJClazz = true
  gSMethodId : ∀ m, g.gSMethodId m = true

structure Vm.Ready (java : Bool) (vm : Vm) : Prop where
  version14 : vm.version14 = true
  globals : vm.globals.Loaded
  thread : vm.thread.AtRest java
  sound : vm.sound = true

/-- The VM gives a callback what it asks for. -/
def VmEnv.passesOn (env : VmEnv) (java : Bool) : Callback → Bool
  | .antRxMessage _ => env.attach && env.newByteArray && env.setByteArrayRegion
  | .antStateChange _ => java || env.attach

/-- What Java hears of a callback. -/
def VmEnv.said (env : VmEnv) (java : Bool) (cb : Callback) : List Callback :=
  if env.passesOn java cb then [cb] else []

variable {java : Bool} {env : VmEnv} {vm : Vm}

/-- A thread that is ready has little of its own. -/
theorem Vm.Ready.eq (h : vm.Ready java) :
    ∃ refs, (java = false → refs = 0) ∧
      vm = ⟨true, vm.globals, ⟨java, java, false, none, refs⟩, vm.heard, true⟩ := by
  obtain ⟨version14, globals, ⟨javaFrames, attached, exception, jAntRxMsg, localRefs⟩, heard,
    sound⟩ := vm
  obtain ⟨hversion, -, ⟨hframes, hattached, hexception, hmsg, hrefs⟩, hsound⟩ := h
  dsimp only at hversion hframes hattached hexception hmsg hrefs hsound
  subst hversion hframes hattached hexception hmsg hsound
  exact ⟨localRefs, hrefs, rfl⟩

/-- The clean-up takes a receive thread back to where it was before it was attached. -/
theorem rxCleanUp_run {jAntRxMsg : Bool} (hmsg : vm.thread.jAntRxMsg.isSome = jAntRxMsg)
    (hJVM : vm.globals.gJVM = true) (hattached : vm.thread.attached = true)
    (hnative : vm.thread.javaFrames = false) :
    ((rxCleanUp jAntRxMsg).run (exec env) vm).2 =
      { vm with thread := ⟨false, false, false, none, 0⟩ } := by
  obtain ⟨version14, globals, ⟨javaFrames, attached, exception, msg, localRefs⟩, heard, sound⟩ := vm
  dsimp only at hmsg hJVM hattached hnative
  subst hmsg hattached hnative
  cases msg <;> cases exception <;> simp [rxCleanUp, describeAndClear, hJVM]

/-- Whatever the VM refuses, the receive thread is left as it was. -/
theorem nativeJAntRxCallback_run (h : vm.Ready false) (msg : List UInt8) :
    ((nativeJAntRxCallback msg).run (exec env) vm).2 =
      { vm with heard := vm.heard ++ env.said false (.antRxMessage msg) } := by
  obtain ⟨hJVM, hclazz, hmethod⟩ := h.globals
  obtain ⟨refs, hrefs, heq⟩ := h.eq
  rw [hrefs rfl] at heq
  generalize vm.globals = g, vm.heard = heard at *
  subst heq
  unfold nativeJAntRxCallback VmEnv.said VmEnv.passesOn
  cases hattach : env.attach with
  | false => simp [hJVM, hattach]
  | true =>
      cases hnew : env.newByteArray with
      | false => simp [rxCleanUp_run, hJVM, hattach, hnew]
      | true =>
          cases hset : env.setByteArrayRegion with
          | false => simp [rxCleanUp_run, hJVM, hattach, hnew, hset]
          | true =>
              cases hcall : env.callStaticVoidMethod with
              | false => simp [rxCleanUp_run, hJVM, hclazz, hmethod, hattach, hnew, hset, hcall]
              | true => simp [hJVM, hclazz, hmethod, hattach, hnew, hset, hcall]

/-- A thread that Java has started stays attached; only references to what its method
has thrown are left to it, and go with the call from Java. -/
theorem nativeJAntStateCallback_run (h : vm.Ready java) (s : RadioStatus) :
    ∃ refs, (java = false → refs = 0) ∧
      ((nativeJAntStateCallback s).run (exec env) vm).2 =
        { vm with
          thread := { vm.thread with localRefs := refs }
          heard := vm.heard ++ env.said java (.antStateChange s) } := by
  obtain ⟨hJVM, hclazz, hmethod⟩ := h.globals
  obtain ⟨refs, hrefs, heq⟩ := h.eq
  generalize vm.globals = g, vm.heard = heard at *
  subst heq
  unfold nativeJAntStateCallback reportToJava describeAndClear VmEnv.said VmEnv.passesOn
  cases java with
  | false =>
      refine ⟨0, fun _ => rfl, ?_⟩
      rw [hrefs rfl]
      cases hattach : env.attach with
      | false => simp [hJVM, hattach]
      | true =>
          cases hcall : env.callStaticVoidMethod <;>
            simp [hJVM, hclazz, hmethod, hattach, hcall]
  | true =>
      cases hcall : env.callStaticVoidMethod with
      | false => exact ⟨refs + 1, Bool.noConfusion, by simp [hJVM, hclazz, hmethod, hcall]⟩
      | true => exact ⟨refs, Bool.noConfusion, by simp [hJVM, hclazz, hmethod, hcall]⟩

/-- A callback that comes on a thread of Java is a report of the state. -/
def Callback.FitsThread (java : Bool) (cb : Callback) : Prop :=
  java = true → ∃ s, cb = .antStateChange s

/-- The step lemma: what a callback does to a thread that is ready. -/
theorem invoke_run (h : vm.Ready java) {cb : Callback} (hcb : cb.FitsThread java) :
    let vm' := ((invoke cb).run (exec env) vm).2
    vm'.Ready java ∧ vm'.heard = vm.heard ++ env.said java cb := by
  cases cb with
  | antRxMessage msg =>
      cases java with
      | false =>
          rw [invoke, nativeJAntRxCallback_run h]
          exact ⟨⟨h.version14, h.globals, h.thread, h.sound⟩, rfl⟩
      | true =>
          obtain ⟨s, hs⟩ := hcb rfl
          cases hs
  | antStateChange s =>
      obtain ⟨refs, hrefs, hrun⟩ := @nativeJAntStateCallback_run java env vm h s
      rw [invoke, hrun]
      have hrest := h.thread
      exact ⟨⟨h.version14, h.globals, ⟨hrest.javaFrames, hrest.attached, hrest.exception,
        hrest.jAntRxMsg, hrefs⟩, h.sound⟩, rfl⟩

/-- Callbacks one after the other, with what the VM answers to each. -/
def Vm.passAll (vm : Vm) (ps : List (Callback × VmEnv)) : Vm :=
  ps.foldl (fun vm p => ((invoke p.1).run (exec p.2) vm).2) vm

/-- What Java hears of callbacks that come on one thread. -/
def heardOf (java : Bool) (ps : List (Callback × VmEnv)) : List Callback :=
  ps.flatMap fun p => p.2.said java p.1

theorem heardOf_append (ps qs : List (Callback × VmEnv)) :
    heardOf java (ps ++ qs) = heardOf java ps ++ heardOf java qs :=
  List.flatMap_append

/-- The run lemma: a thread stays ready, whatever the VM refuses. -/
theorem passAll_ready {ps : List (Callback × VmEnv)} (h : vm.Ready java)
    (hps : ∀ p ∈ ps, p.1.FitsThread java) :
    (vm.passAll ps).Ready java ∧ (vm.passAll ps).heard = vm.heard ++ heardOf java ps := by
  induction ps generalizing vm with
  | nil => exact ⟨h, (List.append_nil _).symm⟩
  | cons p ps ih =>
      obtain ⟨hp, hrest⟩ := List.forall_mem_cons.mp hps
      obtain ⟨hready, hheard⟩ := @invoke_run java p.2 vm h p.1 hp
      obtain ⟨hready', hheard'⟩ := ih hready hrest
      refine ⟨hready', hheard'.trans ?_⟩
      rw [hheard, List.append_assoc]
      rfl

end atRest

section load
variable {env : VmEnv} {version14 : Bool}

/-- The library before `JNI_OnLoad`, which a thread of Java calls. -/
def Vm.unloaded (version14 : Bool) : Vm where
  version14 := version14
  globals := ⟨false, false, fun _ => false⟩
  thread := ⟨true, true, false, none, 0⟩
  heard := []
  sound := true

/-- A VM with the library loaded, and with the reference to its class, which
`JNI_OnLoad` does not check. -/
def Vm.FromOnLoad (vm : Vm) : Prop :=
  ∃ env version14, env.newGlobalRef = true ∧
    jniOnLoad.run (exec env) (.unloaded version14) = (jniVersion14, vm)

theorem Vm.FromOnLoad.ready {vm : Vm} (h : vm.FromOnLoad) : vm.Ready true := by
  obtain ⟨env, version14, href, hrun⟩ := h
  have h : (jniOnLoad.run (exec env) (.unloaded version14)).1 = jniVersion14 :=
    congrArg Prod.fst hrun
  have hvm : (jniOnLoad.run (exec env) (.unloaded version14)).2 = vm := congrArg Prod.snd hrun
  rw [← hvm]
  have hne : (-1 : Int) ≠ jniVersion14 := by decide
  unfold jniOnLoad Vm.unloaded at h ⊢
  have hversion : version14 = true :=
    Bool.of_not_eq_false fun hno => by simp [hno, hne] at h
  subst hversion
  have hfind : env.findClass = true :=
    Bool.of_not_eq_false fun hno => by simp [hno, hne] at h
  have hregister : env.registerNatives = true :=
    Bool.of_not_eq_false fun hno => by simp [hfind, hno, hne] at h
  have hrx : env.getStaticMethodID .nativeCbAntRxMessage = true :=
    Bool.of_not_eq_false fun hno => by simp [hfind, hregister, hno, hne] at h
  have hstate : env.getStaticMethodID .nativeCbAntStateChange = true :=
    Bool.of_not_eq_false fun hno => by simp [hfind, hregister, hrx, hno, hne] at h
  constructor
  case globals =>
      constructor
      case gSMethodId =>
          intro m
          cases m <;> simp [hfind, hregister, hrx, hstate]
      all_goals simp [hfind, hregister, hrx, hstate, href]
  case thread => constructor <;> simp [hfind, hregister, hrx, hstate]
  all_goals simp [hfind, hregister, hrx, hstate, href]

end load
end AntHal.Jni

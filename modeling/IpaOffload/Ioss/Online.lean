import IpaOffload.Ioss.R8125

/-!
# Devices and their interfaces

An RTL8125 is probed and removed; in between, its interface is brought online
and offline as the link goes. Every step of this reads the gates and may fail,
so each transition has its own environment. A gate is read at most once for a
channel in a transition, and its value may be another each time.
-/

namespace IpaOffload.Ioss

open DeviceTree Fallible

-- ---------------------------------------------------------------------------
-- Lists of channels
-- ---------------------------------------------------------------------------

section
variable {D : Type}

/-- `ioss_list_iter_action`: on a failure, the channels before it are reverted,
the last one first. -/
def iossListIterAction (action revert : Nat → Net D Unit) :
    (i : Nat) → List (NetChannel D) → Option TcmData → Option Errno × List (NetChannel D) × Option TcmData
  | _, [], tcm => (none, [], tcm)
  | i, ch :: chs, tcm =>
    match exec (action i) { ch, tcm } with
    | (.error e, s) => (some e, s.ch :: chs, s.tcm)
    | (.ok _, s) =>
      match iossListIterAction action revert (i + 1) chs s.tcm with
      | (none, chs', tcm') => (none, s.ch :: chs', tcm')
      | (some e, chs', tcm') =>
        let s' := (exec (revert i) { ch := s.ch, tcm := tcm' }).2
        (some e, s'.ch :: chs', s'.tcm)

/-- `ioss_for_each_channel`, with whether one of the calls failed. -/
def iossForEachChannel (action : Nat → Net D Unit) :
    (i : Nat) → List (NetChannel D) → Option TcmData → Bool × List (NetChannel D) × Option TcmData
  | _, [], tcm => (false, [], tcm)
  | i, ch :: chs, tcm =>
    let r := exec (action i) { ch, tcm }
    let rest := iossForEachChannel action (i + 1) chs r.2.tcm
    (r.1.isOk = false || rest.1, r.2.ch :: rest.2.1, rest.2.2)

end

-- ---------------------------------------------------------------------------
-- State
-- ---------------------------------------------------------------------------

inductive IfState
  | offline
  | online
  | error
  deriving DecidableEq, Repr

structure Device (w : Nat) where
  state : IfState := .offline
  channels : List (NetChannel (R8125Channel w))
  tcm : Option TcmData := none
  ipa : IpaState w
  /-- The netdevice notifier is registered. -/
  watched : Bool := false
  /-- `idev->private` is not NULL. Closing the device does not clear it. -/
  privateSet : Bool := false
  held : Resource → Bool := fun _ => false
  faults : List Fault := []
  /-- `skip_ipa_register` as the last registration read it. -/
  skippedRegister : Bool := false

/-- What a transition meets. `chan` and `config` are for a channel by its place;
`pc` is the answer of PCIe power control. -/
structure LinkEnv (w : Nat) where
  chan : Nat → R8125Env w
  config : Nat → ConfigEnv
  debugfs : Nat → Option Errno
  addresses : AddressMap
  params : IpaParams
  platform : Platform w
  /-- Disconnecting the pipes after a failed registration. -/
  reconnDisconn : Option Errno
  /-- `skip_ipa_register` as `ioss_ipa_unregister` reads it. -/
  skipUnregister : Bool
  disconnPipes : Option Errno
  unregIntf : Option Errno
  pc : Option Errno

variable {w : Nat}

namespace Device

def fault (s : Device w) (f : Fault) : Device w := { s with faults := s.faults ++ [f] }

def need (s : Device w) (r : Resource) : Device w := if s.held r then s else s.fault (.notHeld r)

def acquire (s : Device w) (r : Resource) : Device w := { s with held := Function.update s.held r true }

def drop (s : Device w) (r : Resource) : Device w := { s with held := Function.update s.held r false }

end Device

-- ---------------------------------------------------------------------------
-- Online and offline
-- ---------------------------------------------------------------------------

section
variable (env : LinkEnv w)

def iterChannels (action revert : Nat → Net (R8125Channel w) Unit) (s : Device w) : Option Errno × Device w :=
  let r := iossListIterAction action revert 0 s.channels s.tcm
  (r.1, { s with channels := r.2.1, tcm := r.2.2 })

def forEachChannel (action : Nat → Net (R8125Channel w) Unit) (s : Device w) : Bool × Device w :=
  let r := iossForEachChannel action 0 s.channels s.tcm
  (r.1, { s with channels := r.2.1, tcm := r.2.2 })

def iossNetAllocChannels : Device w → Option Errno × Device w :=
  iterChannels (fun i => iossNetAllocChannel (r8125IossOps (env.chan i)) (env.config i) (env.debugfs i))
    fun i => iossNetFreeChannel (r8125IossOps (env.chan i))

def iossNetFreeChannels : Device w → Bool × Device w :=
  forEachChannel fun i => iossNetFreeChannel (r8125IossOps (env.chan i))

def iossNetEnableChannels : Device w → Option Errno × Device w :=
  iterChannels (fun i => iossNetEnableChannel (r8125IossOps (env.chan i)))
    fun i => iossNetDisableChannel (r8125IossOps (env.chan i))

def iossNetDisableChannels : Device w → Bool × Device w :=
  forEachChannel fun i => iossNetDisableChannel (r8125IossOps (env.chan i))

def iossNetSetupEvents : Device w → Option Errno × Device w :=
  iterChannels (fun i => iossNetSetupEvent (r8125IossOps (env.chan i)))
    fun i => iossNetTeardownEvent (r8125IossOps (env.chan i))

def iossNetTeardownEvents : Device w → Bool × Device w :=
  forEachChannel fun i => iossNetTeardownEvent (r8125IossOps (env.chan i))

/-- The registration, and what of it is held. A failure after the pipes are
connected disconnects them. -/
def iossIpaRegisterIface (s : Device w) : Option Errno × Device w :=
  let chs := s.channels.map fun ch => ({ ch, tcm := s.tcm } : OnChannel _).toIpa env.addresses
  let r := exec (iossIpaRegister env.params env.platform chs) { s.ipa with connected := none }
  let s := { s with ipa := r.2, skippedRegister := env.params.skipIpaRegister }
  match r.1 with
  | .ok _ => (none, if env.params.skipIpaRegister then s else (s.acquire .pipes).acquire .intf)
  | .error e =>
    match r.2.connected with
    | none => (some e, s)
    | some pipes =>
      if env.platform.connPipes pipes then
        (some e, if env.reconnDisconn.isNone then s.drop .pipes else s.acquire .pipes)
      else (some e, s)

def iossIpaUnregister (s : Device w) : Option Errno × Device w :=
  if env.skipUnregister then (none, s)
  else
    let s := s.need .pipes
    match env.disconnPipes with
    | some e => (some e, s)
    | none =>
      let s := (s.drop .pipes).need .intf
      match env.unregIntf with
      | some e => (some e, s)
      | none =>
        let s := s.drop .intf
        (none,
          { s with
            ipa :=
              { s.ipa with
                freed := s.ipa.freed ++ s.ipa.pipes.filterMap fun pi => pi.dataBuffList.map (·.id)
                pipes := s.ipa.pipes.map fun _ => {}
                connected := none
                cleared := true } })

def errAllocChannels (s : Device w) : Device w := { s with state := .error }

def errIpaRegister (s : Device w) : Device w := errAllocChannels (iossNetFreeChannels env s).2

def errSetupEvents (s : Device w) : Device w := errIpaRegister env (iossIpaUnregister env s).2

def errEnableChannels (s : Device w) : Device w := errSetupEvents env (iossNetTeardownEvents env s).2

def errDisablePc (s : Device w) : Device w := errEnableChannels env (iossNetDisableChannels env s).2

def iossIfaceSetOnline (s : Device w) : Device w :=
  if s.state ≠ .offline then s
  else
    match iossNetAllocChannels env s with
    | (some _, s) => errAllocChannels s
    | (none, s) =>
      match iossIpaRegisterIface env s with
      | (some _, s) => errIpaRegister env s
      | (none, s) =>
        match iossNetSetupEvents env s with
        | (some _, s) => errSetupEvents env s
        | (none, s) =>
          match iossNetEnableChannels env s with
          | (some _, s) => errEnableChannels env s
          | (none, s) => if env.pc.isSome then errDisablePc env s else { s with state := .online }

/-- A failure on the way down leaves the interface in the state `error`. -/
def Device.failIf (failed : Bool) (s : Device w) : Device w := if failed then { s with state := .error } else s

def iossIfaceSetOffline (s : Device w) : Device w :=
  if s.state ≠ .online then s
  else
    let s := Device.failIf env.pc.isSome { s with state := .offline }
    let (failed, s) := iossNetDisableChannels env s
    let s := s.failIf failed
    let (failed, s) := iossNetTeardownEvents env s
    let s := s.failIf failed
    let (rc, s) := iossIpaUnregister env s
    let s := s.failIf rc.isSome
    let (failed, s) := iossNetFreeChannels env s
    s.failIf failed

end

-- ---------------------------------------------------------------------------
-- Devices
-- ---------------------------------------------------------------------------

structure ProbeEnv where
  skipOpenDevice : Bool
  /-- Linking the device and registering the panic notifier. -/
  prepared : Bool
  alloc : Bool
  registerNotifier : Bool
  watch : Bool

def r8125IossOpenDevice (env : ProbeEnv) (s : Device w) : Option Errno × Device w :=
  if env.skipOpenDevice then (none, s)
  else if !env.alloc then (some .noMem, s)
  else if !env.registerNotifier then (some .fault, s)
  else (none, { s.acquire .device with privateSet := true })

def r8125IossCloseDevice (s : Device w) : Device w :=
  let s := s.need .device
  if s.privateSet then s.drop .device else s.fault .nullPrivate

def iossBusProbe (env : ProbeEnv) (s : Device w) : Device w :=
  if !env.prepared then s
  else
    match r8125IossOpenDevice env s with
    | (some _, s) => s
    | (none, s) => if env.watch then { s with watched := true } else r8125IossCloseDevice s

/-- `ioss_refresh_work`. `up` is whether the interface is running, has a carrier
and is not being unbound. -/
def iossRefreshWork (env : LinkEnv w) (netDev up : Bool) (s : Device w) : Device w :=
  if !netDev then s
  else if up then iossIfaceSetOnline env s
  else iossIfaceSetOffline env s

/-- The end of a probe that fails late, or `ioss_bus_remove`, which stops where
unwatching fails. -/
def iossBusRemove (env : LinkEnv w) (netDev probing unwatch : Bool) (s : Device w) : Device w :=
  let s := { iossRefreshWork env netDev false s with watched := false }
  if probing || unwatch then r8125IossCloseDevice s else s

/-- The driver core probes what is not bound, and removes what is; a refresh runs
while the device is watched. -/
inductive DeviceAction (w : Nat)
  | probe (env : ProbeEnv)
  | refresh (env : LinkEnv w) (netDev up : Bool)
  | remove (env : LinkEnv w) (netDev probing unwatch : Bool)

def Device.step (s : Device w) : DeviceAction w → Device w
  | .probe env => if s.watched then s else iossBusProbe env s
  | .refresh env netDev up => if s.watched then iossRefreshWork env netDev up s else s
  | .remove env netDev probing unwatch => if s.watched then iossBusRemove env netDev probing unwatch s else s

end IpaOffload.Ioss

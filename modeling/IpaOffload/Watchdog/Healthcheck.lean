import IpaOffload.Lib.Runs
import Mathlib.Logic.Function.Basic

/-!
# `ipa-stack-healthcheck.sh`

The watchdog of the final stack. Its runs share a lock directory, the units of
systemd and a log on tmpfs; one step is one command of one run. Between the
steps other things happen to the units, and a run may be killed, which skips
its trap. The shell's `sleep`s give the others time to step and nothing else.
-/

namespace IpaOffload.Watchdog

open Function

-- ---------------------------------------------------------------------------
-- systemd
-- ---------------------------------------------------------------------------

inductive SystemdUnit
  | pcieEnabler
  | ipacm
  | netmgrd
  | qcmapConnectionManagerd
  | qcmapRadioOn
  | qcmapHttpd
  | dedupeTimer
  deriving DecidableEq, Repr

def SystemdUnit.name : SystemdUnit → String
  | .pcieEnabler => "pcie-enabler.service"
  | .ipacm => "ipacm.service"
  | .netmgrd => "netmgrd.service"
  | .qcmapConnectionManagerd => "QCMAP_ConnectionManagerd.service"
  | .qcmapRadioOn => "qcmap-radio-on.service"
  | .qcmapHttpd => "qcmap_httpd.service"
  | .dedupeTimer => "ipa-iptables-dedupe.timer"

/-- What `systemctl is-active` says of a unit; `silent` where it says nothing. -/
inductive UnitState
  | active
  | reloading
  | inactive
  | failed
  | activating
  | deactivating
  | maintenance
  | unknown
  | silent
  deriving DecidableEq, Repr

def UnitState.text : UnitState → String
  | .active => "active"
  | .reloading => "reloading"
  | .inactive => "inactive"
  | .failed => "failed"
  | .activating => "activating"
  | .deactivating => "deactivating"
  | .maintenance => "maintenance"
  | .unknown => "unknown"
  | .silent => ""

def isOk : UnitState → Bool
  | .active | .activating => true
  | _ => false

/-- The units that get `restart_unit`, in the order of the script. -/
def restartUnits : List SystemdUnit :=
  [.pcieEnabler, .ipacm, .netmgrd, .qcmapConnectionManagerd, .qcmapRadioOn, .qcmapHttpd]

/-- The order of the last `is-active`. -/
def postCheckUnits : List SystemdUnit :=
  [.pcieEnabler, .ipacm, .qcmapConnectionManagerd, .netmgrd, .qcmapRadioOn, .dedupeTimer, .qcmapHttpd]

/-- What a run asks of systemd and of the dedupe script, and what its `is_ok`
was told. -/
inductive Event
  | saw (u : SystemdUnit) (state : UnitState)
  | daemonReload
  | resetFailed (u : SystemdUnit)
  | restart (u : SystemdUnit)
  | enable (u : SystemdUnit)
  | start (u : SystemdUnit)
  | dedupe
  deriving DecidableEq, Repr

-- ---------------------------------------------------------------------------
-- The log
-- ---------------------------------------------------------------------------

abbrev Log := List String

/-- `wc -c`. -/
def logSize (log : Log) : Nat := log.foldr (fun line size => line.utf8ByteSize + 1 + size) 0

/-- `tail -n 400`. -/
def tail400 (log : Log) : Log := log.drop (log.length - 400)

-- ---------------------------------------------------------------------------
-- A run
-- ---------------------------------------------------------------------------

/-- The command a run is at. `us` are the units to come. -/
inductive Pc
  | mkdir
  | boundLog
  | daemonReload
  | check (u : SystemdUnit) (us : List SystemdUnit)
  | logRestart (u : SystemdUnit) (us : List SystemdUnit)
  | resetFailed (u : SystemdUnit) (us : List SystemdUnit)
  | restart (u : SystemdUnit) (us : List SystemdUnit)
  | checkTimer
  | logStart
  | enable
  | start
  | dedupe
  | postCheck
  | trapExit
  | exited
  | killed (inside : Bool)
  deriving DecidableEq

structure Proc where
  pc : Pc
  changed : Bool

def Pc.next : List SystemdUnit → Pc
  | [] => .checkTimer
  | u :: us => .check u us

/-- What the command that a run calls does: the states it leaves the units in,
its exit status, and the lines it prints. `date` is what `date` says. -/
structure Reply where
  units : SystemdUnit → UnitState
  rc : Nat
  output : Log
  date : String

structure World where
  lock : Bool
  units : SystemdUnit → UnitState
  log : Log
  /-- The events so far, the last one first. -/
  journal : List (Nat × Event)
  procs : Nat → Proc

def boot (units : SystemdUnit → UnitState) (log : Log) : World where
  lock := false
  units := units
  log := log
  journal := []
  procs _ := { pc := .mkdir, changed := false }

def World.goto (w : World) (i : Nat) (pc : Pc) : World :=
  { w with procs := update w.procs i { (w.procs i) with pc := pc } }

def World.setChanged (w : World) (i : Nat) : World :=
  { w with procs := update w.procs i { (w.procs i) with changed := true } }

def World.note (w : World) (i : Nat) (e : Event) : World := { w with journal := (i, e) :: w.journal }

def World.say (w : World) (r : Reply) (text : String) : World :=
  { w with log := w.log ++ [r.date ++ " " ++ text] }

def World.print (w : World) (r : Reply) : World := { w with log := w.log ++ r.output }

def World.obey (w : World) (r : Reply) : World := { w with units := r.units }

def restartText (u : SystemdUnit) (state : UnitState) : String := "restart " ++ u.name ++ " state=" ++ state.text

def restartFailedText (u : SystemdUnit) (rc : Nat) : String :=
  "restart failed " ++ u.name ++ " rc=" ++ toString rc

def startText (state : UnitState) : String :=
  "enable/start " ++ SystemdUnit.dedupeTimer.name ++ " state=" ++ state.text

/-- A line of `systemctl is-active`, with the blank that `tr` puts for its end. -/
def stateLine : UnitState → String
  | .silent => ""
  | state => state.text ++ " "

def postCheckText (units : SystemdUnit → UnitState) : String :=
  "post-check services: " ++ String.join (postCheckUnits.map fun u => stateLine (units u))

def exec (w : World) (i : Nat) (r : Reply) : World :=
  match (w.procs i).pc with
  | .mkdir => if w.lock then w.goto i .exited else { w with lock := true }.goto i .boundLog
  | .boundLog =>
    let log := if 131072 < logSize w.log ∧ r.rc = 0 then tail400 w.log else w.log
    { w with log := log }.goto i .daemonReload
  | .daemonReload => ((w.obey r).note i .daemonReload).goto i (.next restartUnits)
  | .check u us => (w.note i (.saw u (w.units u))).goto i (if isOk (w.units u) then .next us else .logRestart u us)
  | .logRestart u us => (w.say r (restartText u (w.units u))).goto i (.resetFailed u us)
  | .resetFailed u us => ((w.obey r).note i (.resetFailed u)).goto i (.restart u us)
  | .restart u us =>
    let w := ((w.obey r).note i (.restart u)).print r
    let w := if r.rc = 0 then w else w.say r (restartFailedText u r.rc)
    (w.setChanged i).goto i (.next us)
  | .checkTimer =>
    let state := w.units .dedupeTimer
    (w.note i (.saw .dedupeTimer state)).goto i (if isOk state then .dedupe else .logStart)
  | .logStart => (w.say r (startText (w.units .dedupeTimer))).goto i .enable
  | .enable => ((w.obey r).note i (.enable .dedupeTimer)).goto i .start
  | .start => ((((w.obey r).note i (.start .dedupeTimer)).print r).setChanged i).goto i .dedupe
  | .dedupe => ((w.note i .dedupe).print r).goto i (if (w.procs i).changed then .postCheck else .trapExit)
  | .postCheck => (w.say r (postCheckText w.units)).goto i .trapExit
  | .trapExit => { w with lock := false }.goto i .exited
  | .exited | .killed _ => w

/-- The run has made the directory and not removed it. -/
def Pc.holds : Pc → Bool
  | .mkdir | .exited => false
  | .killed inside => inside
  | _ => true

/-- The end of a run that the trap does not see. -/
def kill (w : World) (i : Nat) : World :=
  match (w.procs i).pc with
  | .exited => w
  | pc => w.goto i (.killed pc.holds)

inductive Action
  | run (i : Nat) (r : Reply)
  | kill (i : Nat)
  /-- Something else happens to the units. -/
  | happen (units : SystemdUnit → UnitState)

def step (w : World) : Action → World
  | .run i r => exec w i r
  | .kill i => kill w i
  | .happen units => { w with units := units }

end IpaOffload.Watchdog

import IpaOffload.Lib.Runs
import Mathlib.Data.Fintype.Card
import Mathlib.Logic.Function.Basic

/-!
# Power management of the real driver

While a glue driver has devices, the `pm` of their real driver points to the
ops of the glue driver, which keeps the real ones and counts its devices. Each
glue driver matches the name of one real driver. Probes and removals of
different devices run side by side; a removal that stops early leaves its
count behind.
-/

namespace IpaOffload.Ioss

open Runs Function

-- ---------------------------------------------------------------------------
-- The bus
-- ---------------------------------------------------------------------------

structure PmBus (D A V : Type) where
  /-- `dev->driver` of the real device. -/
  driverOf : D → V
  driverName : V → String
  /-- Whether the ops that a driver came with have a `suspend`. -/
  hasSuspend : V → Bool
  /-- The name that the `match` of a glue driver compares with. -/
  matchName : A → String
  driverName_inj : Injective driverName
  matchName_inj : Injective matchName

variable {D A V : Type}

/-- `ioss_bus_match`. -/
def PmBus.matches (bus : PmBus D A V) (a : A) (v : V) : Bool := bus.matchName a = bus.driverName v

/-- A `struct dev_pm_ops`: the ones a driver came with, or the `pm_ops` of a
glue driver. -/
inductive PmOps (A V : Type)
  | real (v : V)
  | ioss (a : A)
  deriving DecidableEq

inductive Binding (A : Type)
  | unbound
  /-- In `ioss_bus_probe`, with the ops hijacked. -/
  | probing (a : A)
  /-- Bound. The netdevice notifier may not be registered all the same. -/
  | bound (a : A) (watched : Bool)

def Binding.glue : Binding A → Option A
  | .unbound => none
  | .probing a | .bound a _ => some a

@[simp] theorem Binding.glue_unbound : (.unbound : Binding A).glue = none := rfl
@[simp] theorem Binding.glue_probing (a : A) : (Binding.probing a).glue = some a := rfl
@[simp] theorem Binding.glue_bound (a : A) (watched : Bool) : (Binding.bound a watched).glue = some a := rfl

structure PmState (D A V : Type) where
  /-- `driver->pm`, and NULL. -/
  pm : V → Option (PmOps A V)
  pmRefcnt : A → Nat
  pmOpsReal : A → Option (PmOps A V)
  binding : D → Binding A
  /-- Removals that stopped before they gave the ops back. -/
  stopped : A → Nat

def PmState.init : PmState D A V where
  pm v := some (.real v)
  pmRefcnt _ := 0
  pmOpsReal _ := none
  binding _ := .unbound
  stopped _ := 0

section
variable [DecidableEq D] [DecidableEq A] [DecidableEq V] (bus : PmBus D A V)

def iossPciHijackPmOps (a : A) (d : D) (s : PmState D A V) : PmState D A V :=
  let v := bus.driverOf d
  if s.pmRefcnt a ≠ 0 then { s with pmRefcnt := update s.pmRefcnt a (s.pmRefcnt a + 1) }
  else
    { s with
      pmOpsReal := update s.pmOpsReal a (s.pm v)
      pm := update s.pm v (some (.ioss a))
      pmRefcnt := update s.pmRefcnt a 1 }

def iossPciRestorePmOps (a : A) (d : D) (s : PmState D A V) : PmState D A V :=
  let v := bus.driverOf d
  let s := { s with pmRefcnt := update s.pmRefcnt a (s.pmRefcnt a - 1) }
  if s.pmRefcnt a = 0 then { s with pm := update s.pm v (s.pmOpsReal a) } else s

def PmState.bind (d : D) (b : Binding A) (s : PmState D A V) : PmState D A V :=
  { s with binding := update s.binding d b }

-- ---------------------------------------------------------------------------
-- Probe and removal
-- ---------------------------------------------------------------------------

inductive WatchOutcome
  | ok
  | debugfsFails
  | wakeupFails
  | notifierFails
  deriving DecidableEq, Repr

/-- `ioss_net_watch_device`: whether it returns 0, and whether the notifier is
registered. Where there is no wakeup source, `rc` is still 0 when the error
path returns it. -/
def iossNetWatchDevice : WatchOutcome → Bool × Bool
  | .ok => (true, true)
  | .debugfsFails => (false, false)
  | .wakeupFails => (true, false)
  | .notifierFails => (false, false)

structure ProbeOutcome where
  panicNotifier : Bool
  openDevice : Bool
  watch : WatchOutcome
  sysfs : Bool

/-- The device is bound, with whether its notifier is registered; `none` where
the probe fails. -/
def ProbeOutcome.result (o : ProbeOutcome) : Option Bool :=
  if !o.panicNotifier then none
  else if !o.openDevice then none
  else
    match iossNetWatchDevice o.watch with
    | (false, _) => none
    | (true, watched) => if o.sysfs then some watched else none

/-- `ioss_net_unwatch_device`: unregistering a notifier that is not registered
fails. -/
def iossNetUnwatchDevice (watched : Bool) : Bool := watched

inductive PmAction (D A : Type)
  /-- The bus offers a device to a glue driver; `linked` is whether it has a
  netdevice. -/
  | probe (d : D) (a : A) (linked : Bool)
  | probeEnd (d : D) (o : ProbeOutcome)
  | remove (d : D) (closes : Bool)

def PmState.step (s : PmState D A V) : PmAction D A → PmState D A V
  | .probe d a linked =>
    match s.binding d with
    | .unbound =>
      if bus.matches a (bus.driverOf d) && linked then (iossPciHijackPmOps bus a d s).bind d (.probing a) else s
    | _ => s
  | .probeEnd d o =>
    match s.binding d with
    | .probing a =>
      match o.result with
      | some watched => s.bind d (.bound a watched)
      | none => (iossPciRestorePmOps bus a d s).bind d .unbound
    | _ => s
  | .remove d closes =>
    match s.binding d with
    | .bound a watched =>
      if iossNetUnwatchDevice watched && closes then (iossPciRestorePmOps bus a d s).bind d .unbound
      else { s with stopped := update s.stopped a (s.stopped a + 1) }.bind d .unbound
    | _ => s

-- ---------------------------------------------------------------------------
-- Suspend
-- ---------------------------------------------------------------------------

inductive Suspend (V : Type)
  | nop
  | real (v : V)
  /-- The glue driver's ops again. -/
  | loops
  | einval
  /-- There is no op to call. -/
  | missing
  deriving DecidableEq

/-- `__real_pm_ops`. -/
def realPmOps (s : PmState D A V) (d : D) : Option (PmOps A V) :=
  let ops :=
    match s.pm (bus.driverOf d) with
    | some (.ioss a) => s.pmOpsReal a
    | _ => none
  match ops with
  | some ops => some ops
  | none => (s.binding d).glue.bind s.pmOpsReal

def iossPciRealSuspend (s : PmState D A V) (d : D) : Suspend V :=
  match realPmOps bus s d with
  | some (.real v) => if bus.hasSuspend v then .real v else .einval
  | some (.ioss _) => .loops
  | none => .einval

def iossPciSuspendHandler (s : PmState D A V) (online : D → Bool) (d : D) : Suspend V :=
  if online d then .nop else iossPciRealSuspend bus s d

/-- The bus suspends a device through `driver->pm`. -/
def suspend (s : PmState D A V) (online : D → Bool) (d : D) : Suspend V :=
  match s.pm (bus.driverOf d) with
  | some (.real v) => if bus.hasSuspend v then .real v else .missing
  | some (.ioss _) => iossPciSuspendHandler bus s online d
  | none => .missing

end

-- ---------------------------------------------------------------------------
-- The count
-- ---------------------------------------------------------------------------

set_option linter.unusedSectionVars false

section
variable [DecidableEq D] [DecidableEq A] [DecidableEq V] [Fintype D] {bus : PmBus D A V}

def holders (s : PmState D A V) (a : A) : Nat := (Finset.univ.filter fun d => (s.binding d).glue = some a).card

theorem holders_bind (s : PmState D A V) (d : D) (b : Binding A) (a : A) :
    holders (s.bind d b) a + (if (s.binding d).glue = some a then 1 else 0) =
      holders s a + (if b.glue = some a then 1 else 0) := by
  have hothers : ∀ f : D → Binding A, (Finset.univ.filter fun k => (f k).glue = some a).card =
      ((Finset.univ.erase d).filter fun k => (f k).glue = some a).card + (if (f d).glue = some a then 1 else 0) := by
    intro f
    conv_lhs => rw [← Finset.insert_erase (Finset.mem_univ d), Finset.filter_insert]
    split
    · rw [Finset.card_insert_of_notMem (by simp)]
    · rfl
  have hsame : ((Finset.univ.erase d).filter fun k => (update s.binding d b k).glue = some a) =
      (Finset.univ.erase d).filter fun k => (s.binding k).glue = some a := by
    apply Finset.filter_congr
    intro k hk
    rw [update_of_ne (Finset.ne_of_mem_erase hk)]
  unfold holders PmState.bind
  rw [hothers, hothers s.binding, hsame]
  simp only [update_self]
  omega

@[simp] theorem bind_pm (s : PmState D A V) (d : D) (b : Binding A) : (s.bind d b).pm = s.pm := rfl
@[simp] theorem bind_pmRefcnt (s : PmState D A V) (d : D) (b : Binding A) : (s.bind d b).pmRefcnt = s.pmRefcnt := rfl
@[simp] theorem bind_pmOpsReal (s : PmState D A V) (d : D) (b : Binding A) : (s.bind d b).pmOpsReal = s.pmOpsReal := rfl
@[simp] theorem bind_stopped (s : PmState D A V) (d : D) (b : Binding A) : (s.bind d b).stopped = s.stopped := rfl

theorem bind_other (s : PmState D A V) (b : Binding A) {d k : D} (h : d ≠ k) : (s.bind k b).binding d = s.binding d :=
  update_of_ne h ..

theorem holders_pos {s : PmState D A V} {d : D} {a : A} (h : (s.binding d).glue = some a) : 0 < holders s a :=
  Finset.card_pos.mpr ⟨d, by simpa using h⟩

-- ---------------------------------------------------------------------------
-- The ops
-- ---------------------------------------------------------------------------

theorem matches_driver {a : A} {v v' : V} (h : bus.matches a v = true) (h' : bus.matches a v' = true) : v = v' := by
  simp only [PmBus.matches, decide_eq_true_eq] at h h'
  exact bus.driverName_inj (h.symm.trans h')

theorem matches_glue {a a' : A} {v : V} (h : bus.matches a v = true) (h' : bus.matches a' v = true) : a = a' := by
  simp only [PmBus.matches, decide_eq_true_eq] at h h'
  exact bus.matchName_inj (h.trans h'.symm)

variable (bus) in
/-- The ops of a driver are hijacked just while its glue driver counts devices,
and the glue driver has them. -/
structure OpsKept (s : PmState D A V) : Prop where
  taken : ∀ a v, bus.matches a v = true → s.pmRefcnt a ≠ 0 →
    s.pm v = some (.ioss a) ∧ s.pmOpsReal a = some (.real v)
  own : ∀ v, (∀ a, bus.matches a v = true → s.pmRefcnt a = 0) → s.pm v = some (.real v)

theorem OpsKept.bind {s : PmState D A V} (h : OpsKept bus s) (d : D) (b : Binding A) : OpsKept bus (s.bind d b) :=
  ⟨h.taken, h.own⟩

/-- What one glue driver does to its own driver leaves the others' alone. -/
theorem OpsKept.of_glue {s s' : PmState D A V} (h : OpsKept bus s) {a : A} {v : V} (hm : bus.matches a v = true)
    (hothers : ∀ a', a' ≠ a → s'.pmRefcnt a' = s.pmRefcnt a' ∧ s'.pmOpsReal a' = s.pmOpsReal a')
    (hpms : ∀ v', v' ≠ v → s'.pm v' = s.pm v')
    (htaken : s'.pmRefcnt a ≠ 0 → s'.pm v = some (.ioss a) ∧ s'.pmOpsReal a = some (.real v))
    (hown : s'.pmRefcnt a = 0 → s'.pm v = some (.real v)) : OpsKept bus s' := by
  constructor
  · intro a' v' hm' hcount
    by_cases ha : a' = a
    · subst ha
      obtain rfl := matches_driver hm hm'
      exact htaken hcount
    · have hv : v' ≠ v := by
        rintro rfl
        exact ha (matches_glue hm' hm)
      obtain ⟨hcnt, hreal⟩ := hothers a' ha
      rw [hcnt] at hcount
      rw [hpms v' hv, hreal]
      exact h.taken a' v' hm' hcount
  · intro v' hnone
    by_cases hv : v' = v
    · subst hv
      exact hown (hnone a hm)
    · rw [hpms v' hv]
      apply h.own v'
      intro a' hm'
      have ha : a' ≠ a := by
        rintro rfl
        exact hv (matches_driver hm' hm)
      rw [← (hothers a' ha).1]
      exact hnone a' hm'

theorem OpsKept.hijack {s : PmState D A V} (h : OpsKept bus s) {a : A} {d : D}
    (hm : bus.matches a (bus.driverOf d) = true) : OpsKept bus (iossPciHijackPmOps bus a d s) := by
  unfold iossPciHijackPmOps
  dsimp only
  split
  · rename_i hcount
    refine h.of_glue hm (fun a' ha => ⟨update_of_ne ha .., rfl⟩) (fun _ _ => rfl) (fun _ => h.taken a _ hm hcount) ?_
    intro hzero
    simp at hzero
  · rename_i hcount
    have hzero : s.pmRefcnt a = 0 := by simpa using hcount
    -- nobody has the ops of this driver
    have hreal : s.pm (bus.driverOf d) = some (.real (bus.driverOf d)) := by
      apply h.own
      intro a' hm'
      rw [← matches_glue hm hm', hzero]
    refine h.of_glue hm (fun a' ha => ⟨update_of_ne ha .., update_of_ne ha ..⟩) (fun v hv => update_of_ne hv ..) ?_ ?_
    · intro _
      simp [hreal]
    · intro hzero
      simp at hzero

theorem OpsKept.restore {s : PmState D A V} (h : OpsKept bus s) {a : A} {d : D}
    (hm : bus.matches a (bus.driverOf d) = true) (hcount : s.pmRefcnt a ≠ 0) :
    OpsKept bus (iossPciRestorePmOps bus a d s) := by
  have htaken := h.taken a _ hm hcount
  unfold iossPciRestorePmOps
  dsimp only
  split
  · rename_i hlast
    refine h.of_glue hm (fun a' ha => ⟨update_of_ne ha .., rfl⟩) (fun v hv => update_of_ne hv ..) ?_ ?_
    · intro hcount'
      exact absurd hlast hcount'
    · intro _
      simpa using htaken.2
  · rename_i hmore
    exact h.of_glue hm (fun a' ha => ⟨update_of_ne ha .., rfl⟩) (fun _ _ => rfl) (fun _ => htaken)
      fun hzero => absurd hzero hmore

-- ---------------------------------------------------------------------------
-- Whole runs
-- ---------------------------------------------------------------------------

variable (bus) in
structure PmInv (s : PmState D A V) : Prop extends OpsKept bus s where
  count : ∀ a, s.pmRefcnt a = holders s a + s.stopped a
  matched : ∀ d a, (s.binding d).glue = some a → bus.matches a (bus.driverOf d) = true

theorem init_pmInv : PmInv bus (PmState.init : PmState D A V) where
  taken a v hm hcount := absurd rfl hcount
  own v hnone := rfl
  count a := by simp [holders, PmState.init]
  matched d a h := by cases h

variable (bus) in
theorem hijack_frame (a : A) (d : D) (s : PmState D A V) :
    (iossPciHijackPmOps bus a d s).pmRefcnt = update s.pmRefcnt a (s.pmRefcnt a + 1) ∧
      (iossPciHijackPmOps bus a d s).binding = s.binding ∧ (iossPciHijackPmOps bus a d s).stopped = s.stopped := by
  unfold iossPciHijackPmOps
  dsimp only
  split
  · exact ⟨rfl, rfl, rfl⟩
  · rename_i hcount
    have hzero : s.pmRefcnt a = 0 := by simpa using hcount
    simp [hzero]

variable (bus) in
theorem restore_frame (a : A) (d : D) (s : PmState D A V) :
    (iossPciRestorePmOps bus a d s).pmRefcnt = update s.pmRefcnt a (s.pmRefcnt a - 1) ∧
      (iossPciRestorePmOps bus a d s).binding = s.binding ∧ (iossPciRestorePmOps bus a d s).stopped = s.stopped := by
  unfold iossPciRestorePmOps
  dsimp only
  split <;> exact ⟨rfl, rfl, rfl⟩

theorem PmInv.of_bind {s s' : PmState D A V} (h : PmInv bus s) {d : D} {b : Binding A} (hops : OpsKept bus s')
    (hbinding : s'.binding = s.binding) (hb : ∀ a, b.glue = some a → bus.matches a (bus.driverOf d) = true)
    (hcount : ∀ a, s'.pmRefcnt a + s.stopped a + (if (s.binding d).glue = some a then 1 else 0) =
      s.pmRefcnt a + s'.stopped a + (if b.glue = some a then 1 else 0)) : PmInv bus (s'.bind d b) where
  toOpsKept := hops.bind d b
  count a := by
    have hbind := holders_bind s' d b a
    have hsame : holders s' a = holders s a := by rw [holders, holders, hbinding]
    have := hcount a
    have := h.count a
    rw [hbinding, hsame] at hbind
    simp only [bind_pmRefcnt, bind_stopped]
    omega
  matched k a hk := by
    simp only [PmState.bind, hbinding] at hk
    by_cases hd : k = d
    · subst hd
      rw [update_self] at hk
      exact hb a hk
    · rw [update_of_ne hd] at hk
      exact h.matched k a hk

theorem PmInv.hijack {s : PmState D A V} (h : PmInv bus s) {d : D} {a : A} (hd : s.binding d = .unbound)
    (hm : bus.matches a (bus.driverOf d) = true) :
    PmInv bus ((iossPciHijackPmOps bus a d s).bind d (.probing a)) := by
  obtain ⟨hrefcnt, hbinding, hstopped⟩ := hijack_frame bus a d s
  refine h.of_bind (h.toOpsKept.hijack hm) hbinding (fun a' ha => ?_) fun a' => ?_
  · cases ha
    exact hm
  · by_cases ha : a' = a
    · subst ha
      simp [hrefcnt, hstopped, hd]
      omega
    · simp [hrefcnt, hstopped, hd, update_of_ne ha, Ne.symm ha]

theorem PmInv.restore {s : PmState D A V} (h : PmInv bus s) {d : D} {a : A} (hd : (s.binding d).glue = some a) :
    PmInv bus ((iossPciRestorePmOps bus a d s).bind d .unbound) := by
  obtain ⟨hrefcnt, hbinding, hstopped⟩ := restore_frame bus a d s
  have hpos : 0 < s.pmRefcnt a := by
    have := h.count a
    have := holders_pos hd
    omega
  refine h.of_bind (h.toOpsKept.restore (h.matched d a hd) (by omega)) hbinding (fun a' ha => by cases ha) fun a' => ?_
  by_cases ha : a' = a
  · subst ha
    simp [hrefcnt, hstopped, hd]
    omega
  · simp [hrefcnt, hstopped, hd, update_of_ne ha, Ne.symm ha]

theorem PmInv.stop {s : PmState D A V} (h : PmInv bus s) {d : D} {a : A} (hd : (s.binding d).glue = some a) :
    PmInv bus ({ s with stopped := update s.stopped a (s.stopped a + 1) }.bind d .unbound) := by
  refine h.of_bind ⟨h.taken, h.own⟩ rfl (fun a' ha => by cases ha) fun a' => ?_
  by_cases ha : a' = a
  · subst ha
    simp [hd]
    omega
  · simp [hd, update_of_ne ha, Ne.symm ha]

theorem PmInv.step (s : PmState D A V) (act : PmAction D A) (h : PmInv bus s) : PmInv bus (s.step bus act) := by
  cases act with
  | probe d a linked =>
    simp only [PmState.step]
    split
    · rename_i hd
      split
      · rename_i hg
        exact h.hijack hd (by simpa using (Bool.and_eq_true_iff.mp hg).1)
      · exact h
    · exact h
  | probeEnd d o =>
    simp only [PmState.step]
    split
    · rename_i a hd
      have hglue : (s.binding d).glue = some a := by rw [hd]; rfl
      split
      · rename_i watched ho
        refine h.of_bind h.toOpsKept rfl (fun a' ha => ?_) fun a' => by rw [hglue]; rfl
        cases ha
        exact h.matched d a hglue
      · exact h.restore hglue
    · exact h
  | remove d closes =>
    simp only [PmState.step]
    split
    · rename_i a watched hd
      have hglue : (s.binding d).glue = some a := by rw [hd]; rfl
      split
      · exact h.restore hglue
      · exact h.stop hglue
    · exact h

theorem reachable_pmInv (as : List (PmAction D A)) :
    PmInv bus (run (PmState.step bus) (PmState.init : PmState D A V) as) :=
  run_invariant PmInv.step init_pmInv as

-- ---------------------------------------------------------------------------
-- A removal that stops
-- ---------------------------------------------------------------------------

theorem stopped_le (s : PmState D A V) (act : PmAction D A) (a : A) : s.stopped a ≤ (s.step bus act).stopped a := by
  cases act with
  | probe d a' linked =>
    simp only [PmState.step]
    split
    · split
      · rw [bind_stopped, (hijack_frame bus a' d s).2.2]
      · exact le_rfl
    · exact le_rfl
  | probeEnd d o =>
    simp only [PmState.step]
    split
    · rename_i a' hd
      split
      · exact le_rfl
      · rw [bind_stopped, (restore_frame bus a' d s).2.2]
    · exact le_rfl
  | remove d closes =>
    simp only [PmState.step]
    split
    · rename_i a' watched hd
      split
      · rw [bind_stopped, (restore_frame bus a' d s).2.2]
      · rw [bind_stopped]
        by_cases ha : a = a'
        · subst ha
          simp
        · simp [update_of_ne ha]
    · exact le_rfl

/-- The ops are never given back after a removal that stopped. -/
theorem PmInv.never_restored {s : PmState D A V} (h : PmInv bus s) {a : A} {v : V} (hm : bus.matches a v = true)
    (hpos : 0 < s.stopped a) (as : List (PmAction D A)) :
    (run (PmState.step bus) s as).pm v = some (.ioss a) := by
  have hrun : PmInv bus (run (PmState.step bus) s as) ∧ 0 < (run (PmState.step bus) s as).stopped a :=
    run_invariant (I := fun t => PmInv bus t ∧ 0 < t.stopped a)
      (fun t act ht => ⟨ht.1.step t act, ht.2.trans_le (stopped_le t act a)⟩) ⟨h, hpos⟩ as
  have := hrun.1.count a
  exact (hrun.1.taken a v hm (by omega)).1

theorem step_bound {s : PmState D A V} {act : PmAction D A} {d : D} {a : A} {watched : Bool}
    (h : s.binding d = .bound a watched) (hno : ∀ closes, act ≠ .remove d closes) :
    (s.step bus act).binding d = .bound a watched := by
  have hother {k : D} {b : Binding A} {t : PmState D A V} (hk : s.binding k ≠ .bound a watched)
      (ht : t.binding = s.binding) : (t.bind k b).binding d = .bound a watched := by
    have hd : d ≠ k := by
      rintro rfl
      exact hk h
    rw [bind_other _ _ hd, ht, h]
  cases act with
  | probe k a' linked =>
    simp only [PmState.step]
    split
    · rename_i hk
      split
      · exact hother (by simp [hk]) (hijack_frame bus a' k s).2.1
      · exact h
    · exact h
  | probeEnd k o =>
    simp only [PmState.step]
    split
    · rename_i a' hk
      split
      · exact hother (by simp [hk]) rfl
      · exact hother (by simp [hk]) (restore_frame bus a' k s).2.1
    · exact h
  | remove k closes =>
    have hd : d ≠ k := by
      rintro rfl
      exact hno closes rfl
    simp only [PmState.step]
    split
    · rename_i a' w hk
      split
      · rw [bind_other _ _ hd, (restore_frame bus a' k s).2.1, h]
      · rw [bind_other _ _ hd, h]
    · exact h

theorem run_bound {s : PmState D A V} {d : D} {a : A} {watched : Bool} (h : s.binding d = .bound a watched)
    (as : List (PmAction D A)) (hno : ∀ closes, PmAction.remove d closes ∉ as) :
    (run (PmState.step bus) s as).binding d = .bound a watched := by
  have hmeets : Meets (PmState.step bus) (fun _ act => ∀ closes, act ≠ .remove d closes) s as := by
    refine Meets.of_forall (fun act hact _ closes heq => ?_) s
    subst heq
    exact hno closes hact
  exact run_inv (I := fun t => t.binding d = .bound a watched) (fun t act ht hc => step_bound ht hc) h hmeets

variable (bus) in
/-- The next removal of the device, whenever it comes, stops early, and from then
on the ops of its driver are the glue driver's. -/
def RemovalStops (s : PmState D A V) (a : A) (d : D) : Prop :=
  ∀ (pre : List (PmAction D A)) (closes : Bool), (∀ c, PmAction.remove d c ∉ pre) →
    let t := run (PmState.step bus) s pre
    (t.step bus (.remove d closes)).stopped a = t.stopped a + 1 ∧
      ∀ post, (run (PmState.step bus) (t.step bus (.remove d closes)) post).pm (bus.driverOf d) = some (.ioss a)

theorem PmInv.removal_stops {s : PmState D A V} (h : PmInv bus s) {a : A} {d : D}
    (hd : s.binding d = .bound a false) : RemovalStops bus s a d := by
  intro pre closes hpre t
  have ht : PmInv bus t := run_invariant PmInv.step h pre
  have hbound : t.binding d = .bound a false := run_bound hd pre hpre
  have hstep : t.step bus (.remove d closes) =
      { t with stopped := update t.stopped a (t.stopped a + 1) }.bind d .unbound := by
    simp [PmState.step, hbound, iossNetUnwatchDevice]
  have hstopped : (t.step bus (.remove d closes)).stopped a = t.stopped a + 1 := by
    rw [hstep, bind_stopped]
    exact update_self ..
  refine ⟨hstopped, (ht.step t _).never_restored (ht.matched d a ?_) (by omega)⟩
  rw [hbound]
  rfl

/-- A probe that succeeds without a wakeup source leaves the netdevice unwatched. -/
theorem result_wakeupFails {o : ProbeOutcome} (hw : o.watch = .wakeupFails) (hok : o.result ≠ none) :
    o.result = some false := by
  simp only [ProbeOutcome.result, hw, iossNetWatchDevice] at hok ⊢
  split at hok
  · exact absurd rfl hok
  · split at hok
    · exact absurd rfl hok
    · split at hok
      · simp_all
      · exact absurd rfl hok

variable (bus) in
/-- In every run: a real driver has its own ops again just if no device of its
glue driver is left and no removal of one has stopped early. Until then its
ops are the glue driver's, which has the real ones. The removal of a device that
was probed without a wakeup source is one that stops. -/
theorem pm_ops_restored_iff (as : List (PmAction D A)) (a : A) (v : V) (hm : bus.matches a v = true) :
    let s := run (PmState.step bus) (PmState.init : PmState D A V) as
    (s.pm v = some (.real v) ↔ (∀ d, (s.binding d).glue ≠ some a) ∧ s.stopped a = 0) ∧
      (s.pm v ≠ some (.real v) → s.pm v = some (.ioss a) ∧ s.pmOpsReal a = some (.real v)) ∧
      ∀ d o, s.binding d = .probing a → o.watch = .wakeupFails → o.result ≠ none →
        RemovalStops bus (s.step bus (.probeEnd d o)) a d := by
  intro s
  have h : PmInv bus s := reachable_pmInv as
  have hcount := h.count a
  have hzero : s.pmRefcnt a = 0 → s.pm v = some (.real v) := by
    intro hzero
    apply h.own v
    intro a' hm'
    rw [← matches_glue hm hm', hzero]
  refine ⟨⟨fun hreal => ?_, fun ⟨hnone, hstopped⟩ => hzero ?_⟩, fun hne => h.taken a v hm fun hz => hne (hzero hz),
    fun d o hd hw hok => (h.step s _).removal_stops ?_⟩
  · have hz : s.pmRefcnt a = 0 := by
      by_contra hnz
      rw [(h.taken a v hm hnz).1] at hreal
      cases hreal
    refine ⟨fun d hd => ?_, by omega⟩
    have := holders_pos hd
    omega
  · have : holders s a = 0 := Finset.card_eq_zero.mpr (Finset.filter_eq_empty_iff.mpr fun d _ => hnone d)
    omega
  · simp [PmState.step, hd, result_wakeupFails hw hok, PmState.bind]

def r8125Bus : PmBus Bool Unit Unit where
  driverOf _ := ()
  driverName _ := "r8125"
  hasSuspend _ := true
  matchName _ := "r8125"
  driverName_inj := injective_of_subsingleton _
  matchName_inj := injective_of_subsingleton _

def noWakeupSource : List (PmAction Bool Unit) :=
  [.probe false () true, .probe true () true, .probeEnd false ⟨true, true, .wakeupFails, true⟩,
    .probeEnd true ⟨true, true, .ok, true⟩, .remove false true, .remove true true]

/-- Its probe has succeeded, so that its removal stops, and the real driver does
not get its ops back. -/
theorem pm_ops_restored_iff_no_wakeup_source :
    let s := run (PmState.step r8125Bus) .init noWakeupSource
    (∀ d, (s.binding d).glue ≠ some ()) ∧ s.pm () = some (.ioss ()) ∧
      RemovalStops r8125Bus (run (PmState.step r8125Bus) .init (noWakeupSource.take 3)) () false := by
  intro s
  have h := pm_ops_restored_iff r8125Bus noWakeupSource () () rfl
  have hprobed := pm_ops_restored_iff r8125Bus (noWakeupSource.take 2) () () rfl
  refine ⟨by decide, (h.2.1 fun hreal => ?_).1, hprobed.2.2 false ⟨true, true, .wakeupFails, true⟩ rfl rfl (by decide)⟩
  have hstopped : s.stopped () = 0 := (h.1.mp hreal).2
  exact absurd hstopped (by decide)

variable (bus) in
/-- Whatever has been probed, failed and removed, and whatever glue drivers there
are: a suspend of a device does nothing where its interface is online and its
driver's ops are hijacked, and otherwise ends at the real driver's own. Where
that has none, a suspend fails while the ops are hijacked. -/
theorem suspend_reaches_real_driver (as : List (PmAction D A)) (online : D → Bool) (d : D) :
    let s := run (PmState.step bus) (PmState.init : PmState D A V) as
    suspend bus s online d =
      if online d = true ∧ s.pm (bus.driverOf d) ≠ some (.real (bus.driverOf d)) then .nop
      else if bus.hasSuspend (bus.driverOf d) then .real (bus.driverOf d)
      else if s.pm (bus.driverOf d) ≠ some (.real (bus.driverOf d)) then .einval
      else .missing := by
  intro s
  have h : PmInv bus s := reachable_pmInv as
  by_cases htaken : ∃ a, bus.matches a (bus.driverOf d) = true ∧ s.pmRefcnt a ≠ 0
  · obtain ⟨a, hm, hcount⟩ := htaken
    obtain ⟨hpm, hreal⟩ := h.taken a _ hm hcount
    by_cases honline : online d = true <;>
      simp [suspend, iossPciSuspendHandler, iossPciRealSuspend, realPmOps, hpm, hreal, honline]
  · have hreal : s.pm (bus.driverOf d) = some (.real (bus.driverOf d)) := by
      apply h.own
      intro a hm
      by_contra hnz
      exact htaken ⟨a, hm, hnz⟩
    simp [suspend, hreal]

end

end IpaOffload.Ioss

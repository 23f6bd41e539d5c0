import Mathlib.Data.List.Nodup
import Mathlib.Logic.Function.Basic

/-!
# `load-pcie-enabler.sh`

Both scripts load a stack of modules, each only after the ones before it. One
step is one command of one run; runs may overlap, be killed and be started
again, and every command may fail. While the init function of a module runs,
`/proc/modules` has its line already (`Loading`), so that the `grep` of another
run takes it for loaded; if the function fails, the line goes again.
-/

namespace IpaOffload.Loader

open Function

-- ---------------------------------------------------------------------------
-- `/proc/modules`
-- ---------------------------------------------------------------------------

structure ProcModule where
  name : String
  info : List Char
  plain : ' ' ∉ name.toList

def ProcModule.line (m : ProcModule) : List Char := m.name.toList ++ ' ' :: m.info

/-- `grep -q "^name " /proc/modules`. -/
def grepModule (name : String) (modules : List ProcModule) : Bool :=
  modules.any fun m => (name.toList ++ [' ']).isPrefixOf m.line

theorem blank_prefix_iff {a b rest : List Char} (ha : ' ' ∉ a) (hb : ' ' ∉ b) :
    a ++ [' '] <+: b ++ ' ' :: rest ↔ a = b := by
  induction a generalizing b with
  | nil =>
    cases b with
    | nil => simp
    | cons c b =>
      have hc : ' ' ≠ c := fun h => hb (by simp [← h])
      simp [List.cons_prefix_cons, hc]
  | cons c a ih =>
    cases b with
    | nil =>
      have hc : c ≠ ' ' := fun h => ha (by simp [h])
      simp [List.cons_prefix_cons, hc]
    | cons d b =>
      simp only [List.mem_cons, not_or] at ha hb
      simp [List.cons_prefix_cons, ih ha.2 hb.2]

theorem grepModule_iff {name : String} (h : ' ' ∉ name.toList) (modules : List ProcModule) :
    grepModule name modules = true ↔ ∃ m ∈ modules, m.name = name := by
  simp only [grepModule, List.any_eq_true, List.isPrefixOf_iff_prefix, ProcModule.line]
  constructor
  · rintro ⟨m, hm, hprefix⟩
    exact ⟨m, hm, (String.toList_inj.mp ((blank_prefix_iff h m.plain).mp hprefix)).symm⟩
  · rintro ⟨m, hm, rfl⟩
    exact ⟨m, hm, (blank_prefix_iff h h).mpr rfl⟩

-- ---------------------------------------------------------------------------
-- The scripts
-- ---------------------------------------------------------------------------

structure ModuleSpec where
  name : String
  path : String
  plain : ' ' ∉ name.toList := by decide

structure Script where
  /-- Whether the address of `kallsyms_lookup_name` is looked up first. -/
  resolves : Bool
  mods : List ModuleSpec
  nodup : (mods.map ModuleSpec.name).Nodup := by decide

def nonEs : Script where
  resolves := true
  mods :=
    [{ name := "pcie_enabler_non_es_v1", path := "/moduli/pcie_enabler_non_es_v1.ko" },
      { name := "rmnet_eth", path := "/moduli/rmnet_eth.ko" },
      { name := "r8125", path := "/moduli/r8125_rebuilt.ko" },
      { name := "ioss", path := "/moduli/ioss_rebuilt.ko" },
      { name := "r8125_ioss", path := "/moduli/r8125_ioss_rebuilt.ko" }]

def es : Script where
  resolves := false
  mods :=
    [{ name := "rmnet_eth", path := "/moduli/rmnet_eth.ko" },
      { name := "r8125", path := "/moduli/r8125_rebuilt.ko" },
      { name := "ioss", path := "/moduli/ioss_rebuilt.ko" },
      { name := "r8125_ioss", path := "/moduli/r8125_ioss_rebuilt.ko" }]

/-- Where a run is; `grep`, `test` and `insmod` are the commands of `load_module`
for one module of the stack. -/
inductive Pc
  | idle
  | resolve
  | grep (i : Nat)
  | test (i : Nat)
  | insmod (i : Nat)
  | exit (code : Nat)
  | killed
  deriving DecidableEq

structure World where
  modules : List ProcModule
  files : String → Bool
  pc : Nat → Pc
  /-- The run in whose `insmod` the init function of a module runs, by the place of
  the module in the stack. -/
  owner : Nat → Option Nat

/-- What a command answers where the world does not decide it, and the rest of the
line of a new module. -/
structure Reply where
  ok : Bool
  info : List Char

/-- `/proc/modules` has a line for it. -/
def World.Loaded (s : World) (name : String) : Prop := ∃ m ∈ s.modules, m.name = name

instance (s : World) (name : String) : Decidable (s.Loaded name) :=
  inferInstanceAs (Decidable (∃ m ∈ s.modules, m.name = name))

def World.goto (s : World) (p : Nat) (pc : Pc) : World := { s with pc := update s.pc p pc }

def World.insert (s : World) (m : ModuleSpec) (info : List Char) : World :=
  { s with modules := { name := m.name, info, plain := m.plain } :: s.modules }

def World.remove (s : World) (name : String) : World := { s with modules := s.modules.filter (·.name ≠ name) }

def World.setOwner (s : World) (i : Nat) (owner : Option Nat) : World := { s with owner := update s.owner i owner }

@[simp] theorem World.goto_self (s : World) (p : Nat) (pc : Pc) : (s.goto p pc).pc p = pc := update_self _ _ _

@[simp] theorem World.goto_other (s : World) {p q : Nat} (h : q ≠ p) (pc : Pc) : (s.goto p pc).pc q = s.pc q :=
  update_of_ne h _ _

@[simp] theorem World.goto_loaded (s : World) (p : Nat) (pc : Pc) (name : String) :
    (s.goto p pc).Loaded name ↔ s.Loaded name := Iff.rfl
@[simp] theorem World.goto_owner (s : World) (p : Nat) (pc : Pc) : (s.goto p pc).owner = s.owner := rfl

@[simp] theorem World.insert_pc (s : World) (m : ModuleSpec) (info : List Char) : (s.insert m info).pc = s.pc := rfl
@[simp] theorem World.insert_owner (s : World) (m : ModuleSpec) (info : List Char) :
    (s.insert m info).owner = s.owner := rfl
@[simp] theorem World.insert_loaded (s : World) (m : ModuleSpec) (info : List Char) (name : String) :
    (s.insert m info).Loaded name ↔ m.name = name ∨ s.Loaded name := by
  simp [World.Loaded, World.insert]

@[simp] theorem World.remove_pc (s : World) (name : String) : (s.remove name).pc = s.pc := rfl
@[simp] theorem World.remove_owner (s : World) (name : String) : (s.remove name).owner = s.owner := rfl
@[simp] theorem World.remove_loaded (s : World) (name name' : String) :
    (s.remove name).Loaded name' ↔ name' ≠ name ∧ s.Loaded name' := by
  simp only [World.Loaded, World.remove, List.mem_filter, decide_eq_true_eq]
  constructor
  · rintro ⟨m, ⟨hm, hne⟩, rfl⟩
    exact ⟨hne, m, hm, rfl⟩
  · rintro ⟨hne, m, hm, rfl⟩
    exact ⟨m, ⟨hm, hne⟩, rfl⟩

@[simp] theorem World.setOwner_pc (s : World) (i : Nat) (owner : Option Nat) : (s.setOwner i owner).pc = s.pc := rfl
@[simp] theorem World.setOwner_loaded (s : World) (i : Nat) (owner : Option Nat) (name : String) :
    (s.setOwner i owner).Loaded name ↔ s.Loaded name := Iff.rfl
@[simp] theorem World.setOwner_self (s : World) (i : Nat) (owner : Option Nat) :
    (s.setOwner i owner).owner i = owner := update_self _ _ _
@[simp] theorem World.setOwner_other (s : World) {i j : Nat} (h : j ≠ i) (owner : Option Nat) :
    (s.setOwner i owner).owner j = s.owner j := update_of_ne h _ _

/-- The init function of a module has returned: it is live, or its line goes. -/
def World.initEnds (s : World) (i : Nat) (m : ModuleSpec) (ok : Bool) : World :=
  if ok then s.setOwner i none else (s.remove m.name).setOwner i none

/-- One command of run `p`. Behind the last module comes `ip link set eth0 up`,
whose answer is ignored. -/
def World.command (script : Script) (s : World) (p : Nat) (r : Reply) : World :=
  match s.pc p with
  | .idle | .exit _ | .killed => s
  | .resolve => s.goto p (if r.ok then .grep 0 else .exit 1)
  | .grep i =>
    match script.mods[i]? with
    | none => s.goto p (.exit 0)
    | some m => s.goto p (if r.ok && grepModule m.name s.modules then .grep (i + 1) else .test i)
  | .test i =>
    match script.mods[i]? with
    | none => s
    | some m => s.goto p (if s.files m.path then .insmod i else .exit 1)
  | .insmod i =>
    match script.mods[i]? with
    | none => s
    | some m =>
      if ¬ s.Loaded m.name then
        if r.ok then (s.goto p (.grep (i + 1))).insert m r.info else s.goto p (.exit 1)
      else
        match s.owner i with
        -- the kernel has no module twice
        | none => s.goto p (.exit 1)
        | some q =>
          if q = p then (s.initEnds i m r.ok).goto p (if r.ok then .grep (i + 1) else .exit 1)
          -- it waits for the other's init function, unless a signal comes
          else if r.ok then s else s.goto p (.exit 1)

inductive Action
  | start (p : Nat)
  | command (p : Nat) (r : Reply)
  /-- The module that a run inserts gets its line, and its init function begins. -/
  | init (p : Nat) (info : List Char)
  /-- The init function of a module returns after the run has been killed. -/
  | orphan (i : Nat) (ok : Bool)
  | kill (p : Nat)
  | setFiles (files : String → Bool)
  | load (m : ProcModule)
  | unload (name : String)

/-- A module whose init function runs cannot be unloaded. -/
def World.busy (script : Script) (s : World) (name : String) : Bool :=
  (List.range script.mods.length).any fun i => (s.owner i).isSome && script.mods[i]?.any (·.name = name)

def World.step (script : Script) (s : World) : Action → World
  | .start p => if s.pc p = .idle then s.goto p (if script.resolves then .resolve else .grep 0) else s
  | .command p r => s.command script p r
  | .init p info =>
    match s.pc p with
    | .insmod i =>
      match script.mods[i]? with
      | none => s
      | some m => if s.Loaded m.name then s else (s.insert m info).setOwner i (some p)
    | _ => s
  | .orphan i ok =>
    match script.mods[i]?, s.owner i with
    | some m, some p => if s.pc p = .killed then s.initEnds i m ok else s
    | _, _ => s
  | .kill p =>
    match s.pc p with
    | .idle | .exit _ => s
    | _ => s.goto p .killed
  | .setFiles files => { s with files }
  | .load m => if s.Loaded m.name then s else { s with modules := m :: s.modules }
  | .unload name => if s.busy script name then s else s.remove name

-- ---------------------------------------------------------------------------
-- What a command does
-- ---------------------------------------------------------------------------

variable {script : Script}

def Pc.Still (script : Script) : Pc → Prop
  | .idle | .exit _ | .killed => True
  | .test i | .insmod i => script.mods[i]? = none
  | _ => False

inductive Outcome (script : Script) (s : World) (p : Nat) (r : Reply) : World → Prop
  | still (hpc : (s.pc p).Still script) : Outcome script s p r s
  | resolved (hpc : s.pc p = .resolve) (hok : r.ok = true) : Outcome script s p r (s.goto p (.grep 0))
  | unresolved (hpc : s.pc p = .resolve) (hok : r.ok = false) : Outcome script s p r (s.goto p (.exit 1))
  | done {i : Nat} (hpc : s.pc p = .grep i) (hm : script.mods[i]? = none) : Outcome script s p r (s.goto p (.exit 0))
  | found {i : Nat} {m : ModuleSpec} (hpc : s.pc p = .grep i) (hm : script.mods[i]? = some m)
      (hloaded : s.Loaded m.name) :
      Outcome script s p r (s.goto p (.grep (i + 1)))
  | notFound {i : Nat} {m : ModuleSpec} (hpc : s.pc p = .grep i) (hm : script.mods[i]? = some m)
      (hloaded : r.ok = true → ¬ s.Loaded m.name) : Outcome script s p r (s.goto p (.test i))
  | present {i : Nat} {m : ModuleSpec} (hpc : s.pc p = .test i) (hm : script.mods[i]? = some m) :
      Outcome script s p r (s.goto p (.insmod i))
  | missing {i : Nat} {m : ModuleSpec} (hpc : s.pc p = .test i) (hm : script.mods[i]? = some m)
      (hfile : s.files m.path = false) : Outcome script s p r (s.goto p (.exit 1))
  | inserted {i : Nat} {m : ModuleSpec} (hpc : s.pc p = .insmod i) (hm : script.mods[i]? = some m)
      (hloaded : ¬ s.Loaded m.name) : Outcome script s p r ((s.goto p (.grep (i + 1))).insert m r.info)
  | ended {i : Nat} {m : ModuleSpec} (hpc : s.pc p = .insmod i) (hm : script.mods[i]? = some m)
      (howner : s.owner i = some p) :
      Outcome script s p r ((s.initEnds i m r.ok).goto p (if r.ok then .grep (i + 1) else .exit 1))
  | waits {i : Nat} {m : ModuleSpec} {q : Nat} (hpc : s.pc p = .insmod i) (hm : script.mods[i]? = some m)
      (hloaded : s.Loaded m.name) (howner : s.owner i = some q) (hne : q ≠ p) : Outcome script s p r s
  | refused {i : Nat} {m : ModuleSpec} (hpc : s.pc p = .insmod i) (hm : script.mods[i]? = some m)
      (hloaded : r.ok = true → s.Loaded m.name ∧ s.owner i = none) : Outcome script s p r (s.goto p (.exit 1))

theorem command_outcome (s : World) (p : Nat) (r : Reply) : Outcome script s p r (s.command script p r) := by
  unfold World.command
  split
  case h_1 hpc => exact .still (by rw [hpc]; trivial)
  case h_2 hpc => exact .still (by rw [hpc]; trivial)
  case h_3 hpc => exact .still (by rw [hpc]; trivial)
  case h_4 hpc =>
    cases hok : r.ok with
    | true => exact .resolved hpc hok
    | false => exact .unresolved hpc hok
  case h_5 i hpc =>
    split
    case h_1 hm => exact .done hpc hm
    case h_2 m hm =>
      have hgrep := grepModule_iff m.plain s.modules
      by_cases hfound : (r.ok && grepModule m.name s.modules) = true
      · rw [if_pos hfound]
        exact .found hpc hm (hgrep.mp (Bool.and_eq_true_iff.mp hfound).2)
      · rw [if_neg hfound]
        refine .notFound hpc hm fun hok hloaded => hfound ?_
        rw [hok, hgrep.mpr hloaded, Bool.and_self]
  case h_6 i hpc =>
    split
    case h_1 hm => exact .still (by rw [hpc]; exact hm)
    case h_2 m hm =>
      cases hfile : s.files m.path with
      | true => exact .present hpc hm
      | false => exact .missing hpc hm hfile
  case h_7 i hpc =>
    split
    case h_1 hm => exact .still (by rw [hpc]; exact hm)
    case h_2 m hm =>
      by_cases hloaded : s.Loaded m.name
      · rw [if_neg (not_not.mpr hloaded)]
        split
        case h_1 howner => exact .refused hpc hm fun _ => ⟨hloaded, howner⟩
        case h_2 q howner =>
          by_cases hq : q = p
          · rw [if_pos hq]
            exact .ended hpc hm (hq ▸ howner)
          · rw [if_neg hq]
            cases hok : r.ok with
            | true => exact .waits hpc hm hloaded howner hq
            | false => exact .refused hpc hm fun h => absurd (hok.symm.trans h) (by decide)
      · rw [if_pos hloaded]
        cases hok : r.ok with
        | true => exact .inserted hpc hm hloaded
        | false => exact .refused hpc hm fun h => absurd (hok.symm.trans h) (by decide)

@[simp] theorem initEnds_pc (s : World) (i : Nat) (m : ModuleSpec) (ok : Bool) : (s.initEnds i m ok).pc = s.pc := by
  cases ok <;> rfl

end IpaOffload.Loader

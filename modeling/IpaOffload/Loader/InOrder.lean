import IpaOffload.Lib.Runs
import IpaOffload.Loader.LoadModules

/-!
# The stack is loaded in order

A module is loaded only after the ones before it, in every interleaving of runs
(`InOrder`). There is one way to break this: an init function that fails after
another run has taken its module for loaded and gone on.
-/

namespace IpaOffload.Loader

open Runs Function

variable {script : Script}

def Pc.behind (n : Nat) : Pc → Nat
  | .grep i | .test i | .insmod i => i
  | .exit 0 => n
  | _ => 0

structure InOrder (script : Script) (k : Nat) (s : World) : Prop where
  bound : k ≤ script.mods.length
  loaded : ∀ (i : Nat) (m : ModuleSpec), script.mods[i]? = some m → (s.Loaded m.name ↔ i < k)
  behind : ∀ p, (s.pc p).behind script.mods.length ≤ k
  owned : ∀ i p, s.owner i = some p → i < k

/-- No run has gone on past a module, and none behind it is loaded. -/
structure Latest (script : Script) (i : Nat) (s : World) : Prop where
  behind : ∀ q, (s.pc q).behind script.mods.length ≤ i
  loaded : ∀ (j : Nat) (m : ModuleSpec), i < j → script.mods[j]? = some m → ¬ s.Loaded m.name

/-- The modules of the stack are left to the script, and an init function does not
fail once a run has gone on past its module. -/
def Undisturbed (script : Script) (s : World) : Action → Prop
  | .load m => ∀ spec ∈ script.mods, spec.name ≠ m.name
  | .unload name => ∀ spec ∈ script.mods, spec.name ≠ name
  | .command p r => ∀ i, s.pc p = .insmod i → s.owner i = some p → r.ok = false → Latest script i s
  | .orphan i ok => ∀ p, s.owner i = some p → s.pc p = .killed → ok = false → Latest script i s
  | _ => True

theorem InOrder.goto {k : Nat} {s : World} (h : InOrder script k s) (p : Nat) {pc : Pc}
    (hpc : pc.behind script.mods.length ≤ k) : InOrder script k (s.goto p pc) := by
  refine ⟨h.bound, h.loaded, fun q => ?_, h.owned⟩
  by_cases hq : q = p
  · subst hq
    simpa using hpc
  · simpa [hq] using h.behind q

theorem mods_name_inj {i j : Nat} {m m' : ModuleSpec} (hi : script.mods[i]? = some m) (hj : script.mods[j]? = some m')
    (h : m.name = m'.name) : i = j := by
  have hlt : i < (script.mods.map ModuleSpec.name).length := by
    simpa using (List.getElem?_eq_some_iff.mp hi).1
  exact (List.getElem?_inj hlt script.nodup).mp (by simp [hi, hj, h])

theorem InOrder.insert {k : Nat} {s : World} (h : InOrder script k s) {m : ModuleSpec}
    (hm : script.mods[k]? = some m) (info : List Char) : InOrder script (k + 1) (s.insert m info) := by
  refine ⟨(List.getElem?_eq_some_iff.mp hm).1, fun i m' hi => ?_, fun q => ?_, fun i p hi => ?_⟩
  · rw [World.insert_loaded, h.loaded i m' hi]
    constructor
    · rintro (hname | hlt)
      · exact Nat.lt_succ_of_le (Nat.le_of_eq (mods_name_inj hi hm hname.symm))
      · exact Nat.lt_succ_of_lt hlt
    · intro hlt
      rcases Nat.lt_succ_iff_lt_or_eq.mp hlt with hlt | rfl
      · exact .inr hlt
      · obtain rfl : m' = m := Option.some.inj (hi.symm.trans hm)
        exact .inl rfl
  · exact Nat.le_succ_of_le (h.behind q)
  · exact Nat.lt_succ_of_lt (h.owned i p hi)

theorem InOrder.setOwner {k : Nat} {s : World} (h : InOrder script k s) {i : Nat} {owner : Option Nat}
    (hi : ∀ p, owner = some p → i < k) : InOrder script k (s.setOwner i owner) := by
  refine ⟨h.bound, h.loaded, h.behind, fun j p hj => ?_⟩
  by_cases hji : j = i
  · subst hji
    exact hi p (by simpa using hj)
  · exact h.owned j p (by simpa [hji] using hj)

theorem InOrder.next {k : Nat} {s : World} (h : InOrder script k s) {p i : Nat} {m : ModuleSpec}
    (hpc : s.pc p = .insmod i) (hm : script.mods[i]? = some m) (hnot : ¬ s.Loaded m.name) : i = k := by
  have hp := h.behind p
  rw [hpc] at hp
  exact Nat.le_antisymm hp (Nat.not_lt.mp fun hlt => hnot ((h.loaded i m hm).mpr hlt))

theorem InOrder.initEnds {k : Nat} {s : World} (h : InOrder script k s) {i p : Nat} {m : ModuleSpec}
    (hm : script.mods[i]? = some m) (howner : s.owner i = some p) {ok : Bool}
    (hlatest : ok = false → Latest script i s) :
    ∃ k', (if ok then i < k' else i ≤ k') ∧ InOrder script k' (s.initEnds i m ok) := by
  have hi := h.owned i p howner
  cases ok with
  | true => exact ⟨k, hi, h.setOwner fun p hp => by cases hp⟩
  | false =>
    obtain ⟨hbehind, hlast⟩ := hlatest rfl
    -- nothing behind it is loaded, so that it is the last one
    have hk : k = i + 1 := by
      by_contra hne
      have hnext : i + 1 < script.mods.length := by
        have := h.bound
        omega
      exact hlast (i + 1) _ (by omega) (List.getElem?_eq_getElem hnext)
        ((h.loaded (i + 1) _ (List.getElem?_eq_getElem hnext)).mpr (by omega))
    have hremoved : InOrder script i ((s.remove m.name).setOwner i none) := by
      refine ⟨by have := h.bound; omega, fun j m' hj => ?_, hbehind, fun j q hj => ?_⟩
      · rw [World.setOwner_loaded, World.remove_loaded, h.loaded j m' hj]
        have hname : m'.name ≠ m.name ↔ j ≠ i := by
          refine not_congr ⟨mods_name_inj hj hm, ?_⟩
          rintro rfl
          rw [Option.some.inj (hj.symm.trans hm)]
        rw [hname]
        omega
      · by_cases hji : j = i
        · subst hji
          simp at hj
        · have := h.owned j q (by simpa [hji] using hj)
          omega
    exact ⟨i, Nat.le_refl i, hremoved⟩

theorem InOrder.command {k : Nat} {s : World} (h : InOrder script k s) (p : Nat) (r : Reply)
    (ha : Undisturbed script s (.command p r)) : ∃ k', InOrder script k' (s.command script p r) := by
  have hp := h.behind p
  have hstays : ∀ pc : Pc, pc.behind script.mods.length ≤ k → ∃ k', InOrder script k' (s.goto p pc) :=
    fun pc hpc => ⟨k, h.goto p hpc⟩
  have hout : Outcome script s p r (s.command script p r) := command_outcome s p r
  generalize s.command script p r = s' at hout ⊢
  cases hout with
  | still => exact ⟨k, h⟩
  | resolved => exact hstays _ (Nat.zero_le k)
  | unresolved => exact hstays _ (Nat.zero_le k)
  | done hpc hm =>
    rw [hpc] at hp
    exact hstays _ (Nat.le_trans (List.getElem?_eq_none_iff.mp hm) hp)
  | found hpc hm hloaded => exact hstays _ ((h.loaded _ _ hm).mp hloaded)
  | notFound hpc hm => exact hstays _ (by rwa [hpc] at hp)
  | present hpc hm => exact hstays _ (by rwa [hpc] at hp)
  | missing => exact hstays _ (Nat.zero_le k)
  | @inserted i m hpc hm hloaded =>
    obtain rfl := h.next hpc hm hloaded
    exact ⟨i + 1, (h.insert hm r.info).goto p (show (Pc.grep (i + 1)).behind _ ≤ i + 1 from Nat.le_refl _)⟩
  | @ended i m hpc hm howner =>
    obtain ⟨k', hk', horder⟩ := h.initEnds hm howner (ha i hpc howner)
    refine ⟨k', horder.goto p ?_⟩
    cases hok : r.ok with
    | true =>
      rw [hok] at hk'
      exact hk'
    | false => exact Nat.zero_le k'
  | waits => exact ⟨k, h⟩
  | refused => exact hstays _ (Nat.zero_le k)

theorem InOrder.of_modules {k : Nat} {s s' : World} (h : InOrder script k s) (hpc : s'.pc = s.pc)
    (howner : s'.owner = s.owner) (hmodules : ∀ m ∈ script.mods, (s'.Loaded m.name ↔ s.Loaded m.name)) :
    InOrder script k s' := by
  refine ⟨h.bound, fun i m hm => ?_, fun p => ?_, ?_⟩
  · rw [hmodules m (List.mem_of_getElem? hm), h.loaded i m hm]
  · rw [hpc]
    exact h.behind p
  · rw [howner]
    exact h.owned

theorem step_load (script : Script) (s : World) (m : ProcModule) :
    (s.step script (.load m)).pc = s.pc ∧ (s.step script (.load m)).owner = s.owner ∧
      (Undisturbed script s (.load m) → ∀ spec ∈ script.mods,
        ((s.step script (.load m)).Loaded spec.name ↔ s.Loaded spec.name)) := by
  rw [World.step]
  split
  · exact ⟨rfl, rfl, fun _ _ _ => Iff.rfl⟩
  · refine ⟨rfl, rfl, fun h spec hspec => ?_⟩
    simp [World.Loaded, (h spec hspec).symm]

theorem step_unload (script : Script) (s : World) (name : String) :
    (s.step script (.unload name)).pc = s.pc ∧ (s.step script (.unload name)).owner = s.owner ∧
      (Undisturbed script s (.unload name) → ∀ spec ∈ script.mods,
        ((s.step script (.unload name)).Loaded spec.name ↔ s.Loaded spec.name)) := by
  rw [World.step]
  split
  · exact ⟨rfl, rfl, fun _ _ _ => Iff.rfl⟩
  · refine ⟨rfl, rfl, fun h spec hspec => ?_⟩
    rw [World.remove_loaded]
    exact and_iff_right (h spec hspec)

theorem InOrder.init {k : Nat} {s : World} (h : InOrder script k s) (p : Nat) (info : List Char) :
    ∃ k', InOrder script k' (s.step script (.init p info)) := by
  rw [World.step]
  split
  case h_2 => exact ⟨k, h⟩
  case h_1 i hpc =>
    split
    case h_1 => exact ⟨k, h⟩
    case h_2 m hm =>
      split
      case isTrue => exact ⟨k, h⟩
      case isFalse hloaded =>
        obtain rfl := h.next hpc hm hloaded
        exact ⟨i + 1, (h.insert hm info).setOwner fun _ _ => Nat.lt_succ_self i⟩

theorem InOrder.orphan {k : Nat} {s : World} (h : InOrder script k s) {i : Nat} {ok : Bool}
    (ha : Undisturbed script s (.orphan i ok)) : ∃ k', InOrder script k' (s.step script (.orphan i ok)) := by
  rw [World.step]
  split
  case h_2 => exact ⟨k, h⟩
  case h_1 m p hm howner =>
    split
    case isTrue hpc =>
      obtain ⟨k', -, horder⟩ := h.initEnds hm howner (ha p howner hpc)
      exact ⟨k', horder⟩
    case isFalse => exact ⟨k, h⟩

theorem InOrder.step {k : Nat} {s : World} (h : InOrder script k s) {a : Action} (ha : Undisturbed script s a) :
    ∃ k', InOrder script k' (s.step script a) := by
  cases a with
  | command p r => exact h.command p r ha
  | init p info => exact h.init p info
  | orphan i ok => exact h.orphan ha
  | start p =>
    refine ⟨k, ?_⟩
    rw [World.step]
    split
    · refine h.goto p ?_
      split <;> exact Nat.zero_le k
    · exact h
  | kill p =>
    refine ⟨k, ?_⟩
    rw [World.step]
    split
    · exact h
    · exact h
    · exact h.goto p (Nat.zero_le k)
  | setFiles files => exact ⟨k, h.bound, h.loaded, h.behind, h.owned⟩
  | load m =>
    obtain ⟨hpc, howner, hmodules⟩ := step_load script s m
    exact ⟨k, h.of_modules hpc howner (hmodules ha)⟩
  | unload name =>
    obtain ⟨hpc, howner, hmodules⟩ := step_unload script s name
    exact ⟨k, h.of_modules hpc howner (hmodules ha)⟩

structure AtBoot (script : Script) (s : World) : Prop where
  loaded : ∀ m ∈ script.mods, ¬ s.Loaded m.name
  pc : ∀ p, s.pc p = .idle
  owner : ∀ i, s.owner i = none

theorem AtBoot.inOrder {s : World} (h : AtBoot script s) : InOrder script 0 s := by
  refine ⟨Nat.zero_le _, fun i m hm => ?_, fun p => ?_, fun i p hi => ?_⟩
  · simpa using h.loaded m (List.mem_of_getElem? hm)
  · rw [h.pc p]
    exact Nat.le_refl 0
  · rw [h.owner i] at hi
    cases hi

theorem run_inOrder {s : World} (h : AtBoot script s) {as : List Action}
    (has : Meets (World.step script) (Undisturbed script) s as) :
    ∃ k, InOrder script k (run (World.step script) s as) := by
  refine run_inv (I := fun s => ∃ k, InOrder script k s) ?_ ⟨0, h.inOrder⟩ has
  rintro s a ⟨k, hk⟩ ha
  exact hk.step ha

theorem InOrder.all_loaded {k : Nat} {s : World} (h : InOrder script k s) {p : Nat} (hp : s.pc p = .exit 0) :
    ∀ m ∈ script.mods, s.Loaded m.name := by
  intro m hm
  obtain ⟨i, hi⟩ := List.getElem?_of_mem hm
  have hall : script.mods.length ≤ k := by
    have hbehind := h.behind p
    rwa [hp] at hbehind
  exact (h.loaded i m hi).mpr (Nat.lt_of_lt_of_le (List.getElem?_eq_some_iff.mp hi).1 hall)

/-- However runs overlap, fail and are killed, what is loaded is always an initial
part of the stack, and once a run has exited with 0 it is all of it: as long as
no init function fails after a run has gone on past its module. -/
theorem stack_loads_in_order {s : World} (hboot : AtBoot script s) {as : List Action}
    (has : Meets (World.step script) (Undisturbed script) s as) :
    let s' := run (World.step script) s as
    (∃ k, ∀ (i : Nat) (m : ModuleSpec), script.mods[i]? = some m → (s'.Loaded m.name ↔ i < k)) ∧
      ∀ p, s'.pc p = .exit 0 → ∀ m ∈ script.mods, s'.Loaded m.name := by
  intro s'
  obtain ⟨k, hk⟩ := run_inOrder hboot has
  exact ⟨⟨k, hk.loaded⟩, fun p hp => hk.all_loaded hp⟩

def booted : World where
  modules := []
  files _ := true
  pc _ := .idle
  owner _ := none

theorem booted_atBoot : AtBoot script booted where
  loaded _ _ h := by
    obtain ⟨m, hm, -⟩ := h
    cases hm
  pc _ := rfl
  owner _ := rfl

def does (p : Nat) : Action := .command p { ok := true, info := [] }

def Easy : Action → Prop
  | .load _ | .unload _ | .orphan .. => False
  | .command _ r => r.ok = true
  | _ => True

theorem Easy.undisturbed {a : Action} (h : Easy a) (s : World) : Undisturbed script s a := by
  cases a with
  | command p r => exact fun _ _ _ hno => absurd (h.symm.trans hno) (by decide)
  | load m => exact h.elim
  | unload name => exact h.elim
  | orphan i ok => exact h.elim
  | _ => trivial

/-- Run 1 goes on while the first module's init function still runs in run 0, and is
killed in the second one's, which fails. Run 0 loads the second module anew, and
the others. -/
theorem stack_loads_in_order_two_runs :
    let before := [.start 0, .start 1, does 0, does 1, does 0, does 0, .init 0 [], does 1, does 1, does 1, does 0,
      .init 1 [], .kill 1]
    let s := run (World.step nonEs) booted (before ++ .orphan 1 false :: List.replicate 13 (does 0))
    s.pc 0 = .exit 0 ∧ ∀ m ∈ nonEs.mods, s.Loaded m.name := by
  intro before s
  have hexit : s.pc 0 = .exit 0 := by decide
  have hlatest : Latest nonEs 1 (run (World.step nonEs) booted before) := by
    constructor
    · rintro (_ | _ | q)
      · decide
      · decide
      · exact Nat.zero_le _
    · intro j m hj hm
      have hnone : ∀ j, j < 5 → 1 < j → ∀ m ∈ nonEs.mods[j]?,
          ¬ (run (World.step nonEs) booted before).Loaded m.name := by decide
      exact hnone j (List.getElem?_eq_some_iff.mp hm).1 hj m hm
  have hmeets : Meets (World.step nonEs) (Undisturbed nonEs) booted
      (before ++ .orphan 1 false :: List.replicate 13 (does 0)) := by
    refine Meets.of_append (Meets.of_forall (fun a ha s => ?_) _)
      ⟨fun _ _ _ _ => hlatest, Meets.of_forall (fun a ha s => ?_) _⟩
    · refine Easy.undisturbed ?_ s
      revert a
      simp [before, does, Easy]
    · rw [List.eq_of_mem_replicate ha]
      exact Easy.undisturbed (a := does 0) rfl s
  exact ⟨hexit, (stack_loads_in_order booted_atBoot hmeets).2 0 hexit⟩

/-- An init function that fails too late: the run that took the module for loaded
has exited with 0. -/
example :
    let s := run (World.step es) booted ([.start 0, does 0, does 0, .init 0 [], .start 1] ++
      List.replicate 11 (does 1) ++ [.command 0 { ok := false, info := [] }])
    s.pc 1 = .exit 0 ∧ ¬ s.Loaded "rmnet_eth" := by
  decide

end IpaOffload.Loader

import IpaOffload.Loader.InOrder

/-!
# Runs that get to the end

Of overlapping runs that nothing fails for, some lose a module to another
between their check and their `insmod`, and end with 1. One of them gets to the
end all the same, and so does any run that is on its own.
-/

namespace IpaOffload.Loader

open Runs Function

variable {script : Script}

/-- A run that nothing has gone wrong for: it has not given up, and no one else
has the module that it is about to load. -/
def World.Hopeful (script : Script) (s : World) (p : Nat) : Prop :=
  match s.pc p with
  | .resolve | .grep _ => True
  | .test i => ∃ m, script.mods[i]? = some m ∧ ¬ s.Loaded m.name
  | .insmod i => ∃ m, script.mods[i]? = some m ∧ (¬ s.Loaded m.name ∨ s.owner i = some p)
  | .exit code => code = 0
  | _ => False

theorem hopeful_grep {s : World} {p i : Nat} (hpc : s.pc p = .grep i) : s.Hopeful script p := by
  unfold World.Hopeful
  rw [hpc]
  trivial

theorem World.Hopeful.at_test {s : World} {p i : Nat} (h : s.Hopeful script p) (hpc : s.pc p = .test i) :
    ∃ m, script.mods[i]? = some m ∧ ¬ s.Loaded m.name := by
  unfold World.Hopeful at h
  rwa [hpc] at h

theorem World.Hopeful.at_insmod {s : World} {p i : Nat} {m : ModuleSpec} (h : s.Hopeful script p)
    (hpc : s.pc p = .insmod i) (hm : script.mods[i]? = some m) : ¬ s.Loaded m.name ∨ s.owner i = some p := by
  unfold World.Hopeful at h
  rw [hpc] at h
  obtain ⟨m', hm', hor⟩ := h
  rwa [Option.some.inj (hm.symm.trans hm')]

theorem World.Hopeful.still {s : World} {p : Nat} (h : s.Hopeful script p) (hstill : (s.pc p).Still script) :
    s.pc p = .exit 0 := by
  unfold World.Hopeful at h
  revert h hstill
  cases s.pc p with
  | exit code => exact fun h _ => by rw [show code = 0 from h]
  | test i => exact fun ⟨m, hm, _⟩ hstill => absurd (hm.symm.trans hstill) (by simp)
  | insmod i => exact fun ⟨m, hm, _⟩ hstill => absurd (hm.symm.trans hstill) (by simp)
  | idle => exact fun h _ => h.elim
  | killed => exact fun h _ => h.elim
  | resolve => exact fun _ hstill => hstill.elim
  | grep i => exact fun _ hstill => hstill.elim

def FilesPresent (script : Script) (files : String → Bool) : Prop := ∀ m ∈ script.mods, files m.path = true

inductive Advance (script : Script) (s : World) (p : Nat) (r : Reply) : World → Prop
  | done (hpc : s.pc p = .exit 0) : Advance script s p r s
  | resolved (hpc : s.pc p = .resolve) : Advance script s p r (s.goto p (.grep 0))
  | ended {i : Nat} (hpc : s.pc p = .grep i) (hm : script.mods[i]? = none) : Advance script s p r (s.goto p (.exit 0))
  | found {i : Nat} {m : ModuleSpec} (hpc : s.pc p = .grep i) (hm : script.mods[i]? = some m)
      (hloaded : s.Loaded m.name) :
      Advance script s p r (s.goto p (.grep (i + 1)))
  | notFound {i : Nat} {m : ModuleSpec} (hpc : s.pc p = .grep i) (hm : script.mods[i]? = some m)
      (hloaded : ¬ s.Loaded m.name) : Advance script s p r (s.goto p (.test i))
  | present {i : Nat} {m : ModuleSpec} (hpc : s.pc p = .test i) (hm : script.mods[i]? = some m)
      (hloaded : ¬ s.Loaded m.name) : Advance script s p r (s.goto p (.insmod i))
  | inserted {i : Nat} {m : ModuleSpec} (hpc : s.pc p = .insmod i) (hm : script.mods[i]? = some m)
      (hloaded : ¬ s.Loaded m.name) : Advance script s p r ((s.goto p (.grep (i + 1))).insert m r.info)
  | live {i : Nat} {m : ModuleSpec} (hpc : s.pc p = .insmod i) (hm : script.mods[i]? = some m)
      (howner : s.owner i = some p) : Advance script s p r ((s.setOwner i none).goto p (.grep (i + 1)))

theorem World.Hopeful.advance {s : World} {p : Nat} (h : s.Hopeful script p) (hfiles : FilesPresent script s.files)
    {r : Reply} (hr : r.ok = true) : Advance script s p r (s.command script p r) := by
  have hout : Outcome script s p r (s.command script p r) := command_outcome s p r
  generalize s.command script p r = s' at hout ⊢
  cases hout with
  | still hpc => exact .done (h.still hpc)
  | resolved hpc => exact .resolved hpc
  | unresolved _ hok => exact absurd (hr.symm.trans hok) (by decide)
  | done hpc hm => exact .ended hpc hm
  | found hpc hm hloaded => exact .found hpc hm hloaded
  | notFound hpc hm hloaded => exact .notFound hpc hm (hloaded hr)
  | present hpc hm =>
    obtain ⟨m', hm', hnot⟩ := h.at_test hpc
    exact .present hpc hm' hnot
  | missing _ hm hfile => exact absurd ((hfiles _ (List.mem_of_getElem? hm)).symm.trans hfile) (by decide)
  | inserted hpc hm hloaded => exact .inserted hpc hm hloaded
  | ended hpc hm howner =>
    rw [hr]
    exact .live hpc hm howner
  | waits hpc hm hloaded howner hne =>
    rcases h.at_insmod hpc hm with hnot | hown
    · exact absurd hloaded hnot
    · exact absurd (Option.some.inj (howner.symm.trans hown)) hne
  | refused hpc hm hloaded =>
    rcases h.at_insmod hpc hm with hnot | hown
    · exact absurd (hloaded hr).1 hnot
    · rw [(hloaded hr).2] at hown
      cases hown

theorem World.Hopeful.command {s : World} {p : Nat} (h : s.Hopeful script p) (hfiles : FilesPresent script s.files)
    {r : Reply} (hr : r.ok = true) : (s.command script p r).Hopeful script p := by
  have hadv := h.advance hfiles hr
  generalize s.command script p r = s' at hadv ⊢
  cases hadv with
  | done => exact h
  | resolved => exact hopeful_grep (World.goto_self ..)
  | found => exact hopeful_grep (World.goto_self ..)
  | inserted => exact hopeful_grep (World.goto_self ..)
  | live => exact hopeful_grep (World.goto_self ..)
  | ended => simp [World.Hopeful]
  | notFound _ hm hloaded => simp [World.Hopeful, hm, hloaded]
  | present _ hm hloaded => simp [World.Hopeful, hm, hloaded]

-- ---------------------------------------------------------------------------
-- Where nothing fails
-- ---------------------------------------------------------------------------

def Fine (script : Script) : Action → Prop
  | .command _ r => r.ok = true
  | .orphan _ ok => ok = true
  | .kill _ => False
  | .setFiles files => FilesPresent script files
  | .load m => ∀ spec ∈ script.mods, spec.name ≠ m.name
  | .unload name => ∀ spec ∈ script.mods, spec.name ≠ name
  | _ => True

theorem Fine.undisturbed {a : Action} (h : Fine script a) (s : World) : Undisturbed script s a := by
  cases a with
  | command p r => exact fun _ _ _ hno => absurd (h.symm.trans hno) (by decide)
  | orphan i ok => exact fun _ _ _ hno => absurd (h.symm.trans hno) (by decide)
  | load m => exact h
  | unload name => exact h
  | _ => trivial

theorem World.Hopeful.of_same {s s' : World} {p : Nat} (h : s.Hopeful script p) (hpc : s'.pc p = s.pc p)
    (howner : s'.owner = s.owner) (hmodules : ∀ m ∈ script.mods, (s'.Loaded m.name ↔ s.Loaded m.name)) :
    s'.Hopeful script p := by
  unfold World.Hopeful at h ⊢
  rw [hpc]
  revert h
  cases s.pc p with
  | test i =>
    rintro ⟨m, hm, hnot⟩
    exact ⟨m, hm, fun hloaded => hnot ((hmodules m (List.mem_of_getElem? hm)).mp hloaded)⟩
  | insmod i =>
    rintro ⟨m, hm, hor⟩
    rw [howner]
    exact ⟨m, hm, hor.imp_left fun hnot hloaded => hnot ((hmodules m (List.mem_of_getElem? hm)).mp hloaded)⟩
  | _ => exact id

theorem World.Hopeful.goto_other {s : World} {p q : Nat} (h : s.Hopeful script p) (hne : p ≠ q) (pc : Pc) :
    (s.goto q pc).Hopeful script p :=
  h.of_same (World.goto_other s hne pc) rfl fun _ _ => Iff.rfl

/-- A run that loses the module it was about to load loses it to one that goes on. -/
theorem World.Hopeful.other {s : World} {p q : Nat} (h : s.Hopeful script p) (hne : p ≠ q) {r : Reply}
    (hr : r.ok = true) : (s.command script q r).Hopeful script p ∨ (s.command script q r).Hopeful script q := by
  have hout : Outcome script s q r (s.command script q r) := command_outcome s q r
  generalize s.command script q r = s' at hout ⊢
  cases hout with
  | still => exact .inl h
  | waits => exact .inl h
  | inserted => exact .inr (hopeful_grep (World.goto_self ..))
  | ended =>
    rw [hr]
    exact .inr (hopeful_grep (World.goto_self ..))
  | _ => exact .inl (h.goto_other hne _)

/-- Every module whose init function runs has its line and a run that waits. -/
def Attended (script : Script) (s : World) : Prop :=
  ∀ i p, s.owner i = some p → s.pc p = .insmod i ∧ ∃ m, script.mods[i]? = some m ∧ s.Loaded m.name

theorem Attended.of_same {s s' : World} (h : Attended script s) (hpc : s'.pc = s.pc) (howner : s'.owner = s.owner)
    (hmodules : ∀ m ∈ script.mods, (s'.Loaded m.name ↔ s.Loaded m.name)) : Attended script s' := by
  intro i p hi
  rw [howner] at hi
  obtain ⟨hp, m, hm, hloaded⟩ := h i p hi
  exact ⟨by rw [hpc, hp], m, hm, (hmodules m (List.mem_of_getElem? hm)).mpr hloaded⟩

/-- A run that waits for no init function may go anywhere. -/
theorem Attended.goto {s : World} (h : Attended script s) {p : Nat} (hp : ∀ i, s.owner i ≠ some p) (pc : Pc) :
    Attended script (s.goto p pc) := by
  intro i q hi
  have hq : q ≠ p := by
    rintro rfl
    exact hp i hi
  rw [World.goto_other s hq]
  exact h i q hi

theorem Attended.not_owner {s : World} (h : Attended script s) {p : Nat} (hpc : ∀ i, s.pc p ≠ .insmod i) (i : Nat) :
    s.owner i ≠ some p := fun hi => hpc i (h i p hi).1

theorem Attended.command {s : World} (h : Attended script s) (p : Nat) {r : Reply} (hr : r.ok = true) :
    Attended script (s.command script p r) := by
  have hout : Outcome script s p r (s.command script p r) := command_outcome s p r
  generalize s.command script p r = s' at hout ⊢
  -- where its pc is no `insmod`, no init function runs for it
  have hfree {pc' : Pc} (hpc : ∀ i, s.pc p ≠ .insmod i) : Attended script (s.goto p pc') := h.goto (h.not_owner hpc) pc'
  cases hout with
  | still => exact h
  | waits => exact h
  | resolved hpc => exact hfree (by simp [hpc])
  | unresolved hpc => exact hfree (by simp [hpc])
  | done hpc => exact hfree (by simp [hpc])
  | found hpc => exact hfree (by simp [hpc])
  | notFound hpc => exact hfree (by simp [hpc])
  | present hpc => exact hfree (by simp [hpc])
  | missing hpc => exact hfree (by simp [hpc])
  | @inserted i m hpc hm hloaded =>
    have hnone : ∀ j, s.owner j ≠ some p := by
      intro j hj
      obtain ⟨hpc', m', hm', hloaded'⟩ := h j p hj
      obtain rfl : i = j := Pc.insmod.inj (hpc.symm.trans hpc')
      obtain rfl := Option.some.inj (hm.symm.trans hm')
      exact hloaded hloaded'
    intro j q hj
    obtain ⟨hpc', m', hm', hloaded'⟩ := h.goto hnone (.grep (i + 1)) j q hj
    exact ⟨hpc', m', hm', (World.insert_loaded ..).mpr (.inr hloaded')⟩
  | @ended i m hpc hm howner =>
    rw [hr]
    intro j q hj
    have hji : j ≠ i := by
      rintro rfl
      simp [World.initEnds] at hj
    have hj' : s.owner j = some q := by simpa [World.initEnds, hji] using hj
    obtain ⟨hpc', hloaded'⟩ := h j q hj'
    have hq : q ≠ p := by
      rintro rfl
      exact hji (Pc.insmod.inj (hpc'.symm.trans hpc))
    exact ⟨by rw [World.goto_other _ hq]; exact hpc', hloaded'⟩
  | @refused i m hpc hm hloaded =>
    refine h.goto (fun j hj => ?_) _
    obtain rfl : i = j := Pc.insmod.inj (hpc.symm.trans (h j p hj).1)
    rw [(hloaded hr).2] at hj
    cases hj

theorem command_files (s : World) (p : Nat) (r : Reply) : (s.command script p r).files = s.files := by
  have hout : Outcome script s p r (s.command script p r) := command_outcome s p r
  generalize s.command script p r = s' at hout ⊢
  cases hout with
  | ended => cases r.ok <;> rfl
  | _ => rfl

def AnyHope (script : Script) (s : World) : Prop := ∃ p, s.Hopeful script p

structure Underway (script : Script) (s : World) : Prop where
  files : FilesPresent script s.files
  attended : Attended script s

theorem init_cases (script : Script) (s : World) (p : Nat) (info : List Char) :
    s.step script (.init p info) = s ∨
      ∃ i m, s.pc p = .insmod i ∧ script.mods[i]? = some m ∧ ¬ s.Loaded m.name ∧
        s.step script (.init p info) = (s.insert m info).setOwner i (some p) := by
  rw [World.step]
  split
  case h_2 => exact .inl rfl
  case h_1 i hpc =>
    split
    case h_1 => exact .inl rfl
    case h_2 m hm =>
      split
      case isTrue => exact .inl rfl
      case isFalse hloaded => exact .inr ⟨i, m, hpc, hm, hloaded, rfl⟩

theorem Attended.orphan {s : World} (h : Attended script s) (i : Nat) (ok : Bool) :
    s.step script (.orphan i ok) = s := by
  rw [World.step]
  split
  case h_2 => rfl
  case h_1 m p hm howner =>
    rw [if_neg]
    rw [(h i p howner).1]
    simp

theorem Underway.step {s : World} (h : Underway script s) {a : Action} (ha : Fine script a) :
    Underway script (s.step script a) := by
  cases a with
  | command p r => exact ⟨by rw [World.step, command_files]; exact h.files, h.attended.command p ha⟩
  | kill p => exact ha.elim
  | orphan i ok => rwa [h.attended.orphan i ok]
  | setFiles files => exact ⟨ha, h.attended⟩
  | start p =>
    rw [World.step]
    split
    case isTrue hidle => exact ⟨h.files, h.attended.goto (h.attended.not_owner (by simp [hidle])) _⟩
    case isFalse => exact h
  | init p info =>
    rcases init_cases script s p info with hsame | ⟨i, m, hpc, hm, hloaded, hstep⟩
    · rwa [hsame]
    rw [hstep]
    refine ⟨h.files, fun j q hj => ?_⟩
    by_cases hji : j = i
    · subst hji
      obtain rfl : p = q := by simpa using hj
      exact ⟨hpc, m, hm, (World.insert_loaded ..).mpr (.inl rfl)⟩
    · obtain ⟨hpc', m', hm', hloaded'⟩ := h.attended j q (by simpa [hji] using hj)
      exact ⟨hpc', m', hm', (World.insert_loaded ..).mpr (.inr hloaded')⟩
  | load m =>
    obtain ⟨hpc, howner, hmodules⟩ := step_load script s m
    refine ⟨?_, h.attended.of_same hpc howner (hmodules ha)⟩
    rw [World.step]
    split <;> exact h.files
  | unload name =>
    obtain ⟨hpc, howner, hmodules⟩ := step_unload script s name
    refine ⟨?_, h.attended.of_same hpc howner (hmodules ha)⟩
    rw [World.step]
    split <;> exact h.files

theorem AnyHope.step {s : World} (h : AnyHope script s) (hunder : Underway script s) {a : Action}
    (ha : Fine script a) : AnyHope script (s.step script a) := by
  obtain ⟨p, hp⟩ := h
  cases a with
  | command q r =>
    by_cases hq : p = q
    · subst hq
      exact ⟨p, hp.command hunder.files ha⟩
    · exact (hp.other hq ha).elim (⟨p, ·⟩) (⟨q, ·⟩)
  | init q info =>
    rcases init_cases script s q info with hsame | ⟨i, m, hpc, hm, -, hstep⟩
    · exact ⟨p, by rwa [hsame]⟩
    · refine ⟨q, ?_⟩
      rw [hstep]
      simp [World.Hopeful, hpc, hm]
  | start q =>
    refine ⟨p, ?_⟩
    rw [World.step]
    split
    case isTrue hidle =>
      refine hp.goto_other ?_ _
      rintro rfl
      simp [World.Hopeful, hidle] at hp
    case isFalse => exact hp
  | kill q => exact ha.elim
  | orphan i ok => exact ⟨p, by rwa [hunder.attended.orphan i ok]⟩
  | setFiles files => exact ⟨p, hp⟩
  | load m =>
    obtain ⟨hpc, howner, hmodules⟩ := step_load script s m
    exact ⟨p, hp.of_same (congrFun hpc p) howner (hmodules ha)⟩
  | unload name =>
    obtain ⟨hpc, howner, hmodules⟩ := step_unload script s name
    exact ⟨p, hp.of_same (congrFun hpc p) howner (hmodules ha)⟩

theorem start_hope {s : World} {p : Nat} (h : s.pc p = .idle) : (s.step script (.start p)).Hopeful script p := by
  rw [World.step, if_pos h, World.Hopeful, World.goto_self]
  cases script.resolves <;> exact trivial

theorem idle_step {s : World} (h : ∀ p, s.pc p = .idle) (hunder : Underway script s) {a : Action}
    (ha : Fine script a) : AnyHope script (s.step script a) ∨ ∀ p, (s.step script a).pc p = .idle := by
  cases a with
  | start p => exact .inl ⟨p, start_hope (h p)⟩
  | command p r =>
    right
    have hsame : s.command script p r = s := by
      unfold World.command
      rw [h p]
    rwa [World.step, hsame]
  | init p info =>
    right
    rwa [World.step, h p]
  | orphan i ok => exact .inr (by rwa [hunder.attended.orphan i ok])
  | kill p => exact ha.elim
  | setFiles files => exact .inr h
  | load m =>
    right
    rwa [(step_load script s m).1]
  | unload name =>
    right
    rwa [(step_unload script s name).1]

theorem run_underway {s : World} (h : Underway script s) {as : List Action} (has : ∀ a ∈ as, Fine script a) :
    Underway script (run (World.step script) s as) :=
  run_inv (fun _ _ hs ha => hs.step ha) h (Meets.of_forall (fun a ha _ => has a ha) s)

theorem run_hope {s : World} (h : Underway script s) (hidle : ∀ p, s.pc p = .idle) {as : List Action}
    (has : ∀ a ∈ as, Fine script a) (hstart : ∃ p, .start p ∈ as) : AnyHope script (run (World.step script) s as) := by
  obtain ⟨p, hp⟩ := hstart
  obtain ⟨pre, post, rfl⟩ := List.append_of_mem hp
  have hmeets : ∀ as' : List Action, (∀ a ∈ as', a ∈ pre ++ .start p :: post) → ∀ s',
      Meets (World.step script) (fun _ a => Fine script a) s' as' :=
    fun as' hsub => Meets.of_forall fun a ha _ => has a (hsub a ha)
  have hpre : Underway script (run (World.step script) s pre) ∧
      (AnyHope script (run (World.step script) s pre) ∨ ∀ q, (run (World.step script) s pre).pc q = .idle) := by
    refine run_inv (I := fun s => Underway script s ∧ (AnyHope script s ∨ ∀ q, s.pc q = .idle)) ?_ ⟨h, .inr hidle⟩
      (hmeets pre (by simp +contextual) s)
    rintro s a ⟨hs, hope | hidle⟩ ha
    · exact ⟨hs.step ha, .inl (hope.step hs ha)⟩
    · exact ⟨hs.step ha, idle_step hidle hs ha⟩
  have hstarted : AnyHope script ((run (World.step script) s pre).step script (.start p)) := by
    rcases hpre.2 with hope | hidle
    · exact hope.step hpre.1 trivial
    · exact ⟨p, start_hope (hidle p)⟩
  rw [run_append]
  have hpost := run_inv (I := fun s => Underway script s ∧ AnyHope script s) (C := fun _ a => Fine script a)
    (fun s a hs ha => ⟨hs.1.step ha, hs.2.step hs.1 ha⟩) ⟨hpre.1.step (a := .start p) trivial, hstarted⟩
    (hmeets post (by simp +contextual) _)
  exact hpost.2

/-- Where nothing fails, one of any number of overlapping runs loads the stack: once
all have ended, one of them has exited with 0, and everything is loaded and
live. -/
theorem some_run_loads_stack {s : World} (hboot : AtBoot script s) (hfiles : FilesPresent script s.files)
    {as : List Action} (has : ∀ a ∈ as, Fine script a) (hstart : ∃ p, .start p ∈ as)
    (hended : ∀ p, (run (World.step script) s as).pc p = .idle ∨
      ∃ code, (run (World.step script) s as).pc p = .exit code) :
    let s' := run (World.step script) s as
    (∃ p, s'.pc p = .exit 0) ∧ (∀ m ∈ script.mods, s'.Loaded m.name) ∧ ∀ i, s'.owner i = none := by
  intro s'
  have hstarts : Underway script s := ⟨hfiles, fun i p hi => by rw [hboot.owner i] at hi; cases hi⟩
  obtain ⟨p, hp⟩ := run_hope hstarts hboot.pc has hstart
  obtain ⟨k, hk⟩ := run_inOrder hboot (Meets.of_forall (fun a ha s => (has a ha).undisturbed s) s)
  have hexit : s'.pc p = .exit 0 := by
    unfold World.Hopeful at hp
    rcases hended p with hidle | ⟨code, hcode⟩
    · rw [hidle] at hp
      exact hp.elim
    · rw [hcode] at hp
      rw [hcode, show code = 0 from hp]
  refine ⟨⟨p, hexit⟩, hk.all_loaded hexit, fun i => ?_⟩
  cases howner : s'.owner i with
  | none => rfl
  | some q =>
    have hq : s'.pc q = .insmod i := ((run_underway hstarts has).attended i q howner).1
    rcases hended q with hidle | ⟨code, hcode⟩
    · exact absurd (hidle.symm.trans hq) (by simp)
    · exact absurd (hcode.symm.trans hq) (by simp)

/-- Two runs at once: the second one loses the first module. -/
theorem some_run_loads_stack_two_runs :
    let as := [.start 0, .start 1, does 0, does 1, does 0, does 1, .init 0 [], does 1, does 0, does 1] ++
      List.replicate 10 (does 0)
    let s := run (World.step es) booted as
    s.pc 1 = .exit 1 ∧ ∀ m ∈ es.mods, s.Loaded m.name := by
  intro as s
  refine ⟨by decide, (some_run_loads_stack booted_atBoot (fun _ _ => rfl) ?_ ⟨0, by simp [as]⟩ ?_).2.1⟩
  · simp [as, does, Fine]
  · rintro (_ | _ | p)
    · exact .inr ⟨0, by decide⟩
    · exact .inr ⟨1, by decide⟩
    · exact .inl rfl

-- ---------------------------------------------------------------------------
-- Starting again
-- ---------------------------------------------------------------------------

def Pc.rank (n : Nat) : Pc → Nat
  | .resolve => 3 * n + 2
  | .grep i => 3 * (n - i) + 1
  | .test i => 3 * (n - i)
  | .insmod i => 3 * (n - i) - 1
  | _ => 0

theorem World.Hopeful.ended {s : World} {p : Nat} (h : s.Hopeful script p)
    (hrank : (s.pc p).rank script.mods.length = 0) : s.pc p = .exit 0 := by
  have hlt : ∀ {i : Nat} {m : ModuleSpec}, script.mods[i]? = some m → i < script.mods.length :=
    fun hm => (List.getElem?_eq_some_iff.mp hm).1
  unfold World.Hopeful at h
  revert h hrank
  cases s.pc p with
  | exit code => exact fun h _ => by rw [show code = 0 from h]
  | test i =>
    rintro ⟨m, hm, -⟩ hrank
    have := hlt hm
    simp only [Pc.rank] at hrank
    omega
  | insmod i =>
    rintro ⟨m, hm, -⟩ hrank
    have := hlt hm
    simp only [Pc.rank] at hrank
    omega
  | idle => exact fun h _ => h.elim
  | killed => exact fun h _ => h.elim
  | resolve => exact fun _ hrank => by simp [Pc.rank] at hrank
  | grep i => exact fun _ hrank => by simp [Pc.rank] at hrank

theorem World.Hopeful.rank_command {s : World} {p : Nat} (h : s.Hopeful script p)
    (hfiles : FilesPresent script s.files) {r : Reply} (hr : r.ok = true) :
    ((s.command script p r).pc p).rank script.mods.length ≤ (s.pc p).rank script.mods.length - 1 := by
  have hadv := h.advance hfiles hr
  generalize s.command script p r = s' at hadv ⊢
  have hlt : ∀ {i : Nat} {m : ModuleSpec}, script.mods[i]? = some m → i < script.mods.length :=
    fun hm => (List.getElem?_eq_some_iff.mp hm).1
  cases hadv with
  | done hpc =>
    rw [hpc]
    exact Nat.le_refl 0
  | resolved hpc => simp [hpc, Pc.rank]
  | ended => simp [Pc.rank]
  | found hpc hm =>
    have := hlt hm
    simp only [World.goto_self, hpc, Pc.rank]
    omega
  | notFound hpc => simp [hpc, Pc.rank]
  | present hpc => simp [hpc, Pc.rank]
  | inserted hpc hm =>
    have := hlt hm
    simp only [World.insert_pc, World.goto_self, hpc, Pc.rank]
    omega
  | live hpc hm =>
    have := hlt hm
    simp only [World.goto_self, hpc, Pc.rank]
    omega

/-- The modules that a run has behind it are loaded, it waits for no init function,
and none runs that did not run at its start, in `s0`. -/
structure Behind (script : Script) (s0 : World) (p : Nat) (s : World) : Prop where
  loaded : ∀ (j : Nat) (m : ModuleSpec), j < (s.pc p).behind script.mods.length → script.mods[j]? = some m →
    s.Loaded m.name
  free : ∀ i, s.owner i ≠ some p
  owner : ∀ i, s0.owner i = none → s.owner i = none

theorem Behind.command {s0 s : World} {p : Nat} (h : Behind script s0 p s) (hhope : s.Hopeful script p)
    (hfiles : FilesPresent script s.files) {r : Reply} (hr : r.ok = true) :
    Behind script s0 p (s.command script p r) := by
  have hadv := hhope.advance hfiles hr
  generalize s.command script p r = s' at hadv ⊢
  have hbefore := h.loaded
  -- it gets past one module at a time
  have hnext {i : Nat} {m : ModuleSpec} {s' : World} (hm : script.mods[i]? = some m)
      (hi : ∀ j m', j < i → script.mods[j]? = some m' → s'.Loaded m'.name) (hloaded : s'.Loaded m.name) :
      ∀ j m', j < i + 1 → script.mods[j]? = some m' → s'.Loaded m'.name := by
    intro j m' hj hm'
    rcases Nat.lt_succ_iff_lt_or_eq.mp hj with hj | rfl
    · exact hi j m' hj hm'
    · rwa [Option.some.inj (hm'.symm.trans hm)]
  cases hadv with
  | done => exact h
  | resolved => exact ⟨fun j m hj => absurd hj (by simp [Pc.behind]), h.free, h.owner⟩
  | ended hpc hm =>
    rw [hpc] at hbefore
    refine ⟨fun j m hj hm' => hbefore j m ?_ hm', h.free, h.owner⟩
    exact Nat.lt_of_lt_of_le (List.getElem?_eq_some_iff.mp hm').1 (List.getElem?_eq_none_iff.mp hm)
  | found hpc hm hloaded =>
    rw [hpc] at hbefore
    refine ⟨?_, h.free, h.owner⟩
    rw [World.goto_self]
    exact hnext hm hbefore hloaded
  | notFound hpc =>
    rw [hpc] at hbefore
    exact ⟨by rw [World.goto_self]; exact hbefore, h.free, h.owner⟩
  | present hpc =>
    rw [hpc] at hbefore
    exact ⟨by rw [World.goto_self]; exact hbefore, h.free, h.owner⟩
  | inserted hpc hm =>
    rw [hpc] at hbefore
    refine ⟨?_, h.free, h.owner⟩
    rw [World.insert_pc, World.goto_self]
    refine hnext hm (fun j m' hj hm' => ?_) ((World.insert_loaded ..).mpr (.inl rfl))
    exact (World.insert_loaded ..).mpr (.inr (hbefore j m' hj hm'))
  | live hpc hm howner => exact absurd howner (h.free _)

theorem run_alone {s0 s : World} {p : Nat} (h : s.Hopeful script p) (hbehind : Behind script s0 p s)
    (hfiles : FilesPresent script s.files) {replies : List Reply} (hok : ∀ r ∈ replies, r.ok = true) :
    let s' := run (World.step script) s (replies.map (.command p))
    s'.Hopeful script p ∧ Behind script s0 p s' ∧
      (s'.pc p).rank script.mods.length ≤ (s.pc p).rank script.mods.length - replies.length := by
  induction replies generalizing s with
  | nil => exact ⟨h, hbehind, Nat.le_refl _⟩
  | cons r replies ih =>
    have hr : r.ok = true := hok r (by simp)
    obtain ⟨hhope, hloaded, hrank⟩ := ih (h.command hfiles hr) (hbehind.command h hfiles hr) (by rwa [command_files])
      fun r' hr' => hok r' (by simp [hr'])
    refine ⟨hhope, hloaded, Nat.le_trans hrank ?_⟩
    have := h.rank_command hfiles hr
    simp only [List.length_cons]
    omega

def OwnersRan (s : World) : Prop := ∀ i p, s.owner i = some p → s.pc p ≠ .idle

theorem OwnersRan.goto {s : World} (h : OwnersRan s) (p : Nat) {pc : Pc} (hpc : pc ≠ .idle) :
    OwnersRan (s.goto p pc) := by
  intro i q hi
  by_cases hq : q = p
  · subst hq
    simpa using hpc
  · rw [World.goto_other s hq]
    exact h i q hi

theorem OwnersRan.initEnds {s : World} (h : OwnersRan s) (i : Nat) (m : ModuleSpec) (ok : Bool) :
    OwnersRan (s.initEnds i m ok) := by
  intro j q hj
  have hji : j ≠ i := by
    rintro rfl
    cases ok <;> simp [World.initEnds] at hj
  have hj' : s.owner j = some q := by
    cases ok <;> simpa [World.initEnds, hji] using hj
  cases ok <;> exact h j q hj'

theorem OwnersRan.step {s : World} (h : OwnersRan s) (a : Action) : OwnersRan (s.step script a) := by
  cases a with
  | command p r =>
    have hout : Outcome script s p r (s.command script p r) := command_outcome s p r
    rw [World.step]
    generalize s.command script p r = s' at hout ⊢
    cases hout with
    | still => exact h
    | waits => exact h
    | inserted => exact h.goto p (by simp)
    | ended => exact (h.initEnds _ _ _).goto p (by split <;> simp)
    | _ => exact h.goto p (by simp)
  | start p =>
    rw [World.step]
    split
    · exact h.goto p (by split <;> simp)
    · exact h
  | init p info =>
    rcases init_cases script s p info with hsame | ⟨i, m, hpc, hm, -, hstep⟩
    · rwa [hsame]
    rw [hstep]
    intro j q hj
    by_cases hji : j = i
    · subst hji
      obtain rfl : p = q := by simpa using hj
      simp [hpc]
    · exact h j q (by simpa [hji] using hj)
  | orphan i ok =>
    rw [World.step]
    split
    · split
      · exact h.initEnds _ _ _
      · exact h
    · exact h
  | kill p =>
    rw [World.step]
    split
    · exact h
    · exact h
    · exact h.goto p (by simp)
  | setFiles files => exact h
  | load m => rwa [OwnersRan, (step_load script s m).1, (step_load script s m).2.1]
  | unload name => rwa [OwnersRan, (step_unload script s name).1, (step_unload script s name).2.1]

/-- After any runs that overlapped, failed or were killed: a new run that nothing
fails for completes the stack. It leaves no init function running that did not
run before. -/
theorem restart_completes_stack {s : World} (hboot : AtBoot script s) {as : List Action} {p : Nat}
    (hidle : (run (World.step script) s as).pc p = .idle)
    (hfiles : FilesPresent script (run (World.step script) s as).files) {replies : List Reply}
    (hok : ∀ r ∈ replies, r.ok = true) (hlong : 3 * script.mods.length + 2 ≤ replies.length) :
    let s' := run (World.step script) s (as ++ .start p :: replies.map (.command p))
    s'.pc p = .exit 0 ∧ (∀ m ∈ script.mods, s'.Loaded m.name) ∧
      ∀ i, (run (World.step script) s as).owner i = none → s'.owner i = none := by
  intro s'
  have howners : OwnersRan (run (World.step script) s as) :=
    run_invariant (fun _ a h => h.step a) (fun i p hi => by rw [hboot.owner i] at hi; cases hi) as
  let s1 := (run (World.step script) s as).goto p (if script.resolves then .resolve else .grep 0)
  have hstart : (run (World.step script) s as).step script (.start p) = s1 := by rw [World.step, if_pos hidle]
  have hpc : s1.pc p = if script.resolves then .resolve else .grep 0 := World.goto_self _ _ _
  have hhope : s1.Hopeful script p := hstart ▸ start_hope hidle
  have hbehind : Behind script (run (World.step script) s as) p s1 := by
    refine ⟨fun j m hj => ?_, fun i hi => howners i p hi hidle, fun _ => id⟩
    rw [hpc] at hj
    cases hresolves : script.resolves <;> simp [hresolves, Pc.behind] at hj
  have hrank : (s1.pc p).rank script.mods.length ≤ 3 * script.mods.length + 2 := by
    rw [hpc]
    cases script.resolves <;> simp [Pc.rank]
  have hrun : s' = run (World.step script) s1 (replies.map (.command p)) := by
    rw [← hstart]
    exact run_append s as _
  have halone := run_alone hhope hbehind hfiles hok
  rw [← hrun] at halone
  obtain ⟨hhope', hbehind', hrank'⟩ := halone
  have hexit : s'.pc p = .exit 0 := hhope'.ended (by omega)
  refine ⟨hexit, fun m hm => ?_, hbehind'.owner⟩
  obtain ⟨i, hi⟩ := List.getElem?_of_mem hm
  refine hbehind'.loaded i m ?_ hi
  rw [hexit]
  exact (List.getElem?_eq_some_iff.mp hi).1

/-- The first run was killed while its second module was being loaded, and that
failed. -/
theorem restart_completes_stack_after_kill :
    let first := [.start 0, does 0, does 0, does 0, does 0, does 0, .init 0 [], .kill 0, .orphan 1 false]
    let again := (List.replicate 14 ({ ok := true, info := [] } : Reply)).map (.command 1)
    (run (World.step es) booted first).Loaded "rmnet_eth" ∧
      ∀ m ∈ es.mods, (run (World.step es) booted (first ++ .start 1 :: again)).Loaded m.name := by
  intro first again
  exact ⟨by decide, (restart_completes_stack booted_atBoot rfl (fun _ _ => rfl) (by simp) (by decide)).2.1⟩

end IpaOffload.Loader

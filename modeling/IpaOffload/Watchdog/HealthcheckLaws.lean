import IpaOffload.Watchdog.Healthcheck

/-!
# What the watchdog does to the stack

The lock keeps the runs apart, whatever order they step in. So what a run saw
of a unit and what it then does to it stand side by side in the journal. A run
that is killed inside keeps the lock for good, and with it every later run
from the stack.
-/

namespace IpaOffload.Watchdog

open Function Runs

-- ---------------------------------------------------------------------------
-- The control flow of a run
-- ---------------------------------------------------------------------------

section
variable (i : Nat) (units : SystemdUnit → UnitState)

inductive Moves : Pc → Bool → List (Nat × Event) → Pc → Bool → List (Nat × Event) → Prop
  | enter {j} : Moves .mkdir false j .boundLog true j
  | busy {j} : Moves .mkdir true j .exited true j
  | boundLog {l j} : Moves .boundLog l j .daemonReload l j
  | daemonReload {l j} : Moves .daemonReload l j (.next restartUnits) l ((i, .daemonReload) :: j)
  | healthy {l j u us} (h : isOk (units u) = true) :
      Moves (.check u us) l j (.next us) l ((i, .saw u (units u)) :: j)
  | unhealthy {l j u us} (h : isOk (units u) = false) :
      Moves (.check u us) l j (.logRestart u us) l ((i, .saw u (units u)) :: j)
  | logRestart {l j u us} : Moves (.logRestart u us) l j (.resetFailed u us) l j
  | resetFailed {l j u us} : Moves (.resetFailed u us) l j (.restart u us) l ((i, .resetFailed u) :: j)
  | restart {l j u us} : Moves (.restart u us) l j (.next us) l ((i, .restart u) :: j)
  | timerHealthy {l j} (h : isOk (units .dedupeTimer) = true) :
      Moves .checkTimer l j .dedupe l ((i, .saw .dedupeTimer (units .dedupeTimer)) :: j)
  | timerUnhealthy {l j} (h : isOk (units .dedupeTimer) = false) :
      Moves .checkTimer l j .logStart l ((i, .saw .dedupeTimer (units .dedupeTimer)) :: j)
  | logStart {l j} : Moves .logStart l j .enable l j
  | enable {l j} : Moves .enable l j .start l ((i, .enable .dedupeTimer) :: j)
  | start {l j} : Moves .start l j .dedupe l ((i, .start .dedupeTimer) :: j)
  | dedupeChanged {l j} : Moves .dedupe l j .postCheck l ((i, .dedupe) :: j)
  | dedupeUnchanged {l j} : Moves .dedupe l j .trapExit l ((i, .dedupe) :: j)
  | postCheck {l j} : Moves .postCheck l j .trapExit l j
  | trapExit {l j} : Moves .trapExit l j .exited false j
  | exited {l j} : Moves .exited l j .exited l j
  | killed {l j b} : Moves (.killed b) l j (.killed b) l j

end

theorem exec_moves (w : World) (i : Nat) (r : Reply) :
    Moves i w.units (w.procs i).pc w.lock w.journal ((exec w i r).procs i).pc (exec w i r).lock
      (exec w i r).journal := by
  unfold exec
  cases hpc : (w.procs i).pc with
  | mkdir =>
    cases hlock : w.lock with
    | false => simpa [World.goto] using .enter
    | true => simpa [World.goto, hlock] using .busy
  | boundLog => simpa [World.goto] using .boundLog
  | daemonReload => simpa [World.goto, World.note, World.obey] using .daemonReload
  | check u us =>
    cases hok : isOk (w.units u) with
    | true => simpa [World.goto, World.note, hok] using .healthy hok
    | false => simpa [World.goto, World.note, hok] using .unhealthy hok
  | logRestart u us => simpa [World.goto, World.say] using .logRestart
  | resetFailed u us => simpa [World.goto, World.note, World.obey] using .resetFailed
  | restart u us =>
    by_cases hrc : r.rc = 0
    · simpa [World.goto, World.note, World.obey, World.print, World.setChanged, hrc] using .restart
    · simpa [World.goto, World.note, World.obey, World.print, World.setChanged, World.say, hrc] using .restart
  | checkTimer =>
    cases hok : isOk (w.units .dedupeTimer) with
    | true => simpa [World.goto, World.note, hok] using .timerHealthy hok
    | false => simpa [World.goto, World.note, hok] using .timerUnhealthy hok
  | logStart => simpa [World.goto, World.say] using .logStart
  | enable => simpa [World.goto, World.note, World.obey] using .enable
  | start => simpa [World.goto, World.note, World.obey, World.print, World.setChanged] using .start
  | dedupe =>
    cases hchanged : (w.procs i).changed with
    | true => simpa [World.goto, World.note, World.print, hchanged] using .dedupeChanged
    | false => simpa [World.goto, World.note, World.print, hchanged] using .dedupeUnchanged
  | postCheck => simpa [World.goto, World.say] using .postCheck
  | trapExit => simpa [World.goto] using .trapExit
  | exited => simpa [hpc] using .exited
  | killed b => simpa [hpc] using .killed

theorem exec_procs_ne (w : World) {i k : Nat} (r : Reply) (hk : k ≠ i) : (exec w i r).procs k = w.procs k := by
  unfold exec
  cases (w.procs i).pc <;>
    simp only [World.goto, World.note, World.obey, World.print, World.setChanged, World.say, update_of_ne hk] <;>
    split <;> simp only [update_of_ne hk]

-- ---------------------------------------------------------------------------
-- The lock
-- ---------------------------------------------------------------------------

/-- The directory is there just if a run has made it and not removed it, and
that run is the only one. -/
structure Exclusive (w : World) : Prop where
  lock : w.lock = true ↔ ∃ i, (w.procs i).pc.holds = true
  alone : ∀ i k, (w.procs i).pc.holds = true → (w.procs k).pc.holds = true → i = k

theorem boot_exclusive (units : SystemdUnit → UnitState) (log : Log) : Exclusive (boot units log) where
  lock := by simp [boot, Pc.holds]
  alone i k hi := by cases hi

theorem Moves.lock {i : Nat} {units : SystemdUnit → UnitState} {pc pc' : Pc} {l l' : Bool}
    {j j' : List (Nat × Event)} (h : Moves i units pc l j pc' l' j') :
    (pc.holds = false ∧ l = false ∧ pc'.holds = true ∧ l' = true) ∨
    (pc.holds = true ∧ pc'.holds = false ∧ l' = false) ∨
    (pc'.holds = pc.holds ∧ l' = l) := by
  cases h with
  | enter => exact .inl ⟨rfl, rfl, rfl, rfl⟩
  | trapExit => exact .inr (.inl ⟨rfl, rfl, rfl⟩)
  | @daemonReload | @healthy _ _ _ us _ | @restart _ _ _ us => exact .inr (.inr ⟨by first | rfl | cases us <;> rfl, rfl⟩)
  | _ => exact .inr (.inr ⟨rfl, rfl⟩)

theorem Exclusive.of_lock {w w' : World} {i : Nat} (hx : Exclusive w) (hne : ∀ k, k ≠ i → w'.procs k = w.procs k)
    (h : ((w.procs i).pc.holds = false ∧ w.lock = false ∧ (w'.procs i).pc.holds = true ∧ w'.lock = true) ∨
      ((w.procs i).pc.holds = true ∧ (w'.procs i).pc.holds = false ∧ w'.lock = false) ∨
      ((w'.procs i).pc.holds = (w.procs i).pc.holds ∧ w'.lock = w.lock)) : Exclusive w' := by
  rcases h with ⟨-, hfree, hin, htaken⟩ | ⟨hin, hout, hfree⟩ | ⟨hholds, hlock⟩
  · -- nobody was inside
    have hnone : ∀ k, (w.procs k).pc.holds ≠ true := by
      intro k hk
      rw [hx.lock.mpr ⟨k, hk⟩] at hfree
      cases hfree
    have honly : ∀ k, (w'.procs k).pc.holds = true → k = i := by
      intro k hk
      by_contra hki
      rw [hne k hki] at hk
      exact hnone k hk
    refine ⟨⟨fun _ => ⟨i, hin⟩, fun _ => htaken⟩, fun k m hk hm => ?_⟩
    rw [honly k hk, honly m hm]
  · have hnone : ∀ k, (w'.procs k).pc.holds ≠ true := by
      intro k hk
      by_cases hki : k = i
      · rw [hki, hout] at hk
        cases hk
      · rw [hne k hki] at hk
        exact hki (hx.alone k i hk hin)
    refine ⟨⟨fun hl => ?_, fun ⟨k, hk⟩ => absurd hk (hnone k)⟩, fun k m hk => absurd hk (hnone k)⟩
    rw [hfree] at hl
    cases hl
  · have hsame : ∀ k, (w'.procs k).pc.holds = (w.procs k).pc.holds := by
      intro k
      by_cases hki : k = i
      · rw [hki, hholds]
      · rw [hne k hki]
    constructor
    · simpa only [hlock, hsame] using hx.lock
    · simpa only [hsame] using hx.alone

theorem kill_procs (w : World) (i : Nat) :
    (kill w i).lock = w.lock ∧ (kill w i).journal = w.journal ∧ (∀ k, k ≠ i → (kill w i).procs k = w.procs k) ∧
      ((kill w i).procs i).pc.holds = (w.procs i).pc.holds := by
  unfold kill
  split
  · exact ⟨rfl, rfl, fun _ _ => rfl, rfl⟩
  · refine ⟨rfl, rfl, fun k hk => update_of_ne hk .., ?_⟩
    simp only [World.goto, update_self, Pc.holds]

theorem step_exclusive (w : World) (a : Action) (hx : Exclusive w) : Exclusive (step w a) := by
  cases a with
  | run i r => exact hx.of_lock (fun k hk => exec_procs_ne w r hk) (exec_moves w i r).lock
  | kill i =>
    obtain ⟨hlock, -, hne, hholds⟩ := kill_procs w i
    exact hx.of_lock hne (.inr (.inr ⟨hholds, hlock⟩))
  | happen units => exact ⟨hx.lock, hx.alone⟩

theorem reachable_exclusive (units : SystemdUnit → UnitState) (log : Log) (as : List Action) :
    Exclusive (run step (boot units log) as) :=
  run_invariant step_exclusive (boot_exclusive units log) as

-- ---------------------------------------------------------------------------
-- The journal
-- ---------------------------------------------------------------------------

/-- Run `i` has just seen `u` in a state it does not take for healthy, and has
since done `es`, the last one first. Nothing else stands between. -/
def SawBad (i : Nat) (u : SystemdUnit) (es : List Event) (journal : List (Nat × Event)) : Prop :=
  ∃ state old, isOk state = false ∧ journal = es.map (i, ·) ++ (i, .saw u state) :: old

def Backed (i : Nat) : Event → List (Nat × Event) → Prop
  | .resetFailed u, before => SawBad i u [] before
  | .restart u, before => SawBad i u [.resetFailed u] before
  | .enable u, before => SawBad i u [] before
  | .start u, before => SawBad i u [.enable u] before
  | .saw _ _, _ | .daemonReload, _ | .dedupe, _ => True

def AllBacked (journal : List (Nat × Event)) : Prop :=
  ∀ after i e before, journal = after ++ (i, e) :: before → Backed i e before

theorem allBacked_cons {i : Nat} {e : Event} {journal : List (Nat × Event)} (h : AllBacked journal)
    (he : Backed i e journal) : AllBacked ((i, e) :: journal) := by
  intro after k e' before heq
  cases after with
  | nil =>
    cases heq
    exact he
  | cons a after =>
    cases heq
    exact h after k e' before rfl

def AtBody (i : Nat) : Pc → List (Nat × Event) → Prop
  | .logRestart u _, journal | .resetFailed u _, journal => SawBad i u [] journal
  | .restart u _, journal => SawBad i u [.resetFailed u] journal
  | .logStart, journal | .enable, journal => SawBad i .dedupeTimer [] journal
  | .start, journal => SawBad i .dedupeTimer [.enable .dedupeTimer] journal
  | _, _ => True

theorem atBody_of_not_holds {i : Nat} {pc : Pc} {journal : List (Nat × Event)} (h : pc.holds = false) :
    AtBody i pc journal := by
  cases pc <;> trivial

theorem atBody_next (i : Nat) (us : List SystemdUnit) (journal : List (Nat × Event)) :
    AtBody i (.next us) journal := by
  cases us <;> trivial

section
variable {i : Nat} {units : SystemdUnit → UnitState} {pc pc' : Pc} {l l' : Bool} {j j' : List (Nat × Event)}

theorem Moves.atBody (h : Moves i units pc l j pc' l' j') (hb : AtBody i pc j) : AtBody i pc' j' := by
  cases h with
  | daemonReload | healthy | restart => exact atBody_next ..
  | unhealthy hok | timerUnhealthy hok => exact ⟨_, _, hok, rfl⟩
  | logRestart | logStart => exact hb
  | resetFailed | enable =>
    obtain ⟨state, old, hok, rfl⟩ := hb
    exact ⟨state, old, hok, rfl⟩
  | _ => trivial

theorem Moves.allBacked (h : Moves i units pc l j pc' l' j') (hb : AtBody i pc j) (ha : AllBacked j) :
    AllBacked j' := by
  cases h with
  | daemonReload | healthy | unhealthy | timerHealthy | timerUnhealthy | dedupeChanged | dedupeUnchanged =>
    exact allBacked_cons ha trivial
  | resetFailed | restart | enable | start => exact allBacked_cons ha hb
  | _ => exact ha

/-- Only a run inside writes to the journal. -/
theorem Moves.journal (h : Moves i units pc l j pc' l' j') : j' = j ∨ pc.holds = true ∧ ∃ e, j' = (i, e) :: j := by
  cases h with
  | daemonReload | healthy | unhealthy | resetFailed | restart | timerHealthy | timerUnhealthy | enable | start
  | dedupeChanged | dedupeUnchanged => exact .inr ⟨rfl, _, rfl⟩
  | _ => exact .inl rfl

end

-- ---------------------------------------------------------------------------
-- The units a run acts on
-- ---------------------------------------------------------------------------

def Event.target : Event → Option SystemdUnit
  | .restart u | .start u => some u
  | _ => none

def actedOn (i : Nat) (journal : List (Nat × Event)) : List SystemdUnit :=
  journal.reverse.filterMap fun entry => if entry.1 = i then entry.2.target else none

theorem actedOn_cons_self (i : Nat) (e : Event) (journal : List (Nat × Event)) :
    actedOn i ((i, e) :: journal) = actedOn i journal ++ e.target.toList := by
  cases h : e.target <;> simp [actedOn, List.filterMap_append, h]

theorem actedOn_cons_ne {i k : Nat} (hk : k ≠ i) (e : Event) (journal : List (Nat × Event)) :
    actedOn k ((i, e) :: journal) = actedOn k journal := by
  simp [actedOn, List.filterMap_append, hk.symm]

def allUnits : List SystemdUnit := restartUnits ++ [.dedupeTimer]

def Pc.ahead : Pc → List SystemdUnit
  | .mkdir | .boundLog | .daemonReload => allUnits
  | .check u us | .logRestart u us | .resetFailed u us | .restart u us => u :: us ++ [.dedupeTimer]
  | .checkTimer | .logStart | .enable | .start => [.dedupeTimer]
  | .dedupe | .postCheck | .trapExit | .exited | .killed _ => []

theorem ahead_next (us : List SystemdUnit) : (Pc.next us).ahead = us ++ [.dedupeTimer] := by
  cases us <;> rfl

/-- A command takes the unit it acts on from the ones ahead. -/
theorem Moves.ahead {i : Nat} {units : SystemdUnit → UnitState} {pc pc' : Pc} {l l' : Bool}
    {j j' : List (Nat × Event)} (h : Moves i units pc l j pc' l' j') :
    (actedOn i j' ++ pc'.ahead).Sublist (actedOn i j ++ pc.ahead) := by
  cases h with
  | daemonReload | healthy | restart =>
    rw [ahead_next]
    simp [actedOn_cons_self, Event.target, Pc.ahead, allUnits]
  | _ => simp [actedOn_cons_self, Event.target, Pc.ahead]

theorem kill_pc (w : World) (i k : Nat) :
    ((kill w i).procs k).pc = (w.procs k).pc ∨ ∃ b, ((kill w i).procs k).pc = .killed b := by
  by_cases hk : k = i
  · subst hk
    unfold kill
    split
    · exact .inl rfl
    · exact .inr ⟨(w.procs k).pc.holds, by simp only [World.goto, update_self]⟩
  · obtain ⟨-, -, hne, -⟩ := kill_procs w i
    exact .inl (by rw [hne k hk])

theorem kill_ahead (w : World) (i k : Nat) :
    ((kill w i).procs k).pc.ahead.Sublist (w.procs k).pc.ahead ∧
      (AtBody k (w.procs k).pc w.journal → AtBody k ((kill w i).procs k).pc w.journal) := by
  rcases kill_pc w i k with hpc | ⟨b, hpc⟩
  · rw [hpc]
    exact ⟨List.Sublist.refl _, id⟩
  · rw [hpc]
    exact ⟨List.nil_sublist _, fun _ => trivial⟩

-- ---------------------------------------------------------------------------
-- Whole runs
-- ---------------------------------------------------------------------------

structure Conservative (w : World) : Prop where
  exclusive : Exclusive w
  backed : AllBacked w.journal
  body : ∀ i, AtBody i (w.procs i).pc w.journal
  ahead : ∀ i, (actedOn i w.journal ++ (w.procs i).pc.ahead).Sublist allUnits

theorem boot_conservative (units : SystemdUnit → UnitState) (log : Log) : Conservative (boot units log) where
  exclusive := boot_exclusive units log
  backed after i e before h := by simp [boot] at h
  body i := trivial
  ahead i := List.Sublist.refl _

theorem exec_atBody_ne {w : World} {i k : Nat} (r : Reply) (hc : Conservative w) (hk : k ≠ i) :
    AtBody k (w.procs k).pc (exec w i r).journal := by
  rcases (exec_moves w i r).journal with hj | ⟨hholds, -⟩
  · rw [hj]
    exact hc.body k
  · apply atBody_of_not_holds
    by_contra hin
    exact hk (hc.exclusive.alone k i (by simpa using hin) hholds)

theorem actedOn_exec_ne {w : World} {i k : Nat} (r : Reply) (hk : k ≠ i) :
    actedOn k (exec w i r).journal = actedOn k w.journal := by
  rcases (exec_moves w i r).journal with hj | ⟨-, e, hj⟩
  · rw [hj]
  · rw [hj, actedOn_cons_ne hk]

theorem exec_conservative (w : World) (i : Nat) (r : Reply) (hc : Conservative w) : Conservative (exec w i r) where
  exclusive := step_exclusive w (.run i r) hc.exclusive
  backed := (exec_moves w i r).allBacked (hc.body i) hc.backed
  body k := by
    by_cases hk : k = i
    · subst hk
      exact (exec_moves w k r).atBody (hc.body k)
    · rw [exec_procs_ne w r hk]
      exact exec_atBody_ne r hc hk
  ahead k := by
    by_cases hk : k = i
    · subst hk
      exact (exec_moves w k r).ahead.trans (hc.ahead k)
    · rw [exec_procs_ne w r hk, actedOn_exec_ne r hk]
      exact hc.ahead k

theorem step_conservative (w : World) (a : Action) (hc : Conservative w) : Conservative (step w a) := by
  cases a with
  | run i r => exact exec_conservative w i r hc
  | kill i =>
    obtain ⟨-, hjournal, -, -⟩ := kill_procs w i
    refine ⟨step_exclusive w (.kill i) hc.exclusive, ?_, fun k => ?_, fun k => ?_⟩ <;>
      simp only [step, hjournal]
    · exact hc.backed
    · exact (kill_ahead w i k).2 (hc.body k)
    · exact ((List.Sublist.refl _).append (kill_ahead w i k).1).trans (hc.ahead k)
  | happen units => exact ⟨⟨hc.exclusive.lock, hc.exclusive.alone⟩, hc.backed, hc.body, hc.ahead⟩

theorem reachable_conservative (units : SystemdUnit → UnitState) (log : Log) (as : List Action) :
    Conservative (run step (boot units log) as) :=
  run_invariant step_conservative (boot_conservative units log) as

/-- Whatever order the runs step in, and whichever of them are killed: a run
does something to a unit only right after it has itself seen the unit not
healthy, no other run in between, and to each unit at most once, in the
script's order. -/
theorem acts_on_what_it_saw (units : SystemdUnit → UnitState) (log : Log) (as : List Action) :
    (∀ after i e before, (run step (boot units log) as).journal = after ++ (i, e) :: before → Backed i e before) ∧
      ∀ i, (actedOn i (run step (boot units log) as).journal).Sublist (restartUnits ++ [.dedupeTimer]) := by
  have hc := reachable_conservative units log as
  refine ⟨hc.backed, fun i => ?_⟩
  exact (List.sublist_append_left _ _).trans (hc.ahead i)

-- ---------------------------------------------------------------------------
-- A run that was killed
-- ---------------------------------------------------------------------------

structure Dead (journal : List (Nat × Event)) (w : World) : Prop where
  lock : w.lock = true
  journal : w.journal = journal
  outside : ∀ k, (w.procs k).pc.holds = true → (w.procs k).pc = .killed true

theorem Moves.dead {i : Nat} {units : SystemdUnit → UnitState} {pc pc' : Pc} {l' : Bool} {j j' : List (Nat × Event)}
    (h : Moves i units pc true j pc' l' j') (hout : pc.holds = true → pc = .killed true) :
    l' = true ∧ j' = j ∧ (pc'.holds = true → pc' = .killed true) := by
  cases h with
  | busy => exact ⟨rfl, rfl, fun hb => by cases hb⟩
  | exited | killed => exact ⟨rfl, rfl, hout⟩
  | _ => cases hout rfl

theorem step_dead {journal : List (Nat × Event)} (w : World) (a : Action) (hd : Dead journal w) :
    Dead journal (step w a) := by
  cases a with
  | run i r =>
    have hmoves := exec_moves w i r
    rw [hd.lock] at hmoves
    obtain ⟨hlock, hj, hout⟩ := hmoves.dead (hd.outside i)
    refine ⟨hlock, hj.trans hd.journal, fun k hk => ?_⟩
    by_cases hki : k = i
    · subst hki
      exact hout hk
    · simp only [step, exec_procs_ne w r hki] at hk ⊢
      exact hd.outside k hk
  | kill i =>
    obtain ⟨hlock, hjournal, hne, hholds⟩ := kill_procs w i
    refine ⟨hlock.trans hd.lock, hjournal.trans hd.journal, fun k hk => ?_⟩
    by_cases hki : k = i
    · subst hki
      have hpc := hd.outside k (hholds ▸ hk)
      simp only [step, kill, hpc, World.goto, update_self, Pc.holds]
    · simp only [step, hne k hki] at hk ⊢
      exact hd.outside k hk
  | happen units => exact ⟨hd.lock, hd.journal, hd.outside⟩

theorem kill_dead {w : World} {i : Nat} (hx : Exclusive w) (hin : (w.procs i).pc.holds = true) :
    Dead w.journal (kill w i) := by
  obtain ⟨hlock, hjournal, hne, -⟩ := kill_procs w i
  refine ⟨hlock.trans (hx.lock.mpr ⟨i, hin⟩), hjournal, fun k hk => ?_⟩
  by_cases hki : k = i
  · subst hki
    unfold kill
    split
    · rename_i hexited
      rw [hexited] at hin
      cases hin
    · simp only [World.goto, update_self, hin]
  · rw [hne k hki] at hk
    exact (hki (hx.alone k i hk hin)).elim

/-- A run killed between its `mkdir` and its trap ends the watchdog: whatever
runs come after it, none asks anything of systemd again. -/
theorem killed_inside_ends_watchdog (units : SystemdUnit → UnitState) (log : Log) (as bs : List Action) (i : Nat)
    (hin : ((run step (boot units log) as).procs i).pc.holds = true) :
    (run step (boot units log) (as ++ .kill i :: bs)).journal = (run step (boot units log) as).journal ∧
      (run step (boot units log) (as ++ .kill i :: bs)).lock = true := by
  rw [run_append]
  have hdead := run_invariant step_dead (kill_dead (reachable_exclusive units log as) hin) bs
  exact ⟨hdead.journal, hdead.lock⟩

def quietReply (units : SystemdUnit → UnitState) : Reply where
  units := units
  rc := 0
  output := []
  date := ""

/-- The first run is killed when it has restarted a unit; the second one finds
the directory, with every unit still down. -/
theorem killed_inside_ends_watchdog_after_restart :
    let reply := quietReply fun _ => .failed
    let w := boot (fun _ => .failed) []
    let as := List.replicate 7 (Action.run 0 reply)
    (run step w as).journal =
        [(0, .restart .pcieEnabler), (0, .resetFailed .pcieEnabler), (0, .saw .pcieEnabler .failed),
          (0, .daemonReload)] ∧
      (run step w (as ++ .kill 0 :: [.run 1 reply, .run 1 reply])).journal = (run step w as).journal ∧
      (run step w (as ++ .kill 0 :: [.run 1 reply, .run 1 reply])).lock = true :=
  ⟨rfl, killed_inside_ends_watchdog _ _ _ [.run 1 _, .run 1 _] 0 rfl⟩

end IpaOffload.Watchdog

import IpaOffload.Watchdog.HealthcheckLaws

/-!
# Recovery

Where a restart brings its unit up and nothing else breaks, a run that got the
lock and is left to finish leaves the whole stack healthy, and from then on no
run touches a unit.
-/

namespace IpaOffload.Watchdog

open Function Runs

-- ---------------------------------------------------------------------------
-- The end of a run
-- ---------------------------------------------------------------------------

def Pc.rank : Pc → Nat
  | .mkdir => 34
  | .boundLog => 33
  | .daemonReload => 32
  | .check _ us => 4 * us.length + 11
  | .logRestart _ us => 4 * us.length + 10
  | .resetFailed _ us => 4 * us.length + 9
  | .restart _ us => 4 * us.length + 8
  | .checkTimer => 7
  | .logStart => 6
  | .enable => 5
  | .start => 4
  | .dedupe => 3
  | .postCheck => 2
  | .trapExit => 1
  | .exited | .killed _ => 0

theorem rank_next (us : List SystemdUnit) : (Pc.next us).rank = 4 * us.length + 7 := by
  cases us <;> simp [Pc.next, Pc.rank, Nat.mul_add]

theorem Moves.rank {i : Nat} {units : SystemdUnit → UnitState} {pc pc' : Pc} {l l' : Bool}
    {j j' : List (Nat × Event)} (h : Moves i units pc l j pc' l' j') :
    pc'.rank ≤ pc.rank - 1 := by
  cases h with
  | daemonReload | healthy | restart =>
    rw [rank_next]
    simp [Pc.rank, restartUnits]
  | _ => simp [Pc.rank]

def Action.isRun (i : Nat) : Action → Bool
  | .run k _ => k == i
  | _ => false

theorem step_rank (i : Nat) (w : World) (a : Action) : ((step w a).procs i).pc.rank ≤ (w.procs i).pc.rank := by
  cases a with
  | run k r =>
    by_cases hk : i = k
    · subst hk
      exact Nat.le_trans (exec_moves w i r).rank (Nat.sub_le _ 1)
    · exact Nat.le_of_eq (congrArg (·.pc.rank) (exec_procs_ne w r hk))
  | kill k =>
    by_cases hk : i = k
    · subst hk
      simp only [step, kill]
      split
      · exact Nat.le_refl _
      · simp [World.goto, Pc.rank]
    · obtain ⟨-, -, hne, -⟩ := kill_procs w k
      exact Nat.le_of_eq (congrArg (·.pc.rank) (hne i hk))
  | happen units => exact Nat.le_refl _

theorem step_rank_run {i : Nat} (w : World) {a : Action} (ha : a.isRun i = true) :
    ((step w a).procs i).pc.rank ≤ (w.procs i).pc.rank - 1 := by
  cases a with
  | run k r =>
    obtain rfl : k = i := by simpa [Action.isRun] using ha
    exact (exec_moves w k r).rank
  | kill k => cases ha
  | happen units => cases ha

def Pc.Inside (pc : Pc) : Prop := pc.holds = true ∧ pc ≠ .killed true

def Pc.late : Pc → Bool
  | .postCheck | .trapExit => true
  | _ => false

structure Finishing (i : Nat) (w : World) : Prop where
  late : (w.procs i).pc.late = true → (i, .dedupe) ∈ w.journal
  inside : (w.procs i).pc.Inside ∨ (w.procs i).pc = .exited ∧ (i, .dedupe) ∈ w.journal

theorem next_inside (us : List SystemdUnit) : (Pc.next us).Inside ∧ (Pc.next us).late = false := by
  cases us <;> simp [Pc.next, Pc.Inside, Pc.holds, Pc.late]

section
variable {i : Nat} {units : SystemdUnit → UnitState} {pc pc' : Pc} {l l' : Bool} {j j' : List (Nat × Event)}

theorem Moves.journal_mem (h : Moves i units pc l j pc' l' j') {entry : Nat × Event} (hmem : entry ∈ j) :
    entry ∈ j' := by
  rcases h.journal with rfl | ⟨-, e, rfl⟩
  · exact hmem
  · exact List.mem_cons_of_mem _ hmem

theorem Moves.late (h : Moves i units pc l j pc' l' j') (hlate : pc.late = true → (i, .dedupe) ∈ j)
    (hl : pc'.late = true) : (i, .dedupe) ∈ j' := by
  cases h with
  | dedupeChanged | dedupeUnchanged => exact List.mem_cons_self
  | postCheck => exact hlate rfl
  | daemonReload | healthy | restart =>
    rw [(next_inside _).2] at hl
    cases hl
  | _ => cases hl

theorem Moves.inside (h : Moves i units pc l j pc' l' j') (hlate : pc.late = true → (i, .dedupe) ∈ j)
    (hin : pc.Inside) : pc'.Inside ∨ pc' = .exited ∧ (i, .dedupe) ∈ j' := by
  cases h with
  | trapExit => exact .inr ⟨rfl, hlate rfl⟩
  | daemonReload | healthy | restart => exact .inl (next_inside _).1
  | enter | busy | exited => cases hin.1
  | @killed _ _ b =>
    obtain ⟨hb, hne⟩ := hin
    exact absurd (congrArg Pc.killed hb) hne
  | _ => exact .inl ⟨rfl, by simp⟩

end

theorem step_finishing {i : Nat} (w : World) (a : Action) (hf : Finishing i w) (ha : a ≠ .kill i) :
    Finishing i (step w a) := by
  cases a with
  | run k r =>
    have hmoves := exec_moves w k r
    by_cases hk : i = k
    · subst hk
      refine ⟨hmoves.late hf.late, ?_⟩
      rcases hf.inside with hin | ⟨hpc, hmem⟩
      · exact hmoves.inside hf.late hin
      · refine .inr ⟨?_, hmoves.journal_mem hmem⟩
        simp only [step, exec, hpc]
    · have hpc := exec_procs_ne w r hk
      constructor
      · simp only [step, hpc]
        exact fun hl => hmoves.journal_mem (hf.late hl)
      · simp only [step, hpc]
        exact hf.inside.imp id (And.imp_right hmoves.journal_mem)
  | kill k =>
    have hk : i ≠ k := by
      rintro rfl
      exact ha rfl
    obtain ⟨-, hjournal, hne, -⟩ := kill_procs w k
    constructor <;> simp only [step, hne i hk, hjournal]
    · exact hf.late
    · exact hf.inside
  | happen units => exact ⟨hf.late, hf.inside⟩

theorem inside_rank {w : World} {i : Nat} (hc : Conservative w) (hin : (w.procs i).pc.Inside) :
    (w.procs i).pc.rank ≤ 33 := by
  have hlen := (hc.ahead i).length_le
  cases hpc : (w.procs i).pc with
  | check u us | logRestart u us | resetFailed u us | restart u us =>
    simp only [hpc, Pc.ahead, List.length_append, List.length_cons, allUnits, restartUnits, List.length_nil] at hlen
    simp only [Pc.rank]
    omega
  | mkdir =>
    rw [hpc] at hin
    cases hin.1
  | _ => simp [Pc.rank]

theorem rank_zero {pc : Pc} (h : pc.rank = 0) : ¬ pc.Inside := by
  rintro ⟨hholds, hne⟩
  cases pc with
  | exited => cases hholds
  | killed b =>
    rw [show b = true from hholds] at hne
    exact hne rfl
  | _ => simp [Pc.rank] at h

/-- A run that has the lock and is not killed is at its end after 33 of its
commands, whatever the others do. -/
theorem finishing_ends {i : Nat} {w : World} {as : List Action} (hc : Conservative w) (hf : Finishing i w)
    (hin : (w.procs i).pc.Inside) (hkill : .kill i ∉ as) (hsteps : 33 ≤ as.countP (Action.isRun i)) :
    ((run step w as).procs i).pc = .exited ∧ (i, .dedupe) ∈ (run step w as).journal := by
  have hmeets : Meets step (fun _ a => a ≠ .kill i) w as := by
    apply Meets.of_forall
    rintro a ha w rfl
    exact hkill ha
  have hend : Finishing i (run step w as) := run_inv step_finishing hf hmeets
  have hrank := run_rank (fun w => (w.procs i).pc.rank) (Action.isRun i) (step_rank i)
    (fun w _ ha => step_rank_run w ha) w as
  have hzero : ((run step w as).procs i).pc.rank = 0 := by
    have := inside_rank hc hin
    omega
  exact hend.inside.resolve_left (rank_zero hzero)

-- ---------------------------------------------------------------------------
-- A stack that can be brought up
-- ---------------------------------------------------------------------------

/-- Nothing breaks, and a restart or start brings its unit up. -/
structure Helpful (w : World) (a : Action) : Prop where
  keeps : ∀ u, isOk (w.units u) = true → isOk ((step w a).units u) = true
  restart : ∀ i r u us, a = .run i r → (w.procs i).pc = .restart u us → isOk (r.units u) = true
  start : ∀ i r, a = .run i r → (w.procs i).pc = .start → isOk (r.units .dedupeTimer) = true

def Pc.body : Pc → Bool
  | .logRestart _ _ | .resetFailed _ _ | .restart _ _ | .logStart | .enable | .start => true
  | _ => false

/-- What a run has passed is healthy, and after the dedupe script all is. -/
structure Recovering (w : World) : Prop where
  conservative : Conservative w
  late : ∀ i, (w.procs i).pc.late = true → (i, .dedupe) ∈ w.journal
  passed : ∀ i, 0 < (w.procs i).pc.rank → ∀ u, u ∉ (w.procs i).pc.ahead → isOk (w.units u) = true
  healthy : ∀ i, (i, .dedupe) ∈ w.journal → ∀ u, isOk (w.units u) = true
  quiet : ∀ i, (i, .dedupe) ∈ w.journal → ∀ k, (w.procs k).pc.body = false

theorem mem_allUnits (u : SystemdUnit) : u ∈ allUnits := by
  cases u <;> decide

theorem boot_recovering (units : SystemdUnit → UnitState) (log : Log) : Recovering (boot units log) where
  conservative := boot_conservative units log
  late i hl := by cases hl
  passed i hlive u hu := absurd (mem_allUnits u) hu
  healthy i hmem := by cases hmem
  quiet i hmem := by cases hmem

theorem eq_head {u v : SystemdUnit} {us : List SystemdUnit} (hu : u ∈ v :: us ++ [.dedupeTimer])
    (hu' : u ∉ (Pc.next us).ahead) : u = v := by
  rw [ahead_next] at hu'
  simp only [List.cons_append, List.mem_cons] at hu
  exact hu.resolve_right hu'

theorem Moves.passes {i : Nat} {units : SystemdUnit → UnitState} {pc pc' : Pc} {l l' : Bool}
    {j j' : List (Nat × Event)} {u : SystemdUnit} (h : Moves i units pc l j pc' l' j') (hlive : 0 < pc'.rank)
    (hu : u ∈ pc.ahead) (hu' : u ∉ pc'.ahead) :
    isOk (units u) = true ∨ (∃ us, pc = .restart u us) ∨ pc = .start ∧ u = .dedupeTimer := by
  cases h with
  | daemonReload =>
    rw [ahead_next] at hu'
    exact absurd hu hu'
  | healthy hok =>
    obtain rfl := eq_head hu hu'
    exact .inl hok
  | restart =>
    obtain rfl := eq_head hu hu'
    exact .inr (.inl ⟨_, rfl⟩)
  | timerHealthy hok =>
    obtain rfl := List.mem_singleton.mp hu
    exact .inl hok
  | start => exact .inr (.inr ⟨rfl, List.mem_singleton.mp hu⟩)
  | busy => cases hlive
  | dedupeChanged | dedupeUnchanged | postCheck | trapExit | exited | killed => cases hu
  | _ => exact absurd hu hu'

theorem exec_units_ok {w : World} {i : Nat} {r : Reply} {u : SystemdUnit} (hh : Helpful w (.run i r))
    (hup : isOk (w.units u) = true ∨ (∃ us, (w.procs i).pc = .restart u us) ∨
      (w.procs i).pc = .start ∧ u = .dedupeTimer) : isOk ((exec w i r).units u) = true := by
  rcases hup with hok | ⟨us, hpc⟩ | ⟨hpc, rfl⟩
  · exact hh.keeps u hok
  · have hup := hh.restart i r u us rfl hpc
    simp only [exec, hpc]
    split <;> exact hup
  · simp only [exec, hpc]
    exact hh.start i r rfl hpc

section
variable {i : Nat} {units : SystemdUnit → UnitState} {pc pc' : Pc} {l l' : Bool} {j j' : List (Nat × Event)}

theorem Moves.dedupe_mem (h : Moves i units pc l j pc' l' j') {k : Nat} (hmem : (k, .dedupe) ∈ j') :
    (k, .dedupe) ∈ j ∨ k = i ∧ pc = .dedupe := by
  cases h with
  | dedupeChanged | dedupeUnchanged =>
    rcases List.mem_cons.mp hmem with heq | hmem
    · cases heq
      exact .inr ⟨rfl, rfl⟩
    · exact .inl hmem
  | daemonReload | healthy | unhealthy | resetFailed | restart | timerHealthy | timerUnhealthy | enable | start =>
    exact .inl (by simpa using hmem)
  | _ => exact .inl hmem

/-- On a healthy stack no run enters the body of an `if`. -/
theorem Moves.body (h : Moves i units pc l j pc' l' j') (hok : ∀ u, isOk (units u) = true)
    (hb : pc.body = false) : pc'.body = false := by
  cases h with
  | @unhealthy _ _ u _ hbad =>
    rw [hok u] at hbad
    cases hbad
  | timerUnhealthy hbad =>
    rw [hok .dedupeTimer] at hbad
    cases hbad
  | @daemonReload | @healthy _ _ _ us _ => first | rfl | cases us <;> rfl
  | logRestart | resetFailed | restart | logStart | enable | start => cases hb
  | _ => rfl

theorem Moves.actedOn (h : Moves i units pc l j pc' l' j') (hb : pc.body = false) (k : Nat) :
    actedOn k j' = actedOn k j := by
  cases h with
  | resetFailed | restart | enable | start => cases hb
  | daemonReload | healthy | unhealthy | timerHealthy | timerUnhealthy | dedupeChanged | dedupeUnchanged =>
    simp [Watchdog.actedOn, List.filterMap_append, Event.target]
  | _ => rfl

end

theorem not_body_of_not_holds {pc : Pc} (h : pc.holds = false) : pc.body = false := by
  cases pc <;> first | rfl | cases h

theorem exec_dedupe {w : World} {i k : Nat} {r : Reply} (hr : Recovering w)
    (hmem : (k, .dedupe) ∈ (exec w i r).journal) :
    (∀ u, isOk (w.units u) = true) ∧ ∀ m, (w.procs m).pc.body = false := by
  rcases (exec_moves w i r).dedupe_mem hmem with hold | ⟨-, hpc⟩
  · exact ⟨hr.healthy k hold, hr.quiet k hold⟩
  · refine ⟨fun u => hr.passed i (by simp [hpc, Pc.rank]) u (by simp [hpc, Pc.ahead]), fun m => ?_⟩
    by_cases hm : m = i
    · rw [hm, hpc]
      rfl
    · apply not_body_of_not_holds
      by_contra hin
      exact hm (hr.conservative.exclusive.alone m i (by simpa using hin) (by simp [hpc, Pc.holds]))

theorem exec_recovering {w : World} {i : Nat} {r : Reply} (hr : Recovering w) (hh : Helpful w (.run i r)) :
    Recovering (exec w i r) := by
  have hmoves := exec_moves w i r
  have hkeeps : ∀ u, isOk (w.units u) = true → isOk ((exec w i r).units u) = true := hh.keeps
  refine ⟨exec_conservative w i r hr.conservative, fun k hl => ?_, fun k hlive u hu => ?_, fun k hmem u => ?_,
    fun k hmem m => ?_⟩
  · by_cases hk : k = i
    · subst hk
      exact hmoves.late (hr.late k) hl
    · rw [exec_procs_ne w r hk] at hl
      exact hmoves.journal_mem (hr.late k hl)
  · by_cases hk : k = i
    · subst hk
      by_cases hu' : u ∈ (w.procs k).pc.ahead
      · exact exec_units_ok hh (hmoves.passes hlive hu' hu)
      · have hrank := hmoves.rank
        exact hkeeps u (hr.passed k (by omega) u hu')
    · rw [exec_procs_ne w r hk] at hlive hu
      exact hkeeps u (hr.passed k hlive u hu)
  · exact hkeeps u ((exec_dedupe hr hmem).1 u)
  · obtain ⟨hok, hbody⟩ := exec_dedupe hr hmem
    by_cases hm : m = i
    · subst hm
      exact hmoves.body hok (hbody m)
    · rw [exec_procs_ne w r hm]
      exact hbody m

theorem kill_recovering {w : World} (i : Nat) (hr : Recovering w) : Recovering (kill w i) := by
  obtain ⟨-, hjournal, -, -⟩ := kill_procs w i
  have hunits : (kill w i).units = w.units := by
    unfold kill
    split <;> rfl
  refine ⟨step_conservative w (.kill i) hr.conservative, fun k hl => ?_, fun k hlive u hu => ?_, ?_, fun k hmem m => ?_⟩
  · rw [hjournal]
    rcases kill_pc w i k with hpc | ⟨b, hpc⟩ <;> rw [hpc] at hl
    · exact hr.late k hl
    · cases hl
  · rw [hunits]
    rcases kill_pc w i k with hpc | ⟨b, hpc⟩ <;> rw [hpc] at hlive hu
    · exact hr.passed k hlive u hu
    · cases hlive
  · rw [hjournal, hunits]
    exact hr.healthy
  · rw [hjournal] at hmem
    rcases kill_pc w i m with hpc | ⟨b, hpc⟩ <;> rw [hpc]
    · exact hr.quiet k hmem m
    · rfl

theorem step_recovering (w : World) (a : Action) (hr : Recovering w) (hh : Helpful w a) : Recovering (step w a) := by
  cases a with
  | run i r => exact exec_recovering hr hh
  | kill i => exact kill_recovering i hr
  | happen units =>
    exact ⟨step_conservative w _ hr.conservative, hr.late, fun i hlive u hu => hh.keeps u (hr.passed i hlive u hu),
      fun i hmem u => hh.keeps u (hr.healthy i hmem u), hr.quiet⟩

structure Settled (i : Nat) (acted : Nat → List SystemdUnit) (w : World) : Prop where
  recovering : Recovering w
  dedupe : (i, .dedupe) ∈ w.journal
  acted : ∀ k, actedOn k w.journal = acted k

theorem step_settled {i : Nat} {acted : Nat → List SystemdUnit} (w : World) (a : Action) (hs : Settled i acted w)
    (hh : Helpful w a) : Settled i acted (step w a) := by
  refine ⟨step_recovering w a hs.recovering hh, ?_, fun k => ?_⟩
  · cases a with
    | run m r => exact (exec_moves w m r).journal_mem hs.dedupe
    | kill m => exact (kill_procs w m).2.1 ▸ hs.dedupe
    | happen units => exact hs.dedupe
  · rw [← hs.acted k]
    cases a with
    | run m r => exact (exec_moves w m r).actedOn (hs.recovering.quiet i hs.dedupe m) k
    | kill m => exact congrArg (actedOn k) (kill_procs w m).2.1
    | happen units => rfl

/-- Where a restart brings its unit up and nothing breaks otherwise: a run that
has the lock and is not killed comes to its end, then every unit is healthy
and stays so, and no run acts on a unit again. -/
theorem inside_run_recovers (units : SystemdUnit → UnitState) (log : Log) (as bs cs : List Action) (i : Nat)
    (hin : ((run step (boot units log) as).procs i).pc.Inside) (hkill : .kill i ∉ bs)
    (hsteps : 33 ≤ bs.countP (Action.isRun i)) (hhelp : Meets step Helpful (boot units log) (as ++ bs ++ cs)) :
    ((run step (boot units log) (as ++ bs)).procs i).pc = .exited ∧
      (∀ u, isOk ((run step (boot units log) (as ++ bs)).units u) = true) ∧
      (∀ u, isOk ((run step (boot units log) (as ++ bs ++ cs)).units u) = true) ∧
      ∀ k, actedOn k (run step (boot units log) (as ++ bs ++ cs)).journal =
        actedOn k (run step (boot units log) (as ++ bs)).journal := by
  obtain ⟨hhelp, hhelp'⟩ := hhelp.append
  have hrecovering : Recovering (run step (boot units log) (as ++ bs)) :=
    run_inv step_recovering (boot_recovering units log) hhelp
  have hstart := run_inv step_recovering (boot_recovering units log) hhelp.append.1
  have hend := finishing_ends hstart.conservative ⟨hstart.late i, .inl hin⟩ hin hkill hsteps
  rw [← run_append] at hend
  obtain ⟨hexited, hdedupe⟩ := hend
  have hsettled : Settled i (fun k => actedOn k (run step (boot units log) (as ++ bs)).journal)
      (run step (boot units log) (as ++ bs)) := ⟨hrecovering, hdedupe, fun k => rfl⟩
  have hlater := run_inv step_settled hsettled hhelp'
  rw [← run_append] at hlater
  exact ⟨hexited, hrecovering.healthy i hdedupe, hlater.recovering.healthy i hlater.dedupe, hlater.acted⟩

theorem exec_units (w : World) (i : Nat) (r : Reply) :
    (exec w i r).units = w.units ∨ (exec w i r).units = r.units := by
  unfold exec
  split <;> first | exact .inl rfl | exact .inr rfl | (split <;> first | exact .inl rfl | exact .inr rfl)

/-- A restart or start brings all units up, and no other command does anything
to them. -/
def upReply (w : World) (i : Nat) : Reply :=
  quietReply (match (w.procs i).pc with
    | .restart _ _ | .start => fun _ => .active
    | _ => w.units)

theorem upReply_helpful (w : World) (i : Nat) : Helpful w (.run i (upReply w i)) where
  keeps u hok := by
    have hreply : isOk ((upReply w i).units u) = true := by
      unfold upReply quietReply
      cases (w.procs i).pc <;> first | rfl | exact hok
    rcases exec_units w i (upReply w i) with h | h <;> simp only [step, h]
    · exact hok
    · exact hreply
  restart k r u us ha hpc := by
    cases ha
    simp only [upReply, quietReply, hpc, isOk]
  start k r ha hpc := by
    cases ha
    simp only [upReply, quietReply, hpc, isOk]

def upRun (i : Nat) : Nat → World → List Action
  | 0, _ => []
  | n + 1, w => .run i (upReply w i) :: upRun i n (step w (.run i (upReply w i)))

theorem upRun_helpful (i n : Nat) (w : World) : Meets step Helpful w (upRun i n w) := by
  induction n generalizing w with
  | zero => trivial
  | succ n ih => exact ⟨upReply_helpful w i, ih _⟩

theorem upRun_runs (i n : Nat) (w : World) : ∀ a ∈ upRun i n w, ∃ r, a = .run i r := by
  induction n generalizing w with
  | zero => simp [upRun]
  | succ n ih =>
    intro a ha
    rcases List.mem_cons.mp ha with rfl | ha
    · exact ⟨_, rfl⟩
    · exact ih _ a ha

theorem upRun_length (i n : Nat) (w : World) : (upRun i n w).countP (Action.isRun i) = n := by
  induction n generalizing w with
  | zero => rfl
  | succ n ih => rw [upRun, List.countP_cons_of_pos (by simp [Action.isRun]), ih]

/-- A boot with every unit down, and a first run that nothing disturbs. -/
theorem inside_run_recovers_all_failed :
    ∃ as, ((run step (boot (fun _ => .failed) []) as).procs 0).pc = .exited ∧
      ∀ u, isOk ((run step (boot (fun _ => .failed) []) as).units u) = true := by
  obtain ⟨w, hw⟩ : ∃ w, w = boot (fun _ => .failed) [] := ⟨_, rfl⟩
  have hin : ((run step w [.run 0 (upReply w 0)]).procs 0).pc.Inside := by
    subst hw
    exact ⟨rfl, by decide⟩
  generalize hbs : upRun 0 33 (step w (.run 0 (upReply w 0))) = bs
  have hkill : Action.kill 0 ∉ bs := by
    subst hbs
    intro hmem
    obtain ⟨r, hr⟩ := upRun_runs _ _ _ _ hmem
    cases hr
  have hsteps : 33 ≤ bs.countP (Action.isRun 0) := Nat.le_of_eq (hbs ▸ upRun_length 0 33 _).symm
  have hhelp : Meets step Helpful w ([.run 0 (upReply w 0)] ++ bs ++ []) := by
    rw [List.append_nil]
    exact ⟨upReply_helpful w 0, hbs ▸ upRun_helpful 0 33 _⟩
  subst hw
  have h := inside_run_recovers (fun _ => .failed) [] _ bs [] 0 hin hkill hsteps hhelp
  exact ⟨_, h.1, h.2.1⟩

end IpaOffload.Watchdog

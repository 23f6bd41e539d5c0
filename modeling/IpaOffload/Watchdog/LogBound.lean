import IpaOffload.Watchdog.HealthcheckLaws

/-!
# The log on tmpfs

A run cuts the log before it writes to it, and only the run inside writes. So
the log stays below the limit of the cut and what one run can add to it.
-/

namespace IpaOffload.Watchdog

open Function Runs

-- ---------------------------------------------------------------------------
-- The lines a run writes
-- ---------------------------------------------------------------------------

theorem name_size (u : SystemdUnit) : u.name.utf8ByteSize ≤ 32 := by
  cases u <;> decide

theorem text_size (state : UnitState) : state.text.utf8ByteSize ≤ 12 := by
  cases state <;> decide

theorem stateLine_size (state : UnitState) : (stateLine state).utf8ByteSize ≤ 13 := by
  cases state <;> decide

theorem rc_size : ∀ rc : Fin 256, (toString rc.val).utf8ByteSize ≤ 3 := by
  decide +kernel

theorem join_size (n : Nat) (texts : List String) (h : ∀ text ∈ texts, text.utf8ByteSize ≤ n) :
    (String.join texts).utf8ByteSize ≤ n * texts.length := by
  induction texts with
  | nil => simp [String.join]
  | cons text texts ih =>
    have hhead := h text (by simp)
    have htail := ih fun t ht => h t (by simp [ht])
    rw [String.join_cons, String.utf8ByteSize_append, List.length_cons, Nat.mul_succ]
    omega

theorem restartText_size (u : SystemdUnit) (state : UnitState) : (restartText u state).utf8ByteSize ≤ 112 := by
  have hname := name_size u
  have htext := text_size state
  have h1 : "restart ".utf8ByteSize = 8 := rfl
  have h2 : " state=".utf8ByteSize = 7 := rfl
  unfold restartText
  rw [String.utf8ByteSize_append, String.utf8ByteSize_append, String.utf8ByteSize_append]
  omega

theorem restartFailedText_size (u : SystemdUnit) {rc : Nat} (hrc : rc < 256) :
    (restartFailedText u rc).utf8ByteSize ≤ 112 := by
  have hname := name_size u
  have hdigits : (toString rc).utf8ByteSize ≤ 3 := rc_size ⟨rc, hrc⟩
  have h1 : "restart failed ".utf8ByteSize = 15 := rfl
  have h2 : " rc=".utf8ByteSize = 4 := rfl
  unfold restartFailedText
  rw [String.utf8ByteSize_append, String.utf8ByteSize_append, String.utf8ByteSize_append]
  omega

theorem startText_size (state : UnitState) : (startText state).utf8ByteSize ≤ 112 := by
  have hname := name_size .dedupeTimer
  have htext := text_size state
  have h1 : "enable/start ".utf8ByteSize = 13 := rfl
  have h2 : " state=".utf8ByteSize = 7 := rfl
  unfold startText
  rw [String.utf8ByteSize_append, String.utf8ByteSize_append, String.utf8ByteSize_append]
  omega

theorem postCheckText_size (units : SystemdUnit → UnitState) : (postCheckText units).utf8ByteSize ≤ 112 := by
  have hlines : ∀ text ∈ postCheckUnits.map fun u => stateLine (units u), text.utf8ByteSize ≤ 13 := by
    intro text hmem
    obtain ⟨u, -, rfl⟩ := List.mem_map.mp hmem
    exact stateLine_size (units u)
  have hjoin := join_size 13 _ hlines
  have hlen : postCheckUnits.length = 7 := rfl
  have h1 : "post-check services: ".utf8ByteSize = 21 := rfl
  rw [List.length_map, hlen] at hjoin
  unfold postCheckText
  rw [String.utf8ByteSize_append, h1]
  omega

-- ---------------------------------------------------------------------------
-- The size of the log
-- ---------------------------------------------------------------------------

theorem logSize_cons (line : String) (log : Log) : logSize (line :: log) = line.utf8ByteSize + 1 + logSize log := rfl

theorem logSize_append (log new : Log) : logSize (log ++ new) = logSize log + logSize new := by
  induction log with
  | nil => exact (Nat.zero_add _).symm
  | cons line log ih =>
    rw [List.cons_append, logSize_cons, logSize_cons, ih]
    omega

theorem logSize_le {limit : Nat} {log : Log} (h : ∀ line ∈ log, line.utf8ByteSize ≤ limit) :
    logSize log ≤ (limit + 1) * log.length := by
  induction log with
  | nil => exact Nat.zero_le _
  | cons line log ih =>
    have hhead := h line (by simp)
    have htail := ih fun l hl => h l (by simp [hl])
    rw [logSize_cons, List.length_cons, Nat.mul_succ]
    omega

theorem logSize_tail400 {limit : Nat} {log : Log} (h : ∀ line ∈ log, line.utf8ByteSize ≤ limit) :
    logSize (tail400 log) ≤ (limit + 1) * 400 := by
  have hlines : logSize (tail400 log) ≤ (limit + 1) * (tail400 log).length :=
    logSize_le fun line hl => h line (List.mem_of_mem_drop hl)
  have hlen : (tail400 log).length ≤ 400 := by
    rw [tail400, List.length_drop]
    omega
  exact Nat.le_trans hlines (Nat.mul_le_mul_left _ hlen)

-- ---------------------------------------------------------------------------
-- What a command adds to the log
-- ---------------------------------------------------------------------------

section
variable (limit count : Nat)

structure Terse (new : Log) : Prop where
  count : new.length ≤ count + 1
  lines : ∀ line ∈ new, line.utf8ByteSize ≤ limit

/-- A command prints at most `count` lines, `date` its 19 characters, an exit
status is a byte, and the log can be cut. -/
structure Tame (w : World) (a : Action) : Prop where
  count : ∀ i r, a = .run i r → r.output.length ≤ count
  lines : ∀ i r, a = .run i r → ∀ line ∈ r.output, line.utf8ByteSize ≤ limit
  date : ∀ i r, a = .run i r → r.date.utf8ByteSize ≤ 19
  status : ∀ i r, a = .run i r → r.rc < 256
  cut : ∀ i r, a = .run i r → (w.procs i).pc = .boundLog → r.rc = 0

end

section
variable {limit count : Nat}

theorem Terse.size {new : Log} (h : Terse limit count new) : logSize new ≤ (limit + 1) * (count + 1) :=
  Nat.le_trans (logSize_le h.lines) (Nat.mul_le_mul_left _ h.count)

theorem message_size {date text : String} (hdate : date.utf8ByteSize ≤ 19) (htext : text.utf8ByteSize ≤ 112)
    (hlimit : 132 ≤ limit) : (date ++ " " ++ text).utf8ByteSize ≤ limit := by
  have h1 : " ".utf8ByteSize = 1 := rfl
  rw [String.utf8ByteSize_append, String.utf8ByteSize_append]
  omega

theorem terse_message {date text : String} (hdate : date.utf8ByteSize ≤ 19) (htext : text.utf8ByteSize ≤ 112)
    (hlimit : 132 ≤ limit) : Terse limit count [date ++ " " ++ text] := by
  refine ⟨by simp, fun line hl => ?_⟩
  obtain rfl := List.mem_singleton.mp hl
  exact message_size hdate htext hlimit

theorem terse_output {output : Log} (hcount : output.length ≤ count)
    (hlines : ∀ line ∈ output, line.utf8ByteSize ≤ limit) : Terse limit count output := ⟨by omega, hlines⟩

theorem terse_output_message {output : Log} {date text : String} (hcount : output.length ≤ count)
    (hlines : ∀ line ∈ output, line.utf8ByteSize ≤ limit) (hdate : date.utf8ByteSize ≤ 19)
    (htext : text.utf8ByteSize ≤ 112) (hlimit : 132 ≤ limit) :
    Terse limit count (output ++ [date ++ " " ++ text]) := by
  refine ⟨by simpa using hcount, fun line hl => ?_⟩
  rcases List.mem_append.mp hl with hl | hl
  · exact hlines line hl
  · obtain rfl := List.mem_singleton.mp hl
    exact message_size hdate htext hlimit

end

def Pc.writes : Pc → Nat
  | .mkdir | .boundLog | .daemonReload => 16
  | .check _ us | .logRestart _ us => 2 * us.length + 6
  | .resetFailed _ us | .restart _ us => 2 * us.length + 5
  | .checkTimer | .logStart => 4
  | .enable | .start => 3
  | .dedupe => 2
  | .postCheck => 1
  | .trapExit | .exited | .killed _ => 0

theorem writes_next (us : List SystemdUnit) : (Pc.next us).writes = 2 * us.length + 4 := by
  cases us <;> simp [Pc.next, Pc.writes, Nat.mul_add]

theorem Moves.writes {i : Nat} {units : SystemdUnit → UnitState} {pc pc' : Pc} {l l' : Bool}
    {j j' : List (Nat × Event)} (h : Moves i units pc l j pc' l' j') : pc'.writes ≤ pc.writes := by
  cases h with
  | daemonReload | healthy | restart =>
    rw [writes_next]
    simp [Pc.writes, restartUnits]
  | _ => simp [Pc.writes]

def Pc.writer : Pc → Bool
  | .logRestart _ _ | .restart _ _ | .logStart | .start | .dedupe | .postCheck => true
  | _ => false

theorem Moves.writer {i : Nat} {units : SystemdUnit → UnitState} {pc pc' : Pc} {l l' : Bool}
    {j j' : List (Nat × Event)} (h : Moves i units pc l j pc' l' j') (hw : pc.writer = true) :
    pc'.writes + 1 ≤ pc.writes := by
  cases h with
  | restart =>
    rw [writes_next]
    simp [Pc.writes]
  | logRestart | logStart | start | dedupeChanged | dedupeUnchanged | postCheck => simp [Pc.writes]
  | _ => cases hw

theorem exec_log_same {w : World} {i : Nat} (r : Reply) (hpc : (w.procs i).pc.writer = false)
    (hcut : (w.procs i).pc ≠ .boundLog) : (exec w i r).log = w.log := by
  unfold exec
  cases h : (w.procs i).pc with
  | mkdir => dsimp only; split <;> rfl
  | boundLog => exact absurd h hcut
  | logRestart | restart | logStart | start | dedupe | postCheck =>
    rw [h] at hpc
    cases hpc
  | _ => rfl

theorem exec_log_write {limit count : Nat} {w : World} {i : Nat} {r : Reply} (hlimit : 132 ≤ limit)
    (ht : Tame limit count w (.run i r)) (hpc : (w.procs i).pc.writer = true) :
    ∃ new, (exec w i r).log = w.log ++ new ∧ Terse limit count new := by
  have hcount := ht.count i r rfl
  have hlines := ht.lines i r rfl
  have hdate := ht.date i r rfl
  unfold exec
  cases h : (w.procs i).pc with
  | logRestart u us => exact ⟨_, rfl, terse_message hdate (restartText_size u _) hlimit⟩
  | restart u us =>
    by_cases hrc : r.rc = 0
    · refine ⟨r.output, ?_, terse_output hcount hlines⟩
      simp only [hrc, if_true, World.goto, World.setChanged, World.print, World.note, World.obey]
    · refine ⟨_, ?_, terse_output_message hcount hlines hdate (restartFailedText_size u (ht.status i r rfl)) hlimit⟩
      simp only [hrc, if_false, World.goto, World.setChanged, World.print, World.note, World.obey, World.say,
        List.append_assoc]
  | logStart => exact ⟨_, rfl, terse_message hdate (startText_size _) hlimit⟩
  | start | dedupe => exact ⟨r.output, rfl, terse_output hcount hlines⟩
  | postCheck => exact ⟨_, rfl, terse_message hdate (postCheckText_size _) hlimit⟩
  | _ =>
    rw [h] at hpc
    cases hpc

-- ---------------------------------------------------------------------------
-- Whole runs
-- ---------------------------------------------------------------------------

/-- The limit of the cut, and what a run can add to it. -/
def room (limit count : Nat) : Nat := max 131072 ((limit + 1) * 400) + (limit + 1) * (count + 1) * 16

def Pc.hasCut : Pc → Bool
  | .mkdir | .boundLog | .exited | .killed _ => false
  | _ => true

structure Bounded (limit count : Nat) (w : World) : Prop where
  exclusive : Exclusive w
  lines : ∀ line ∈ w.log, line.utf8ByteSize ≤ limit
  size : logSize w.log ≤ room limit count
  inside : ∀ i, (w.procs i).pc.hasCut = true →
    logSize w.log + (limit + 1) * (count + 1) * (w.procs i).pc.writes ≤ room limit count

theorem hasCut_holds {pc : Pc} (h : pc.hasCut = true) : pc.holds = true := by
  cases pc <;> first | rfl | cases h

theorem writer_hasCut {pc : Pc} (h : pc.writer = true) : pc.hasCut = true := by
  cases pc <;> first | rfl | cases h

theorem Moves.hasCut {i : Nat} {units : SystemdUnit → UnitState} {pc pc' : Pc} {l l' : Bool}
    {j j' : List (Nat × Event)} (h : Moves i units pc l j pc' l' j') (hcut : pc'.hasCut = true) :
    pc.hasCut = true ∨ pc = .boundLog := by
  cases h with
  | boundLog => exact .inr rfl
  | enter | busy | trapExit | exited | killed => cases hcut
  | _ => exact .inl rfl

theorem bounded_of_holds {limit count : Nat} {w : World} {i : Nat} {r : Reply} (hb : Bounded limit count w)
    (hholds : (w.procs i).pc.holds = true) (hlines : ∀ line ∈ (exec w i r).log, line.utf8ByteSize ≤ limit)
    (hsize : logSize (exec w i r).log + (limit + 1) * (count + 1) * ((exec w i r).procs i).pc.writes ≤
      room limit count) : Bounded limit count (exec w i r) where
  exclusive := step_exclusive w (.run i r) hb.exclusive
  lines := hlines
  size := Nat.le_trans (Nat.le_add_right ..) hsize
  inside k hcut := by
    by_cases hk : k = i
    · subst hk
      exact hsize
    · rw [exec_procs_ne w r hk] at hcut
      exact absurd (hb.exclusive.alone k i (hasCut_holds hcut) hholds) hk

theorem exec_bounded {limit count : Nat} {w : World} {i : Nat} {r : Reply} (hlimit : 132 ≤ limit)
    (hb : Bounded limit count w) (ht : Tame limit count w (.run i r)) : Bounded limit count (exec w i r) := by
  have hmoves := exec_moves w i r
  by_cases hbound : (w.procs i).pc = .boundLog
  · -- the cut: 131072 bytes or 400 lines are left
    have hrc := ht.cut i r rfl hbound
    have hlog : (exec w i r).log = if 131072 < logSize w.log then tail400 w.log else w.log := by
      simp only [exec, hbound, hrc, and_true, World.goto]
    have hpc : ((exec w i r).procs i).pc = .daemonReload := by
      simp only [exec, hbound, World.goto, update_self]
    apply bounded_of_holds hb (by rw [hbound]; rfl)
    · rw [hlog]
      split
      · exact fun line hl => hb.lines line (List.mem_of_mem_drop hl)
      · exact hb.lines
    · have hcut : logSize (exec w i r).log ≤ max 131072 ((limit + 1) * 400) := by
        rw [hlog]
        split
        · exact Nat.le_trans (logSize_tail400 hb.lines) (Nat.le_max_right ..)
        · exact Nat.le_trans (Nat.le_of_not_lt ‹_›) (Nat.le_max_left ..)
      rw [hpc]
      exact Nat.add_le_add_right hcut _
  by_cases hwriter : (w.procs i).pc.writer = true
  · obtain ⟨new, hlog, hterse⟩ := exec_log_write hlimit ht hwriter
    have hcut := writer_hasCut hwriter
    apply bounded_of_holds hb (hasCut_holds hcut)
    · rw [hlog]
      intro line hl
      rcases List.mem_append.mp hl with hl | hl
      · exact hb.lines line hl
      · exact hterse.lines line hl
    · have hroom := hb.inside i hcut
      have hnew := hterse.size
      have hwrites := Nat.mul_le_mul_left ((limit + 1) * (count + 1)) (hmoves.writer hwriter)
      rw [Nat.mul_succ] at hwrites
      rw [hlog, logSize_append]
      omega
  · have hlog := exec_log_same r (by simpa using hwriter) hbound
    refine ⟨step_exclusive w (.run i r) hb.exclusive, by rw [hlog]; exact hb.lines, by rw [hlog]; exact hb.size,
      fun k hcut => ?_⟩
    rw [hlog]
    by_cases hk : k = i
    · subst hk
      have hcut' := (hmoves.hasCut hcut).resolve_right hbound
      have hroom := hb.inside k hcut'
      have hwrites := Nat.mul_le_mul_left ((limit + 1) * (count + 1)) hmoves.writes
      omega
    · rw [exec_procs_ne w r hk] at hcut ⊢
      exact hb.inside k hcut

theorem step_bounded {limit count : Nat} (hlimit : 132 ≤ limit) (w : World) (a : Action)
    (hb : Bounded limit count w) (ht : Tame limit count w a) : Bounded limit count (step w a) := by
  cases a with
  | run i r => exact exec_bounded hlimit hb ht
  | kill i =>
    have hlog : (kill w i).log = w.log := by
      unfold kill
      split <;> rfl
    refine ⟨step_exclusive w (.kill i) hb.exclusive, ?_, ?_, fun k hcut => ?_⟩ <;> simp only [step, hlog]
    · exact hb.lines
    · exact hb.size
    · simp only [step] at hcut
      rcases kill_pc w i k with hpc | ⟨b, hpc⟩ <;> rw [hpc] at hcut ⊢
      · exact hb.inside k hcut
      · cases hcut
  | happen units => exact ⟨⟨hb.exclusive.lock, hb.exclusive.alone⟩, hb.lines, hb.size, hb.inside⟩

/-- As long as the log can be cut, it never has more than the 128 KiB or 400
lines that a cut leaves and the 16 writes of one run, however many runs there
have been and however they were mixed or killed. -/
theorem log_stays_bounded (units : SystemdUnit → UnitState) (limit count : Nat) (as : List Action)
    (hlimit : 132 ≤ limit) (ht : Meets step (Tame limit count) (boot units []) as) :
    logSize (run step (boot units []) as).log ≤
      max 131072 ((limit + 1) * 400) + (limit + 1) * (count + 1) * 16 := by
  have hboot : Bounded limit count (boot units []) :=
    ⟨boot_exclusive units [], by simp [boot], Nat.zero_le _, fun i hcut => by cases hcut⟩
  exact (run_inv (step_bounded hlimit) hboot ht).size

theorem logSize_replicate (n : Nat) (line : String) :
    logSize (List.replicate n line) = n * (line.utf8ByteSize + 1) := by
  induction n with
  | zero => simp [logSize]
  | succ n ih =>
    rw [List.replicate_succ, logSize_cons, ih, Nat.succ_mul]
    omega

def chattyReply : Reply where
  units := fun _ => .active
  rc := 0
  output := List.replicate 1000 (String.ofList (List.replicate 140 'x'))
  date := ""

theorem tame_chatty (w : World) (i : Nat) : Tame 140 1000 w (.run i chattyReply) := by
  have hline : (String.ofList (List.replicate 140 'x')).utf8ByteSize ≤ 140 := by decide +kernel
  refine ⟨?_, ?_, ?_, ?_, ?_⟩ <;> intro k r ha <;> cases ha
  · exact Nat.le_of_eq (List.length_replicate ..)
  · intro line hl
    obtain rfl := List.eq_of_mem_replicate hl
    exact hline
  · exact Nat.zero_le _
  · exact Nat.zero_lt_succ _
  · exact fun _ => rfl

/-- With every unit up a run is twelve commands. The second one finds the log too
long, and leaves 400 lines of it. -/
theorem log_stays_bounded_cut :
    let healthy := boot (fun _ => .active) []
    let as := List.replicate 12 (Action.run 0 chattyReply) ++ [.run 1 chattyReply]
    131072 < logSize (run step healthy as).log ∧
      (run step healthy (as ++ [.run 1 chattyReply])).log.length = 400 ∧
      logSize (run step healthy (as ++ [.run 1 chattyReply])).log ≤
        max 131072 ((140 + 1) * 400) + (140 + 1) * (1000 + 1) * 16 := by
  intro healthy as
  have hlog : (run step healthy as).log = chattyReply.output := rfl
  have hpc : ((run step healthy as).procs 1).pc = .boundLog := rfl
  have hsize : 131072 < logSize (run step healthy as).log := by
    have hline : (String.ofList (List.replicate 140 'x')).utf8ByteSize = 140 := by decide +kernel
    rw [hlog, chattyReply, logSize_replicate, hline]
    omega
  refine ⟨hsize, ?_, ?_⟩
  · rw [run_append]
    show (exec (run step healthy as) 1 chattyReply).log.length = 400
    simp only [exec, hpc, World.goto]
    rw [if_pos ⟨hsize, rfl⟩, hlog, chattyReply, tail400, List.length_drop, List.length_replicate]
  · apply log_stays_bounded _ 140 1000 _ (by decide)
    apply Meets.of_forall
    intro a ha w
    simp only [as, List.mem_append, List.mem_replicate, List.mem_singleton] at ha
    rcases ha with (⟨-, rfl⟩ | rfl) | rfl
    · exact tame_chatty w 0
    · exact tame_chatty w 1
    · exact tame_chatty w 1

end IpaOffload.Watchdog

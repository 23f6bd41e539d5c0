import IpaOffload.Lib.Runs
import IpaOffload.Dedupe.Sequential
import Mathlib.Logic.Function.Basic

/-!
# Several runs of the script at once

The timer and the health check start the script without a common lock. One
step is one `iptables` command of one run; a run counts, and then deletes by
that count whatever has happened since. The last copy is safe as long as no
run counts a rule that another is still deleting.
-/

namespace IpaOffload.Dedupe

open FirstMatch Runs Function

-- ---------------------------------------------------------------------------
-- The runs
-- ---------------------------------------------------------------------------

structure Target where
  chain : ChainId
  line : Line
  mem : line ∈ targets chain
  deriving DecidableEq

def chainTargets (c : ChainId) : List Target := (targets c).attach.map fun line => ⟨c, line.1, line.2⟩

/-- A run of the script: the targets it has not come to, and the inner loop it
is in with its `count`. -/
structure Proc where
  todo : List Target
  loop : Option (Target × Nat)

structure World where
  chains : ChainId → Chain
  procs : Nat → Proc

def start (chains : ChainId → Chain) : World where
  chains := chains
  procs _ := { todo := chainTargets .postrouting ++ chainTargets .input, loop := none }

/-- `while [ "$count" -gt 1 ]`. -/
def enter (t : Target) (count : Nat) : Option (Target × Nat) :=
  if 1 < count then some (t, count) else none

def step (w : World) (i : Nat) : World :=
  match (w.procs i).loop with
  | some (t, n) =>
    match (w.chains t.chain).delete t.line with
    | none => { w with procs := update w.procs i { (w.procs i) with loop := none } }
    | some chain =>
      { chains := update w.chains t.chain chain
        procs := update w.procs i { (w.procs i) with loop := enter t (n - 1) } }
  | none =>
    match (w.procs i).todo with
    | [] => w
    | t :: ts =>
      let n := count t.chain (w.chains t.chain) t.line
      { w with procs := update w.procs i { todo := ts, loop := enter t n } }

-- ---------------------------------------------------------------------------
-- A step
-- ---------------------------------------------------------------------------

section
variable {w : World} {i n : Nat} {t : Target} {ts : List Target}

theorem step_idle (hloop : (w.procs i).loop = none) (htodo : (w.procs i).todo = []) : step w i = w := by
  simp only [step, hloop, htodo]

theorem step_count (hloop : (w.procs i).loop = none) (htodo : (w.procs i).todo = t :: ts) :
    step w i = { w with
      procs := update w.procs i { todo := ts, loop := enter t (count t.chain (w.chains t.chain) t.line) } } := by
  simp only [step, hloop, htodo]

def erased (w : World) (t : Target) : ChainId → Chain :=
  update w.chains t.chain { w.chains t.chain with rules := (w.chains t.chain).rules.erase t.line }

theorem step_delete (hloop : (w.procs i).loop = some (t, n)) (hmem : t.line ∈ (w.chains t.chain).rules) :
    step w i =
      { chains := erased w t, procs := update w.procs i { (w.procs i) with loop := enter t (n - 1) } } := by
  simp only [step, hloop, Chain.delete, if_pos hmem, erased]

theorem step_break (hloop : (w.procs i).loop = some (t, n)) (hmem : t.line ∉ (w.chains t.chain).rules) :
    step w i = { w with procs := update w.procs i { (w.procs i) with loop := none } } := by
  simp only [step, hloop, Chain.delete, if_neg hmem]

end

def copies (chains : ChainId → Chain) (t : Target) : Nat := (chains t.chain).rules.count t.line

theorem copies_pos (chains : ChainId → Chain) (t : Target) :
    0 < copies chains t ↔ t.line ∈ (chains t.chain).rules := List.count_pos_iff

theorem copies_erased_self (w : World) (t : Target) : copies (erased w t) t = copies w.chains t - 1 := by
  simp only [copies, erased, update_self, List.count_erase_self]

theorem copies_erased_ne (w : World) {t u : Target} (hne : u ≠ t) : copies (erased w t) u = copies w.chains u := by
  unfold copies erased
  by_cases hc : u.chain = t.chain
  · have hline : u.line ≠ t.line := by
      intro hl
      cases u
      cases t
      cases hc
      cases hl
      exact hne rfl
    rw [hc, update_self, List.count_erase_of_ne hline]
  · rw [update_of_ne hc]

theorem enter_eq_some {t u : Target} {n m : Nat} (h : enter t n = some (u, m)) : t = u ∧ n = m ∧ 1 < n := by
  unfold enter at h
  split at h
  · cases h
    exact ⟨rfl, rfl, ‹_›⟩
  · cases h

-- ---------------------------------------------------------------------------
-- A run by itself
-- ---------------------------------------------------------------------------

section
variable {i : Nat} {t : Target} {todo : List Target}

theorem idle_eq (w : World) (hproc : w.procs i = { todo := todo, loop := none }) :
    w = { chains := update w.chains t.chain (w.chains t.chain)
          procs := update w.procs i { todo := todo, loop := none } } := by
  rw [update_eq_self, ← hproc, update_eq_self]

theorem solo_loop (n : Nat) (w : World) (hproc : w.procs i = { todo := todo, loop := enter t n }) :
    ∃ k, run step w (List.replicate k i) =
      { chains := update w.chains t.chain (dedupeLoop t.line n (w.chains t.chain))
        procs := update w.procs i { todo := todo, loop := none } } := by
  induction n generalizing w with
  | zero => exact ⟨0, idle_eq w hproc⟩
  | succ n ih =>
    cases n with
    | zero => exact ⟨0, idle_eq w hproc⟩
    | succ n =>
      have hloop : (w.procs i).loop = some (t, n + 2) := by rw [hproc]; rfl
      by_cases hmem : t.line ∈ (w.chains t.chain).rules
      · have hstep := step_delete hloop hmem
        obtain ⟨k, hk⟩ := ih (step w i) (by rw [hstep, hproc]; exact update_self ..)
        refine ⟨k + 1, ?_⟩
        rw [List.replicate_succ, run, hk, hstep]
        simp only [erased, update_self, update_idem, dedupeLoop, Chain.delete, if_pos hmem]
      · refine ⟨1, ?_⟩
        have hbreak := step_break hloop hmem
        rw [List.replicate_one, run, run, hbreak]
        simp only [dedupeLoop, Chain.delete, if_neg hmem, update_eq_self, hproc]

def deduped (chains : ChainId → Chain) (t : Target) : ChainId → Chain :=
  update chains t.chain (dedupeRule t.chain (chains t.chain) t.line)

theorem solo_todo (ts : List Target) (w : World) (hproc : w.procs i = { todo := ts, loop := none }) :
    ∃ k, (run step w (List.replicate k i)).chains = ts.foldl deduped w.chains ∧
      (run step w (List.replicate k i)).procs i = { todo := [], loop := none } := by
  induction ts generalizing w with
  | nil => exact ⟨0, rfl, hproc⟩
  | cons t ts ih =>
    have hstep := step_count (w := w) (i := i) (by rw [hproc]) (by rw [hproc])
    obtain ⟨k, hk⟩ := solo_loop _ (step w i) (by rw [hstep]; exact update_self ..)
    obtain ⟨l, hchains, hdone⟩ := ih (run step w (List.replicate (k + 1) i)) (by
      rw [List.replicate_succ, run, hk]
      exact update_self ..)
    rw [← run_append, List.replicate_append_replicate] at hchains hdone
    refine ⟨k + 1 + l, ?_, hdone⟩
    rw [hchains, List.replicate_succ, run, hk, hstep]
    rfl

end

theorem foldl_deduped (c : ChainId) (ts : List Target) (h : ∀ t ∈ ts, t.chain = c) (chains : ChainId → Chain) :
    ts.foldl deduped chains = update chains c ((ts.map Target.line).foldl (dedupeRule c) (chains c)) := by
  induction ts generalizing chains with
  | nil => exact (update_eq_self c chains).symm
  | cons t ts ih =>
    obtain rfl : t.chain = c := h t (by simp)
    rw [List.foldl_cons, ih fun u hu => h u (by simp [hu])]
    simp only [deduped, update_self, update_idem, List.map_cons, List.foldl_cons]

theorem foldl_chainTargets (c : ChainId) (chains : ChainId → Chain) :
    (chainTargets c).foldl deduped chains = update chains c (dedupe c (chains c)) := by
  have hchain : ∀ t ∈ chainTargets c, t.chain = c := by
    intro t ht
    obtain ⟨line, -, rfl⟩ := List.mem_map.mp ht
    rfl
  have hlines : (chainTargets c).map Target.line = targets c := by
    unfold chainTargets
    rw [List.map_map]
    exact List.attach_map_subtype_val _
  rw [foldl_deduped c _ hchain, hlines, dedupe]

/-- Left alone, a run does to each chain what the script does. -/
theorem solo_run (chains : ChainId → Chain) (i : Nat) :
    ∃ k, (run step (start chains) (List.replicate k i)).chains = (fun c => dedupe c (chains c)) ∧
      (run step (start chains) (List.replicate k i)).procs i = { todo := [], loop := none } := by
  obtain ⟨k, hchains, hdone⟩ := solo_todo (i := i) _ (start chains) rfl
  refine ⟨k, ?_, hdone⟩
  rw [hchains, List.foldl_append, foldl_chainTargets, foldl_chainTargets]
  funext c
  cases c <;> rfl

-- ---------------------------------------------------------------------------
-- The last copy
-- ---------------------------------------------------------------------------

/-- The run is not about to count a target that another run is deleting, or
whose text another rule has in it. Where the chain has no copy of the target
there is nothing to lose. -/
def CountsAlone (w : World) (i : Nat) : Prop :=
  (w.procs i).loop = none → ∀ t ts, (w.procs i).todo = t :: ts → t.line ∈ (w.chains t.chain).rules →
    ¬ Impostor t.line (w.chains t.chain).rules ∧ ∀ j n, (w.procs j).loop ≠ some (t, n)

/-- A run that is deleting a target is the only one, and has a copy to leave. -/
structure Guarded (w : World) : Prop where
  loops : ∀ i t n, (w.procs i).loop = some (t, n) → 1 < n
  covered : ∀ i t n, (w.procs i).loop = some (t, n) → 0 < copies w.chains t → n ≤ copies w.chains t
  alone : ∀ i j t n m, (w.procs i).loop = some (t, n) → (w.procs j).loop = some (t, m) →
    0 < copies w.chains t → i = j

theorem start_guarded (chains : ChainId → Chain) : Guarded (start chains) where
  loops i t n h := by cases h
  covered i t n h := by cases h
  alone i j t n m h := by cases h

theorem update_loop {procs : Nat → Proc} {proc : Proc} {i k : Nat} {t : Target} {n : Nat}
    (h : (update procs i proc k).loop = some (t, n)) :
    k = i ∧ proc.loop = some (t, n) ∨ k ≠ i ∧ (procs k).loop = some (t, n) := by
  by_cases hk : k = i
  · subst hk
    rw [update_self] at h
    exact .inl ⟨rfl, h⟩
  · rw [update_of_ne hk] at h
    exact .inr ⟨hk, h⟩

theorem count_guarded {w : World} {i : Nat} {t : Target} {ts : List Target} (hg : Guarded w)
    (hloop : (w.procs i).loop = none) (htodo : (w.procs i).todo = t :: ts) (hc : CountsAlone w i) :
    Guarded { w with
      procs := update w.procs i { todo := ts, loop := enter t (count t.chain (w.chains t.chain) t.line) } } where
  loops k u n hk := by
    rcases update_loop hk with ⟨-, hk'⟩ | ⟨-, hk'⟩
    · obtain ⟨-, rfl, hlt⟩ := enter_eq_some hk'
      exact hlt
    · exact hg.loops k u n hk'
  covered k u n hk hpos := by
    rcases update_loop hk with ⟨-, hk'⟩ | ⟨-, hk'⟩
    · obtain ⟨rfl, rfl, -⟩ := enter_eq_some hk'
      obtain ⟨hi, -⟩ := hc hloop t ts htodo ((copies_pos _ t).mp hpos)
      exact Nat.le_of_eq (count_of_no_impostor _ t.mem hi)
    · exact hg.covered k u n hk' hpos
  alone k l u n m hk hl hpos := by
    rcases update_loop hk with ⟨rfl, hk'⟩ | ⟨-, hk'⟩ <;> rcases update_loop hl with ⟨rfl, hl'⟩ | ⟨-, hl'⟩
    · rfl
    · obtain ⟨rfl, -⟩ := enter_eq_some hk'
      obtain ⟨-, hother⟩ := hc hloop t ts htodo ((copies_pos _ t).mp hpos)
      exact absurd hl' (hother l m)
    · obtain ⟨rfl, -⟩ := enter_eq_some hl'
      obtain ⟨-, hother⟩ := hc hloop t ts htodo ((copies_pos _ t).mp hpos)
      exact absurd hk' (hother k n)
    · exact hg.alone k l u n m hk' hl' hpos

theorem copies_of_erased {w : World} {t u : Target} (h : 0 < copies (erased w t) u) : 0 < copies w.chains u := by
  by_cases hu : u = t
  · subst hu
    rw [copies_erased_self] at h
    omega
  · rwa [copies_erased_ne w hu] at h

theorem delete_guarded {w : World} {i n : Nat} {t : Target} (hg : Guarded w)
    (hloop : (w.procs i).loop = some (t, n)) :
    Guarded { chains := erased w t, procs := update w.procs i { (w.procs i) with loop := enter t (n - 1) } } where
  loops k u m hk := by
    rcases update_loop hk with ⟨-, hk'⟩ | ⟨-, hk'⟩
    · obtain ⟨-, rfl, hlt⟩ := enter_eq_some hk'
      exact hlt
    · exact hg.loops k u m hk'
  covered k u m hk hpos := by
    have hbefore := copies_of_erased hpos
    rcases update_loop hk with ⟨-, hk'⟩ | ⟨hki, hk'⟩
    · obtain ⟨rfl, rfl, -⟩ := enter_eq_some hk'
      rw [copies_erased_self]
      exact Nat.sub_le_sub_right (hg.covered i t n hloop hbefore) 1
    · have hne : u ≠ t := by
        rintro rfl
        exact hki (hg.alone k i u m n hk' hloop hbefore)
      rw [copies_erased_ne w hne]
      exact hg.covered k u m hk' hbefore
  alone k l u m m' hk hl hpos := by
    -- a loop after the deletion was a loop on the same target before it
    have hsame : ∀ {k m}, (update w.procs i { (w.procs i) with loop := enter t (n - 1) } k).loop = some (u, m) →
        ∃ m', (w.procs k).loop = some (u, m') := by
      intro k m hk
      rcases update_loop hk with ⟨rfl, hk'⟩ | ⟨-, hk'⟩
      · obtain ⟨rfl, -⟩ := enter_eq_some hk'
        exact ⟨n, hloop⟩
      · exact ⟨m, hk'⟩
    obtain ⟨a, ha⟩ := hsame hk
    obtain ⟨b, hb⟩ := hsame hl
    exact hg.alone k l u a b ha hb (copies_of_erased hpos)

theorem break_guarded {w : World} {i : Nat} (hg : Guarded w) :
    Guarded { w with procs := update w.procs i { (w.procs i) with loop := none } } := by
  have hsame : ∀ {k t n}, (update w.procs i { (w.procs i) with loop := none } k).loop = some (t, n) →
      (w.procs k).loop = some (t, n) := by
    intro k t n hk
    rcases update_loop hk with ⟨-, hk'⟩ | ⟨-, hk'⟩
    · cases hk'
    · exact hk'
  exact
    { loops := fun k t n hk => hg.loops k t n (hsame hk)
      covered := fun k t n hk => hg.covered k t n (hsame hk)
      alone := fun k l t n m hk hl => hg.alone k l t n m (hsame hk) (hsame hl) }

theorem step_keeps (t₀ : Target) (w : World) (i : Nat) (hinv : Guarded w ∧ 0 < copies w.chains t₀)
    (hc : CountsAlone w i) : Guarded (step w i) ∧ 0 < copies (step w i).chains t₀ := by
  obtain ⟨hg, hpos⟩ := hinv
  cases hloop : (w.procs i).loop with
  | none =>
    cases htodo : (w.procs i).todo with
    | nil =>
      rw [step_idle hloop htodo]
      exact ⟨hg, hpos⟩
    | cons t ts =>
      rw [step_count hloop htodo]
      exact ⟨count_guarded hg hloop htodo hc, hpos⟩
  | some cur =>
    obtain ⟨t, n⟩ := cur
    by_cases hmem : t.line ∈ (w.chains t.chain).rules
    · rw [step_delete hloop hmem]
      refine ⟨delete_guarded hg hloop, ?_⟩
      by_cases ht : t₀ = t
      · subst ht
        have hn := hg.loops i t₀ n hloop
        have hle := hg.covered i t₀ n hloop hpos
        rw [copies_erased_self]
        omega
      · rw [copies_erased_ne w ht]
        exact hpos
    · rw [step_break hloop hmem]
      exact ⟨break_guarded hg, hpos⟩

/-- Whatever the runs are and however their commands interleave: while every
command that counts counts alone, a target that was there at the start is
there in every state. -/
theorem last_copy_kept (chains : ChainId → Chain) (t : Target) (ht : t.line ∈ (chains t.chain).rules)
    (pre post : List Nat) (hm : Meets step CountsAlone (start chains) (pre ++ post)) :
    t.line ∈ ((run step (start chains) pre).chains t.chain).rules := by
  have h0 : Guarded (start chains) ∧ 0 < copies (start chains).chains t :=
    ⟨start_guarded chains, (copies_pos chains t).mpr ht⟩
  obtain ⟨-, hpos⟩ := run_inv (step_keeps t) h0 hm.append.1
  exact (copies_pos _ t).mp hpos

-- ---------------------------------------------------------------------------
-- Two runs
-- ---------------------------------------------------------------------------

theorem step_procs_ne (w : World) (hj : j ≠ i) : (step w i).procs j = w.procs j := by
  unfold step
  repeat' split
  all_goals first | rfl | exact update_of_ne hj _ _

theorem run_procs_ne (w : World) (is : List Nat) (hj : j ∉ is) : (run step w is).procs j = w.procs j := by
  induction is generalizing w with
  | nil => rfl
  | cons i is ih =>
    rw [run, ih _ fun h => hj (by simp [h]), step_procs_ne w fun h => hj (by simp [h])]

abbrev AloneOfTwo (w : World) (i : Nat) : Prop :=
  (w.procs i).loop = none → ∀ t ∈ (w.procs i).todo.head?, t.line ∈ (w.chains t.chain).rules →
    (∀ other ∈ (w.chains t.chain).rules, other ≠ t.line → contains t.line other = false) ∧
      ∀ j < 2, ∀ cur ∈ (w.procs j).loop, cur.1 ≠ t

theorem countsAlone_of_two (chains : ChainId → Chain) (is : List Nat) (his : ∀ i ∈ is, i < 2)
    (h : AloneOfTwo (run step (start chains) is) i) : CountsAlone (run step (start chains) is) i := by
  intro hloop t ts htodo hmem
  obtain ⟨hother, halone⟩ := h hloop t (by rw [htodo]; rfl) hmem
  refine ⟨fun ⟨other, hin, hne, hcontains⟩ => ?_, fun j n hj => ?_⟩
  · rw [hother other hin hne] at hcontains
    cases hcontains
  · by_cases hlt : j < 2
    · exact halone j hlt _ hj rfl
    · rw [run_procs_ne _ is fun hin => hlt (his j hin)] at hj
      cases hj

def masqueradeTarget : Target := ⟨.postrouting, masqueradeLine "rmnet_data0", by decide⟩

def masqueradeTarget1 : Target := ⟨.postrouting, masqueradeLine "rmnet_data1", by decide⟩

def twoOfEach : ChainId → Chain
  | .postrouting =>
    { policy := .accept
      rules := [masqueradeTarget.line, masqueradeTarget1.line, masqueradeTarget.line, masqueradeTarget1.line] }
  | .input => { policy := .accept, rules := [] }

/-- The second run counts the first target while the first run is deleting
copies of the second one. -/
theorem last_copy_kept_overlapping :
    Meets step CountsAlone (start twoOfEach) [0, 0, 0, 1, 0, 1] ∧
      masqueradeTarget.line ∈ ((run step (start twoOfEach) [0, 0, 0, 1, 0, 1]).chains .postrouting).rules := by
  have hmeets : Meets step CountsAlone (start twoOfEach) ([0, 0, 0, 1, 0, 1] ++ []) :=
    ⟨countsAlone_of_two twoOfEach [] (by decide) (by decide),
      countsAlone_of_two twoOfEach [0] (by decide) (by decide),
      countsAlone_of_two twoOfEach [0, 0] (by decide) (by decide),
      countsAlone_of_two twoOfEach [0, 0, 0] (by decide) (by decide),
      countsAlone_of_two twoOfEach [0, 0, 0, 1] (by decide) (by decide),
      countsAlone_of_two twoOfEach [0, 0, 0, 1, 0] (by decide) (by decide), trivial⟩
  exact ⟨hmeets, last_copy_kept twoOfEach masqueradeTarget (by decide) [0, 0, 0, 1, 0, 1] [] hmeets⟩

def twoCopies : ChainId → Chain
  | .postrouting => { policy := .accept, rules := [masqueradeTarget.line, masqueradeTarget.line] }
  | .input => { policy := .accept, rules := [] }

/-- Both runs count two copies, and each deletes one. -/
theorem last_copy_lost :
    masqueradeTarget.line ∈ (twoCopies .postrouting).rules ∧
      masqueradeTarget.line ∉ ((run step (start twoCopies) [0, 1, 0, 1]).chains .postrouting).rules := by
  decide

end IpaOffload.Dedupe

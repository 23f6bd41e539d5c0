import IpaOffload.Dedupe.Script

/-!
# What a run of the script does to a packet

The rules the script looks for have the meaning `iptables` gives them; any
other rule may mean anything. The script deletes from the front, so the copy
it leaves is the last one, and where its count has taken another rule for a
copy it leaves none. A packet keeps its verdict exactly when what stands
between the first copy and the one left says the same as the rule.
-/

namespace IpaOffload.Dedupe

open FirstMatch

-- ---------------------------------------------------------------------------
-- Packets
-- ---------------------------------------------------------------------------

structure Header where
  inIface : String
  outIface : String
  tcp : Bool
  dport : Nat

inductive Verdict
  | accept
  | drop
  | masquerade
  | other (target : String)
  deriving DecidableEq, Repr

def Policy.verdict : Policy → Verdict
  | .accept => .accept
  | .drop => .drop

/-- A meaning for rules. `none` lets the packet pass on to the next rule, as
a rule does that does not match, that only logs, or whose chain returns. -/
structure RuleSem (π : Type) where
  header : π → Header
  sem : Line → π → Option Verdict
  sem_masquerade : ∀ iface ∈ ifaces, ∀ p,
    sem (masqueradeLine iface) p = if (header p).outIface = iface then some .masquerade else none
  sem_drop : ∀ iface ∈ ifaces, ∀ port ∈ ports, ∀ p,
    sem (dropLine iface port) p =
      if (header p).inIface = iface ∧ (header p).tcp = true ∧ (header p).dport = port then some .drop else none

variable {π : Type} (S : RuleSem π)

def Chain.verdict (chain : Chain) (p : π) : Verdict :=
  FirstMatch.verdict S.sem chain.policy.verdict chain.rules p

variable {S} {p : π} {c : ChainId}

theorem RuleSem.targets_exclusive (h : line ∈ targets c) (ho : other ∈ targets c)
    (hs : S.sem line p ≠ none) (hos : S.sem other p ≠ none) : other = line := by
  cases c with
  | postrouting =>
    obtain ⟨iface, hi, rfl⟩ := List.mem_map.mp h
    obtain ⟨iface', hi', rfl⟩ := List.mem_map.mp ho
    rw [S.sem_masquerade iface hi, ne_eq, ite_eq_right_iff, not_forall] at hs
    rw [S.sem_masquerade iface' hi', ne_eq, ite_eq_right_iff, not_forall] at hos
    obtain ⟨rfl, -⟩ := hs
    obtain ⟨rfl, -⟩ := hos
    rfl
  | input =>
    obtain ⟨iface, hi, hm⟩ := List.mem_flatMap.mp h
    obtain ⟨port, hp, rfl⟩ := List.mem_map.mp hm
    obtain ⟨iface', hi', hm'⟩ := List.mem_flatMap.mp ho
    obtain ⟨port', hp', rfl⟩ := List.mem_map.mp hm'
    rw [S.sem_drop iface hi port hp, ne_eq, ite_eq_right_iff, not_forall] at hs
    rw [S.sem_drop iface' hi' port' hp', ne_eq, ite_eq_right_iff, not_forall] at hos
    obtain ⟨⟨rfl, -, rfl⟩, -⟩ := hs
    obtain ⟨⟨rfl, -, rfl⟩, -⟩ := hos
    rfl

-- ---------------------------------------------------------------------------
-- One target at a time
-- ---------------------------------------------------------------------------

@[simp] theorem dedupeRule_policy (c : ChainId) (chain : Chain) (line : Line) :
    (dedupeRule c chain line).policy = chain.policy := by
  rw [dedupeRule_rules]

theorem foldl_policy (c : ChainId) (ts : List Line) (chain : Chain) :
    (ts.foldl (dedupeRule c) chain).policy = chain.policy := by
  induction ts generalizing chain with
  | nil => rfl
  | cons t ts ih => rw [List.foldl_cons, ih, dedupeRule_policy]

theorem count_foldl {ts : List Line} (chain : Chain) (h : line ∈ targets c) (hts : ∀ t ∈ ts, t ∈ targets c)
    (hne : line ∉ ts) : count c (ts.foldl (dedupeRule c) chain) line = count c chain line := by
  induction ts generalizing chain with
  | nil => rfl
  | cons t ts ih =>
    have ht : t ∈ targets c := hts t (by simp)
    have hneq : t ≠ line := by
      rintro rfl
      exact hne (by simp)
    rw [List.foldl_cons, ih _ (fun x hx => hts x (by simp [hx])) (fun hx => hne (by simp [hx])),
      count_dedupeRule c chain h ht hneq]

theorem verdict_foldl (policy : Verdict) {ts : List Line} (hnone : ∀ t ∈ ts, S.sem t p = none) (line : Line)
    (n : Nat) (chain : Chain) :
    verdict S.sem policy (eraseN line n (ts.foldl (dedupeRule c) chain).rules) p =
      verdict S.sem policy (eraseN line n chain.rules) p := by
  induction ts generalizing chain with
  | nil => rfl
  | cons t ts ih =>
    have ht : S.sem t p = none := hnone t (by simp)
    rw [List.foldl_cons, ih (fun x hx => hnone x (by simp [hx])), dedupeRule_rules, eraseN_comm,
      verdict_eraseN ht]

theorem dedupe_verdict_none (chain : Chain) (h : ∀ t ∈ targets c, S.sem t p = none) :
    (dedupe c chain).verdict S p = chain.verdict S p := by
  unfold Chain.verdict dedupe
  rw [foldl_policy]
  exact verdict_foldl _ h [] 0 chain

theorem dedupe_verdict_some (chain : Chain) (h : line ∈ targets c) (hs : S.sem line p ≠ none) :
    (dedupe c chain).verdict S p =
      verdict S.sem chain.policy.verdict (eraseN line (count c chain line - 1) chain.rules) p := by
  obtain ⟨as, bs, hsplit, has, hbs⟩ := targets_split h
  have hmem : ∀ t, t ∈ as ∨ t ∈ bs → t ∈ targets c := by
    intro t ht
    rw [hsplit]
    rcases ht with ht | ht <;> simp [ht]
  -- the two ends of the list of targets do not decide the packet
  have hquiet : ∀ t, t ∈ as ∨ t ∈ bs → S.sem t p = none := by
    intro t ht
    by_contra hne
    obtain rfl := RuleSem.targets_exclusive h (hmem t ht) hs hne
    exact ht.elim has hbs
  have hcount := count_foldl chain h (fun t ht => hmem t (.inl ht)) has
  have hbsv := verdict_foldl (c := c) chain.policy.verdict (fun t ht => hquiet t (.inr ht)) line 0
  have hasv := verdict_foldl (c := c) chain.policy.verdict (fun t ht => hquiet t (.inl ht)) line
  unfold Chain.verdict dedupe
  rw [foldl_policy, hsplit, List.foldl_append, List.foldl_cons]
  refine (hbsv _).trans ?_
  rw [dedupeRule_rules, hcount]
  exact hasv _ chain

-- ---------------------------------------------------------------------------
-- The copy that is left
-- ---------------------------------------------------------------------------

/-- What the script takes away from under a packet does not matter to it.
Where no rule before the first copy of the target decides the packet, what
then decides it says `v` too: the rules between the first copy and the last
where the last copy stays, and all that follow where no copy does. -/
structure Undisturbed (S : RuleSem π) (chain : Chain) (p : π) (line : Line) (v : Verdict) : Prop where
  kept : ¬ Impostor line chain.rules → ∀ pre mid suf, chain.rules = pre ++ line :: (mid ++ line :: suf) →
    line ∉ pre → line ∉ suf → (∀ x ∈ pre, S.sem x p = none) → verdict S.sem v (others line mid) p = v
  lost : Impostor line chain.rules → ∀ pre post, chain.rules = pre ++ line :: post →
    line ∉ pre → (∀ x ∈ pre, S.sem x p = none) → verdict S.sem chain.policy.verdict (others line post) p = v

theorem count_of_impostor (chain : Chain) (h : line ∈ targets c) (hi : Impostor line chain.rules) :
    chain.rules.count line ≤ count c chain line - 1 := by
  rw [impostor_iff] at hi
  rw [count_eq_countP c chain h, countP_contains]
  omega

theorem count_of_no_impostor (chain : Chain) (h : line ∈ targets c) (hi : ¬ Impostor line chain.rules) :
    count c chain line = chain.rules.count line := by
  rw [impostor_iff] at hi
  rw [count_eq_countP c chain h, countP_contains]
  omega

section
variable {chain : Chain} {pre post mid suf : List Line} (h : line ∈ targets c)
include h

theorem eraseN_lost (hi : Impostor line chain.rules) (hrules : chain.rules = pre ++ line :: post)
    (hpre : line ∉ pre) : eraseN line (count c chain line - 1) chain.rules = pre ++ others line post := by
  have hcount := count_of_impostor chain h hi
  rw [hrules, List.count_append, List.count_eq_zero_of_not_mem hpre, Nat.zero_add] at hcount
  rw [hrules, eraseN_append hpre, eraseN_all]
  · simp [others]
  · exact hcount

theorem eraseN_kept (hi : ¬ Impostor line chain.rules)
    (hrules : chain.rules = pre ++ line :: (mid ++ line :: suf)) (hpre : line ∉ pre) (hsuf : line ∉ suf) :
    eraseN line (count c chain line - 1) chain.rules = pre ++ (others line mid ++ line :: suf) := by
  have hcount : count c chain line - 1 = mid.count line + 1 := by
    rw [count_of_no_impostor chain h hi, hrules, List.count_append, List.count_eq_zero_of_not_mem hpre,
      List.count_cons_self, List.count_append, List.count_cons_self, List.count_eq_zero_of_not_mem hsuf]
    omega
  rw [hcount, hrules, eraseN_append hpre, eraseN_cons_self, eraseN_count]

theorem eraseN_single (hi : ¬ Impostor line chain.rules) (hrules : chain.rules = pre ++ line :: post)
    (hpre : line ∉ pre) (hpost : line ∉ post) :
    eraseN line (count c chain line - 1) chain.rules = chain.rules := by
  have hcount : count c chain line - 1 = 0 := by
    rw [count_of_no_impostor chain h hi, hrules, List.count_append, List.count_eq_zero_of_not_mem hpre,
      List.count_cons_self, List.count_eq_zero_of_not_mem hpost]
  rw [hcount, eraseN]

end

theorem erased_verdict_iff (chain : Chain) (h : line ∈ targets c) (hs : S.sem line p = some v) :
    verdict S.sem chain.policy.verdict (eraseN line (count c chain line - 1) chain.rules) p = chain.verdict S p ↔
      Undisturbed S chain p line v := by
  unfold Chain.verdict
  constructor
  · intro heq
    constructor
    · intro hi pre mid suf hrules hpre hsuf hquiet
      rw [eraseN_kept h hi hrules hpre hsuf, hrules, verdict_past hquiet, verdict_past hquiet, verdict_append,
        verdict_head hs, verdict_head hs] at heq
      exact heq
    · intro hi pre post hrules hpre hquiet
      rw [eraseN_lost h hi hrules hpre, hrules, verdict_past hquiet, verdict_past hquiet, verdict_head hs] at heq
      exact heq
  · rintro ⟨hkept, hlost⟩
    by_cases hmem : line ∈ chain.rules
    · obtain ⟨pre, post, hrules, hpre⟩ := List.eq_append_cons_of_mem hmem
      by_cases hi : Impostor line chain.rules
      · rw [eraseN_lost h hi hrules hpre]
        by_cases hquiet : ∀ x ∈ pre, S.sem x p = none
        · rw [hrules, verdict_past hquiet, verdict_past hquiet, verdict_head hs]
          exact hlost hi pre post hrules hpre hquiet
        · rw [hrules]
          exact verdict_decided hquiet _ _
      · by_cases hpost : line ∈ post
        · obtain ⟨mid, suf, rfl, hsuf⟩ := exists_last hpost
          rw [eraseN_kept h hi hrules hpre hsuf]
          by_cases hquiet : ∀ x ∈ pre, S.sem x p = none
          · rw [hrules, verdict_past hquiet, verdict_past hquiet, verdict_append, verdict_head hs, verdict_head hs]
            exact hkept hi pre mid suf hrules hpre hsuf hquiet
          · rw [hrules]
            exact verdict_decided hquiet _ _
        · rw [eraseN_single h hi hrules hpre hpost]
    · rw [eraseN_of_not_mem hmem]

/-- A run of the script keeps the verdict of a packet exactly when it does not
disturb the target that matches the packet. -/
theorem dedupe_keeps_verdict_iff (S : RuleSem π) (c : ChainId) (chain : Chain) (p : π) :
    (dedupe c chain).verdict S p = chain.verdict S p ↔
      ∀ line ∈ targets c, ∀ v, S.sem line p = some v → Undisturbed S chain p line v := by
  constructor
  · intro heq line h v hs
    have hne : S.sem line p ≠ none := by simp [hs]
    rw [dedupe_verdict_some chain h hne] at heq
    exact (erased_verdict_iff chain h hs).mp heq
  · intro hall
    by_cases hquiet : ∀ t ∈ targets c, S.sem t p = none
    · exact dedupe_verdict_none chain hquiet
    · simp only [not_forall] at hquiet
      obtain ⟨line, h, hne⟩ := hquiet
      obtain ⟨v, hs⟩ := Option.ne_none_iff_exists'.mp hne
      rw [dedupe_verdict_some chain h hne]
      exact (erased_verdict_iff chain h hs).mpr (hall line h v hs)

-- ---------------------------------------------------------------------------
-- Two copies with an ACCEPT between them
-- ---------------------------------------------------------------------------

def acceptLine : Line := "-A INPUT -j ACCEPT".toList

theorem masqueradeLine_ne_acceptLine (iface : String) : masqueradeLine iface ≠ acceptLine := by
  unfold acceptLine masqueradeLine
  simp

theorem dropLine_ne_acceptLine (iface : String) (port : Nat) : dropLine iface port ≠ acceptLine := by
  unfold acceptLine dropLine
  simp

def plainSem : RuleSem Header where
  header := id
  sem line p :=
    if line = acceptLine then some .accept
    else if ∃ iface ∈ ifaces, line = masqueradeLine iface ∧ p.outIface = iface then some .masquerade
    else if ∃ iface ∈ ifaces, ∃ port ∈ ports,
        line = dropLine iface port ∧ p.inIface = iface ∧ p.tcp = true ∧ p.dport = port then some .drop
    else none
  sem_masquerade := by
    intro iface h p
    rw [if_neg (masqueradeLine_ne_acceptLine iface)]
    by_cases hp : p.outIface = iface
    · rw [if_pos ⟨iface, h, rfl, hp⟩]
      exact (if_pos hp).symm
    · rw [if_neg, if_neg]
      · exact (if_neg hp).symm
      · rintro ⟨iface', -, port, -, heq, -⟩
        exact dropLine_ne_masqueradeLine iface' iface port heq.symm
      · rintro ⟨iface', -, heq, hout⟩
        exact hp (masqueradeLine_inj.mp heq ▸ hout)
  sem_drop := by
    intro iface h port hport p
    rw [if_neg (dropLine_ne_acceptLine iface port), if_neg]
    · by_cases hp : p.inIface = iface ∧ p.tcp = true ∧ p.dport = port
      · rw [if_pos ⟨iface, h, port, hport, rfl, hp⟩]
        exact (if_pos hp).symm
      · rw [if_neg]
        · exact (if_neg hp).symm
        · rintro ⟨iface', h', port', hport', heq, hmatch⟩
          obtain ⟨rfl, rfl⟩ := dropLine_inj h hport h' hport' heq
          exact hp hmatch
    · rintro ⟨iface', -, heq, -⟩
      exact dropLine_ne_masqueradeLine iface iface' port heq

def webPacket : Header where
  inIface := "rmnet_data0"
  outIface := "eth0"
  tcp := true
  dport := 80

def guardedInput : Chain where
  policy := .accept
  rules := [dropLine "rmnet_data0" 80, acceptLine, dropLine "rmnet_data0" 80]

/-- The port is closed before the run and open after it. -/
theorem dedupe_opens_port :
    guardedInput.verdict plainSem webPacket = .drop ∧
      (dedupe .input guardedInput).verdict plainSem webPacket = .accept := by
  decide +kernel

end IpaOffload.Dedupe

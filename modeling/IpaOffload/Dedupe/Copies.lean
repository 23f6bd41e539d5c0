import IpaOffload.Dedupe.Sequential

/-!
# What a run of the script leaves of a chain

A run deletes copies of the rules the script looks for and nothing else, and a
second run finds nothing more to delete. One copy of a rule is left where the
script's count is the number of copies. Where the line of another rule has the
text of the rule in it, the count is too high and no copy is left.
-/

namespace IpaOffload.Dedupe

open FirstMatch

variable {c : ChainId} {ts : List Line}

-- ---------------------------------------------------------------------------
-- What the deletions leave alone
-- ---------------------------------------------------------------------------

theorem filter_foldl {f : Line → Bool} (chain : Chain) (h : ∀ t ∈ ts, f t = false) :
    (ts.foldl (dedupeRule c) chain).rules.filter f = chain.rules.filter f := by
  induction ts generalizing chain with
  | nil => rfl
  | cons t ts ih =>
    have ht : f t = false := h t (by simp)
    rw [List.foldl_cons, ih _ (fun x hx => h x (by simp [hx])), dedupeRule_rules, filter_eraseN ht]

theorem foldl_sublist (ts : List Line) (chain : Chain) :
    (ts.foldl (dedupeRule c) chain).rules.Sublist chain.rules := by
  induction ts generalizing chain with
  | nil => exact List.Sublist.refl _
  | cons t ts ih =>
    rw [List.foldl_cons]
    refine (ih _).trans ?_
    rw [dedupeRule_rules]
    exact eraseN_sublist _ _ _

theorem rules_count_foldl (chain : Chain) (h : line ∉ ts) :
    (ts.foldl (dedupeRule c) chain).rules.count line = chain.rules.count line := by
  have hf : ∀ t ∈ ts, (t == line) = false := by
    intro t ht
    rw [beq_eq_false_iff_ne]
    rintro rfl
    exact h ht
  rw [List.count_eq_length_filter, List.count_eq_length_filter, filter_foldl chain hf]

-- ---------------------------------------------------------------------------
-- How many copies a run leaves
-- ---------------------------------------------------------------------------

theorem rules_count_dedupe (chain : Chain) (h : line ∈ targets c) :
    (dedupe c chain).rules.count line = chain.rules.count line - (count c chain line - 1) := by
  obtain ⟨as, bs, hsplit, has, hbs⟩ := targets_split h
  have hmem : ∀ t ∈ as, t ∈ targets c := by
    intro t ht
    simp [hsplit, ht]
  unfold dedupe
  rw [hsplit, List.foldl_append, List.foldl_cons, rules_count_foldl _ hbs, dedupeRule_rules, count_eraseN_self,
    count_foldl chain h hmem has, rules_count_foldl _ has]

theorem impostor_dedupe (chain : Chain) (h : line ∈ targets c) :
    Impostor line (dedupe c chain).rules ↔ Impostor line chain.rules := by
  have hf : ∀ t ∈ targets c, (contains line t && t != line) = false := by
    intro t ht
    by_cases hne : t = line
    · simp [hne]
    · simp [targets_apart c h ht hne]
  rw [impostor_iff, impostor_iff]
  simp only [others, List.countP_eq_length_filter, List.filter_filter]
  rw [dedupe, filter_foldl chain hf]

theorem rules_count_dedupe_kept (chain : Chain) (h : line ∈ targets c) (hi : ¬ Impostor line chain.rules) :
    (dedupe c chain).rules.count line = min (chain.rules.count line) 1 := by
  rw [rules_count_dedupe chain h, count_of_no_impostor chain h hi]
  omega

theorem rules_count_dedupe_lost (chain : Chain) (h : line ∈ targets c) (hi : Impostor line chain.rules) :
    (dedupe c chain).rules.count line = 0 := by
  have hle := count_of_impostor chain h hi
  rw [rules_count_dedupe chain h]
  omega

-- ---------------------------------------------------------------------------
-- A second run
-- ---------------------------------------------------------------------------

theorem foldl_eq_self (chain : Chain) (h : ∀ t ∈ ts, dedupeRule c chain t = chain) :
    ts.foldl (dedupeRule c) chain = chain := by
  induction ts with
  | nil => rfl
  | cons t ts ih =>
    rw [List.foldl_cons, h t (by simp)]
    exact ih fun x hx => h x (by simp [hx])

theorem dedupeRule_again (chain : Chain) (h : line ∈ targets c) :
    dedupeRule c (dedupe c chain) line = dedupe c chain := by
  rw [dedupeRule_rules]
  by_cases hi : Impostor line chain.rules
  · have hnot : line ∉ (dedupe c chain).rules := List.count_eq_zero.mp (rules_count_dedupe_lost chain h hi)
    rw [eraseN_of_not_mem hnot]
  · have hone : count c (dedupe c chain) line - 1 = 0 := by
      rw [count_of_no_impostor _ h (mt (impostor_dedupe chain h).mp hi), rules_count_dedupe_kept chain h hi]
      omega
    rw [hone, eraseN]

theorem dedupe_again (chain : Chain) : dedupe c (dedupe c chain) = dedupe c chain :=
  foldl_eq_self _ fun _ h => dedupeRule_again chain h

-- ---------------------------------------------------------------------------
-- One copy and nothing else
-- ---------------------------------------------------------------------------

def untargeted (c : ChainId) (rules : List Line) : List Line := rules.filter fun line => !(targets c).contains line

/-- `chain'` has one copy of each target that `chain` has, the other rules as
they were, and is left alone by the script. -/
structure KeepsOne (c : ChainId) (chain chain' : Chain) : Prop where
  copies : ∀ line ∈ targets c, chain'.rules.count line = min (chain.rules.count line) 1
  rest : untargeted c chain'.rules = untargeted c chain.rules
  order : chain'.rules.Sublist chain.rules
  policy : chain'.policy = chain.policy
  again : dedupe c chain' = chain'

/-- A run keeps one copy of each target and changes nothing else exactly when
no rule it finds has its text in the line of another. -/
theorem dedupe_keeps_one_iff (chains : ChainId → Chain) :
    (∀ c, KeepsOne c (chains c) (dedupe c (chains c))) ↔
      ∀ c, ∀ line ∈ targets c, line ∈ (chains c).rules → ¬ Impostor line (chains c).rules := by
  constructor
  · intro hall c line h hmem hi
    have hone := (hall c).copies line h
    have hpos := List.count_pos_iff.mpr hmem
    rw [rules_count_dedupe_lost (chains c) h hi] at hone
    omega
  · intro hclean c
    constructor
    · intro line h
      by_cases hmem : line ∈ (chains c).rules
      · exact rules_count_dedupe_kept (chains c) h (hclean c line h hmem)
      · have hzero := List.count_eq_zero.mpr hmem
        simp [rules_count_dedupe (chains c) h, hzero]
    · refine filter_foldl (chains c) fun t ht => ?_
      simp [ht]
    · exact foldl_sublist _ _
    · exact foldl_policy c _ _
    · exact dedupe_again _

-- ---------------------------------------------------------------------------
-- A rule with `--random-fully`
-- ---------------------------------------------------------------------------

def randomFully : Chain where
  policy := .accept
  rules := [masqueradeLine "rmnet_data0", masqueradeLine "rmnet_data0" ++ "-fully".toList]

/-- The only copy of the rule is deleted. -/
theorem dedupe_deletes_only_copy :
    masqueradeLine "rmnet_data0" ∈ targets .postrouting ∧
      randomFully.rules.count (masqueradeLine "rmnet_data0") = 1 ∧
      (dedupe .postrouting randomFully).rules.count (masqueradeLine "rmnet_data0") = 0 ∧
      ¬ KeepsOne .postrouting randomFully (dedupe .postrouting randomFully) := by
  have hmem : masqueradeLine "rmnet_data0" ∈ targets .postrouting := by decide +kernel
  have hbefore : randomFully.rules.count (masqueradeLine "rmnet_data0") = 1 := by decide +kernel
  have hafter : (dedupe .postrouting randomFully).rules.count (masqueradeLine "rmnet_data0") = 0 := by
    decide +kernel
  refine ⟨hmem, hbefore, hafter, fun hkeeps => ?_⟩
  have hone := hkeeps.copies _ hmem
  rw [hbefore, hafter] at hone
  cases hone

end IpaOffload.Dedupe

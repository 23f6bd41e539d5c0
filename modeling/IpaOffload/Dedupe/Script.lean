import IpaOffload.Lib.FirstMatch

/-!
# `ipa-iptables-dedupe.sh`

The script counts the lines of `iptables -S` that contain the text of a rule
and then deletes the rule, one copy at a time, until by its own count one is
left. A rule is the line `iptables -S` prints for it; `iptables -D` deletes
the first rule equal to its argument and fails where there is none. The
backups of the rule set that the script also keeps are not modelled.
-/

namespace IpaOffload.Dedupe

open FirstMatch

abbrev Line := List Char

-- ---------------------------------------------------------------------------
-- Chains
-- ---------------------------------------------------------------------------

/-- The two chains the script works on: `POSTROUTING` of the table `nat`, and
`INPUT`. -/
inductive ChainId
  | postrouting
  | input
  deriving DecidableEq, Repr

inductive Policy
  | accept
  | drop
  deriving DecidableEq, Repr

structure Chain where
  policy : Policy
  rules : List Line

def chainName : ChainId → String
  | .postrouting => "POSTROUTING"
  | .input => "INPUT"

def policyLine (c : ChainId) (policy : Policy) : Line :=
  ("-P " ++ chainName c ++ match policy with | .accept => " ACCEPT" | .drop => " DROP").toList

/-- `iptables -S`. -/
def listing (c : ChainId) (chain : Chain) : List Line := policyLine c chain.policy :: chain.rules

/-- `iptables -D`: `none` where it fails. -/
def Chain.delete (chain : Chain) (line : Line) : Option Chain :=
  if line ∈ chain.rules then some { chain with rules := chain.rules.erase line } else none

-- ---------------------------------------------------------------------------
-- The script
-- ---------------------------------------------------------------------------

def ifaces : List String := ["rmnet_data0", "rmnet_data1"]

def ports : List Nat := [80, 443]

def masqueradeLine (iface : String) : Line :=
  ("-A POSTROUTING -o " ++ iface ++ " -j MASQUERADE --random").toList

def dropLine (iface : String) (port : Nat) : Line :=
  ("-A INPUT -i " ++ iface ++ " -p tcp -m tcp --dport " ++ toString port ++ " -j DROP").toList

def targets : ChainId → List Line
  | .postrouting => ifaces.map masqueradeLine
  | .input => ifaces.flatMap fun iface => ports.map (dropLine iface)

/-- `grep -F`: `pat` stands somewhere in the line. -/
def contains (pat : Line) : Line → Bool
  | [] => pat.isPrefixOf []
  | c :: cs => pat.isPrefixOf (c :: cs) || contains pat cs

/-- `iptables -S | grep -F -- line | wc -l`. -/
def count (c : ChainId) (chain : Chain) (line : Line) : Nat :=
  ((listing c chain).filter (contains line)).length

/-- `while [ "$count" -gt 1 ]`, left early when a deletion fails. -/
def dedupeLoop (line : Line) : (count : Nat) → Chain → Chain
  | count + 2, chain =>
    match chain.delete line with
    | none => chain
    | some chain' => dedupeLoop line (count + 1) chain'
  | _, chain => chain

def dedupeRule (c : ChainId) (chain : Chain) (line : Line) : Chain :=
  dedupeLoop line (count c chain line) chain

def dedupe (c : ChainId) (chain : Chain) : Chain := (targets c).foldl (dedupeRule c) chain

-- ---------------------------------------------------------------------------
-- Counting and deleting
-- ---------------------------------------------------------------------------

theorem masqueradeLine_inj : masqueradeLine iface = masqueradeLine iface' ↔ iface = iface' := by
  simp [masqueradeLine, String.toList_inj]

theorem dropLine_ne_masqueradeLine (iface iface' : String) (port : Nat) :
    dropLine iface port ≠ masqueradeLine iface' := by
  simp [masqueradeLine, dropLine]

theorem dropLine_inj (h : iface ∈ ifaces) (hport : port ∈ ports) (h' : iface' ∈ ifaces) (hport' : port' ∈ ports)
    (heq : dropLine iface port = dropLine iface' port') : iface = iface' ∧ port = port' := by
  -- the names are of one length, so that what follows them starts at the same place
  have hlength : ∀ iface ∈ ifaces, iface.toList.length = 11 := by simp [ifaces]
  have hports : ∀ port ∈ ports, ∀ port' ∈ ports, (toString port).toList = (toString port').toList → port = port' := by
    decide +kernel
  simp only [dropLine, String.toList_append, List.append_assoc, List.append_cancel_left_eq] at heq
  obtain ⟨hiface, hrest⟩ := List.append_inj heq ((hlength _ h).trans (hlength _ h').symm)
  simp only [List.append_cancel_left_eq, List.append_cancel_right_eq] at hrest
  exact ⟨String.toList_inj.mp hiface, hports _ hport _ hport' hrest⟩

theorem contains_self (line : Line) : contains line line = true := by
  cases line with
  | nil => rfl
  | cons c cs =>
    have h : (c :: cs).isPrefixOf (c :: cs) = true := List.isPrefixOf_iff_prefix.mpr List.prefix_rfl
    simp only [contains, h, Bool.true_or]

theorem length_le_of_contains (h : contains pat line = true) : pat.length ≤ line.length := by
  induction line with
  | nil => exact (List.isPrefixOf_iff_prefix.mp h).length_le
  | cons c cs ih =>
    rcases Bool.or_eq_true_iff.mp h with hhere | hrest
    · exact (List.isPrefixOf_iff_prefix.mp hhere).length_le
    · exact Nat.le_succ_of_le (ih hrest)

theorem length_target (h : line ∈ targets c) : 40 ≤ line.length := by
  cases c with
  | postrouting =>
    obtain ⟨iface, -, rfl⟩ := List.mem_map.mp h
    simp [masqueradeLine]
  | input =>
    obtain ⟨iface, -, hmem⟩ := List.mem_flatMap.mp h
    obtain ⟨port, -, rfl⟩ := List.mem_map.mp hmem
    simp [dropLine]
    omega

theorem length_policyLine (c : ChainId) (policy : Policy) : (policyLine c policy).length < 40 := by
  cases c <;> cases policy <;> simp [policyLine, chainName]

/-- No policy line contains the text of a target: it is too short. -/
theorem policyLine_apart (c : ChainId) (policy : Policy) (h : line ∈ targets c) :
    contains line (policyLine c policy) = false := by
  have hshort := length_policyLine c policy
  have hlong := length_target h
  refine Bool.eq_false_iff.mpr fun hc => ?_
  have hle := length_le_of_contains hc
  omega

theorem targets_apart (c : ChainId) (h : line ∈ targets c) (ho : other ∈ targets c) (hne : other ≠ line) :
    contains line other = false := by
  have hall : ∀ line ∈ targets c, ∀ other ∈ targets c, other ≠ line → contains line other = false := by
    cases c <;> decide +kernel
  exact hall line h other ho hne

theorem targets_nodup (c : ChainId) : (targets c).Nodup := by
  cases c <;> decide +kernel

theorem targets_split (h : line ∈ targets c) : ∃ as bs, targets c = as ++ line :: bs ∧ line ∉ as ∧ line ∉ bs := by
  obtain ⟨as, bs, hsplit⟩ := List.append_of_mem h
  have hnodup := targets_nodup c
  rw [hsplit, List.nodup_append, List.nodup_cons] at hnodup
  obtain ⟨-, ⟨hbs, -⟩, hdisj⟩ := hnodup
  exact ⟨as, bs, hsplit, fun has => hdisj line has line (by simp) rfl, hbs⟩

/-- Another line of the chain has the text of the rule in it. -/
def Impostor (line : Line) (rules : List Line) : Prop :=
  ∃ other ∈ rules, other ≠ line ∧ contains line other = true

theorem count_eq_countP (c : ChainId) (chain : Chain) (h : line ∈ targets c) :
    count c chain line = chain.rules.countP (contains line) := by
  unfold count listing
  rw [List.filter_cons_of_neg (by simp [policyLine_apart c _ h]), List.countP_eq_length_filter]

theorem countP_contains (line : Line) (rules : List Line) :
    rules.countP (contains line) = rules.count line + (others line rules).countP (contains line) := by
  induction rules with
  | nil => rfl
  | cons x rules ih =>
    by_cases hx : x = line
    · subst hx
      rw [List.countP_cons_of_pos (contains_self x), List.count_cons_self, ih]
      simp only [others, List.filter_cons, bne_self_eq_false, Bool.false_eq_true, ↓reduceIte]
      omega
    · have hother : others line (x :: rules) = x :: others line rules := by simp [others, hx]
      rw [hother, List.count_cons_of_ne hx]
      by_cases hc : contains line x = true
      · rw [List.countP_cons_of_pos hc, List.countP_cons_of_pos hc, ih]
        omega
      · rw [List.countP_cons_of_neg hc, List.countP_cons_of_neg hc, ih]

theorem impostor_iff (line : Line) (rules : List Line) :
    Impostor line rules ↔ 0 < (others line rules).countP (contains line) := by
  rw [List.countP_pos_iff]
  simp only [Impostor, others, List.mem_filter, bne_iff_ne, and_assoc]

theorem dedupeLoop_rules (line : Line) (n : Nat) (chain : Chain) :
    dedupeLoop line n chain = { chain with rules := eraseN line (n - 1) chain.rules } := by
  induction n generalizing chain with
  | zero => rfl
  | succ n ih =>
    cases n with
    | zero => rfl
    | succ n =>
      unfold dedupeLoop Chain.delete
      by_cases hmem : line ∈ chain.rules
      · rw [if_pos hmem]
        dsimp only
        simp only [ih, Nat.add_sub_cancel, eraseN]
      · rw [if_neg hmem, eraseN_of_not_mem hmem]

theorem dedupeRule_rules (c : ChainId) (chain : Chain) (line : Line) :
    dedupeRule c chain line = { chain with rules := eraseN line (count c chain line - 1) chain.rules } :=
  dedupeLoop_rules _ _ _

theorem count_dedupeRule (c : ChainId) (chain : Chain) (h : line ∈ targets c) (ho : other ∈ targets c)
    (hne : other ≠ line) : count c (dedupeRule c chain other) line = count c chain line := by
  have hapart := targets_apart c h ho hne
  rw [count_eq_countP c _ h, count_eq_countP c _ h, dedupeRule_rules, countP_eraseN hapart]

end IpaOffload.Dedupe

import IpaOffload.Bridge.QueryLaws
import IpaOffload.Bridge.IoctlLaws
import Mathlib.Algebra.Order.BigOperators.Group.Finset

/-!
# When an answer is rewritten

What the query handlers do to memory is one decision, taken from the
configuration, the name and the scores of the answer under both layouts.
-/

namespace IpaOffload.Bridge

open ByteMem StateFrame

-- ---------------------------------------------------------------------------
-- Code that only logs
-- ---------------------------------------------------------------------------

section
variable {σ : Type} {P : Platform σ} {w : World σ} {q : Nat}

structure Muted (x : Proc σ α) : Prop where
  silent : Preserves World.silent x
  keepsCfg : KeepsCfg x

theorem logLines_muted (pieces : List Piece) : Muted (logLines P pieces) :=
  ⟨logLines_silent _, logLines_keepsCfg _⟩

theorem logHexdumpOnce_muted (tag : String) (ifname : Bytes) (buf len type : Nat) :
    Muted (logHexdumpOnce P tag ifname buf len type) :=
  ⟨logHexdumpOnce_silent _ _ _ _ _, logHexdumpOnce_keepsCfg _ _ _ _ _⟩

theorem Muted.forM {β : Type} {body : β → Proc σ Unit} (l : List β) (h : ∀ b, Muted (body b)) : Muted (l.forM body) :=
  ⟨Preserves.forM l fun b => (h b).silent, KeepsCfg.forM l fun b => (h b).keepsCfg⟩

def Ends (x : Proc σ α) (w : World σ) (m : Mem) : Prop :=
  (x.run w).2.mem = m ∧ (x.run w).2.cfg = w.cfg

theorem Muted.ends {x : Proc σ α} (h : Muted x) (hl : w.cfg.loaded = true) : Ends x w w.mem :=
  ⟨congrArg Silent.mem (h.silent w), h.keepsCfg w hl⟩

theorem Ends.bind {x : Proc σ α} {k : α → Proc σ β} (hx : Ends x w m)
    (hk : ∀ a w', w'.mem = m → w'.cfg = w.cfg → Ends (k a) w' m') : Ends (x >>= k) w m' := by
  obtain ⟨hmem, hcfg⟩ := hk (x.run w).1 (x.run w).2 hx.1 hx.2
  exact ⟨hmem, hcfg.trans hx.2⟩

theorem Ends.modifyMem (f : Mem → Mem) (w : World σ) : Ends (modifyMem f) w (f w.mem) := ⟨rfl, rfl⟩

-- ---------------------------------------------------------------------------
-- The decision
-- ---------------------------------------------------------------------------

structure Gated (c : BridgeCfg) (on : Bool) (m : Mem) (q : Nat) : Prop where
  pointer : q ≠ 0
  on : on = true
  allowed : c.ifaceAllowed (nameAt m q) = true
  count : rd32 m (q + 32) ≠ 0 ∧ rd32 m (q + 32) ≤ maxProps
  translate : c.ifaceTranslateAllowed (nameAt m q) = true

def TxRewrites (L : TxLayout) (c : BridgeCfg) (m : Mem) (q : Nat) : Prop :=
  Gated c c.tx m q ∧ rd32 m (q + 32) * 4 ≤ oldTxScore m q (rd32 m (q + 32)) ∧
    newTxScore L m q (rd32 m (q + 32)) < rd32 m (q + 32) * 4

def RxRewrites (L : RxLayout) (c : BridgeCfg) (m : Mem) (q : Nat) : Prop :=
  Gated c c.rx m q ∧ rd32 m (q + 32) * 3 ≤ oldRxScore m q (rd32 m (q + 32)) ∧
    newRxScore L m q (rd32 m (q + 32)) < rd32 m (q + 32) * 3

theorem logTxProps_muted (tag : String) (name : Bytes) (m : Mem)
    (base n stride offDst offAlt offHdr offL2 : Nat) :
    Muted (logTxProps P tag name m base n stride offDst offAlt offHdr offL2) :=
  Muted.forM _ fun _ => logLines_muted _

theorem logRxProps_muted (tag : String) (name : Bytes) (m : Mem) (base n stride offSrc offL2 : Nat) :
    Muted (logRxProps P tag name m base n stride offSrc offL2) :=
  Muted.forM _ fun _ => logLines_muted _

theorem handler_ends {skip bad c : Prop} [Decidable skip] [Decidable bad] [Decidable c] {f : Mem → Mem}
    {badLog before₁ before₂ after : Proc σ Unit} {last : World σ → Proc σ Unit} (hl : w.cfg.loaded = true)
    (hbad : Muted badLog) (h₁ : Muted before₁) (h₂ : Muted before₂) (h₃ : Muted after)
    (h₄ : ∀ w, Muted (last w)) :
    Ends (if skip then pure () else if bad then badLog else do
      before₁
      before₂
      if c then modifyMem f else pure ()
      after
      let w' ← get
      last w') w (if ¬ skip ∧ ¬ bad ∧ c then f w.mem else w.mem) := by
  by_cases hs : skip
  · simp only [hs, not_true, false_and, if_true, if_false]
    exact ⟨rfl, rfl⟩
  by_cases hb : bad
  · simp only [hs, hb, not_true, false_and, and_false, if_true, if_false]
    exact hbad.ends hl
  simp only [hs, hb, not_false_eq_true, true_and, if_false]
  refine (h₁.ends hl).bind fun _ w₁ hm₁ hc₁ => ?_
  have hl₁ : w₁.cfg.loaded = true := hc₁ ▸ hl
  rw [← hm₁]
  refine (h₂.ends hl₁).bind fun _ w₂ hm₂ hc₂ => ?_
  have hl₂ : w₂.cfg.loaded = true := hc₂ ▸ hl₁
  rw [← hm₂]
  have htail : ∀ w₃ : World σ, w₃.cfg.loaded = true →
      Ends (after >>= fun _ => MonadState.get >>= last) w₃ w₃.mem := by
    intro w₃ hl₃
    refine (h₃.ends hl₃).bind fun _ w₄ hm₄ hc₄ => ?_
    rw [← hm₄]
    exact (h₄ w₄).ends (hc₄ ▸ hl₃)
  by_cases hc : c
  · simp only [if_pos hc]
    refine (Ends.modifyMem f w₂).bind fun _ w₃ hm₃ hc₃ => ?_
    rw [← hm₃]
    exact htail w₃ (hc₃ ▸ hl₂)
  · simp only [if_neg hc]
    exact htail w₂ hl₂

theorem gated_iff {c : BridgeCfg} {on : Bool} {m : Mem} :
    Gated c on m q ↔ ¬ (q = 0 ∨ on = false ∨ c.ifaceAllowed (nameAt m q) = false) ∧
      ¬ (rd32 m (q + 32) = 0 ∨ maxProps < rd32 m (q + 32)) ∧ c.ifaceTranslateAllowed (nameAt m q) = true := by
  simp only [not_or, Bool.not_eq_false, Nat.not_lt]
  constructor
  · rintro ⟨h1, h2, h3, h4, h5⟩
    exact ⟨⟨h1, h2, h3⟩, h4, h5⟩
  · rintro ⟨⟨h1, h2, h3⟩, h4, h5⟩
    exact ⟨h1, h2, h3, h4, h5⟩

instance {c : BridgeCfg} {on : Bool} {m : Mem} : Decidable (Gated c on m q) := decidable_of_iff _ gated_iff.symm

instance {c : BridgeCfg} {m : Mem} : Decidable (TxRewrites L c m q) := inferInstanceAs (Decidable (_ ∧ _))

instance {c : BridgeCfg} {m : Mem} : Decidable (RxRewrites L c m q) := inferInstanceAs (Decidable (_ ∧ _))

theorem handleQueryTx_ends (hl : w.cfg.loaded = true) :
    Ends (handleQueryTx P q) w
      (if TxRewrites P.uapi.tx w.cfg w.mem q then translateTx02300ToNew P.uapi.tx q w.mem else w.mem) := by
  unfold Ends handleQueryTx TxRewrites
  rw [run_bind, loadCfg_of_loaded hl, run_get_bind]
  simp only [gated_iff, and_assoc]
  exact handler_ends hl (logLines_muted _) (logHexdumpOnce_muted _ _ _ _ _) (logTxProps_muted _ _ _ _ _ _ _ _ _ _)
    (logLines_muted _) fun _ => logTxProps_muted _ _ _ _ _ _ _ _ _ _

theorem handleQueryRx_ends (hl : w.cfg.loaded = true) :
    Ends (handleQueryRx P q) w
      (if RxRewrites P.uapi.rx w.cfg w.mem q then translateRx02300ToNew P.uapi.rx q w.mem else w.mem) := by
  unfold Ends handleQueryRx RxRewrites
  rw [run_bind, loadCfg_of_loaded hl, run_get_bind]
  simp only [gated_iff, and_assoc]
  exact handler_ends hl (logLines_muted _) (logHexdumpOnce_muted _ _ _ _ _) (logRxProps_muted _ _ _ _ _ _ _ _)
    (logLines_muted _) fun _ => logRxProps_muted _ _ _ _ _ _ _ _

theorem loadCfg_bind_run (k : Unit → Proc σ α) (w : World σ) :
    (loadCfg P >>= k).run w = (loadCfg P >>= k).run (configured P w) := by
  rw [run_bind, run_bind, loadCfg_of_loaded configured_loaded]
  rfl

theorem handleQueryTx_run (P : Platform σ) (w : World σ) (q : Nat) :
    ((handleQueryTx P q).run w).2.mem =
      (if TxRewrites P.uapi.tx (configured P w).cfg w.mem q then translateTx02300ToNew P.uapi.tx q w.mem
        else w.mem) ∧
    ((handleQueryTx P q).run w).2.cfg = (configured P w).cfg := by
  have hmem : (configured P w).mem = w.mem := congrArg Silent.mem configured_silent
  have hends := handleQueryTx_ends (P := P) (w := configured P w) (q := q) configured_loaded
  rw [hmem] at hends
  rw [show (handleQueryTx P q).run w = (handleQueryTx P q).run (configured P w) from loadCfg_bind_run _ w]
  exact hends

theorem handleQueryRx_run (P : Platform σ) (w : World σ) (q : Nat) :
    ((handleQueryRx P q).run w).2.mem =
      (if RxRewrites P.uapi.rx (configured P w).cfg w.mem q then translateRx02300ToNew P.uapi.rx q w.mem
        else w.mem) ∧
    ((handleQueryRx P q).run w).2.cfg = (configured P w).cfg := by
  have hmem : (configured P w).mem = w.mem := congrArg Silent.mem configured_silent
  have hends := handleQueryRx_ends (P := P) (w := configured P w) (q := q) configured_loaded
  rw [hmem] at hends
  rw [show (handleQueryRx P q).run w = (handleQueryRx P q).run (configured P w) from loadCfg_bind_run _ w]
  exact hends

end

-- ---------------------------------------------------------------------------
-- Scores
-- ---------------------------------------------------------------------------

structure TxProp.Plausible (r : TxProp) : Prop where
  ip : r.ip ≤ 1
  dstPipe : 0 < r.dstPipe ∧ r.dstPipe < pipeMax
  altDstPipe : r.altDstPipe < pipeMax
  hdrL2Type : r.hdrL2Type ≤ 4
  hdrName : printableName r.hdrName = true

structure RxProp.Plausible (r : RxProp) : Prop where
  ip : r.ip ≤ 1
  srcPipe : 0 < r.srcPipe ∧ r.srcPipe < pipeMax
  hdrL2Type : r.hdrL2Type ≤ 4

theorem TxProp.Plausible.score {r : TxProp} (h : r.Plausible) : r.score = 5 := by
  simp [TxProp.score, h.ip, h.dstPipe, h.altDstPipe, h.hdrL2Type, h.hdrName]

theorem RxProp.score_le (r : RxProp) : r.score ≤ 3 := by
  unfold RxProp.score
  repeat' split
  all_goals omega

theorem RxProp.score_eq_iff {r : RxProp} : r.score = 3 ↔ r.Plausible := by
  constructor
  · intro h
    unfold RxProp.score at h
    constructor
    all_goals
      by_contra hc
      simp only [hc, if_false] at h
      repeat' split at h
      all_goals omega
  · intro h
    simp [RxProp.score, h.ip, h.srcPipe, h.hdrL2Type]

instance (r : RxProp) : Decidable r.Plausible := decidable_of_iff _ RxProp.score_eq_iff

theorem scoreAll_eq_sum (hn : n ≠ 0 ∧ n ≤ maxProps) (f : Nat → Nat) :
    scoreAll n f = ∑ i ∈ Finset.range n, f i := by
  unfold scoreAll
  rw [if_neg (by omega)]
  clear hn
  induction n with
  | zero => rfl
  | succ n ih => rw [forRange_succ, ih, Finset.sum_range_succ]

/-- When no record can score more than `k`, a full total means full scores. -/
theorem sum_full_iff {f : Nat → Nat} (h : ∀ i, f i ≤ k) :
    n * k ≤ ∑ i ∈ Finset.range n, f i ↔ ∀ i, i < n → f i = k := by
  have hconst : ∑ _i ∈ Finset.range n, k = n * k := by simp
  have hle := Finset.sum_le_sum fun i (_ : i ∈ Finset.range n) => h i
  have hiff := Finset.sum_eq_sum_iff_of_le fun i (_ : i ∈ Finset.range n) => h i
  simp only [Finset.mem_range] at hiff
  rw [hconst] at hle hiff
  rw [← hiff]
  omega

-- ---------------------------------------------------------------------------
-- Translating twice
-- ---------------------------------------------------------------------------

section
variable {U : Uapi} (hU : U.Wider) (q : Nat) (m : Mem)
include hU

theorem newTxScore_translateTx :
    newTxScore U.tx (translateTx02300ToNew U.tx q m) q (rd32 m (q + 32)) = oldTxScore m q (rd32 m (q + 32)) := by
  rw [newTxScore_eq hU.tx, oldTxScore_eq]
  refine scoreAll_congr fun i hi => ?_
  rw [newTxAt, ((translateTx_widened hU.tx hU.txSize q m).1 i hi).txProp hU.tx hU.txSize, oldTxAt]

theorem newRxScore_translateRx :
    newRxScore U.rx (translateRx02300ToNew U.rx q m) q (rd32 m (q + 32)) = oldRxScore m q (rd32 m (q + 32)) := by
  rw [newRxScore_eq hU.rx, oldRxScore_eq]
  refine scoreAll_congr fun i hi => ?_
  rw [newRxAt, ((translateRx_widened hU.rx hU.rxSize q m).1 i hi).rxProp hU.rx hU.rxSize, oldRxAt]

theorem translateTx_count : rd32 (translateTx02300ToNew U.tx q m) (q + 32) = rd32 m (q + 32) :=
  rd32_congr fun k hk => (translateTx_widened hU.tx hU.txSize q m).2 _ (by simp only [In, queryPrefixSize]; omega)

theorem translateRx_count : rd32 (translateRx02300ToNew U.rx q m) (q + 32) = rd32 m (q + 32) :=
  rd32_congr fun k hk => (translateRx_widened hU.rx hU.rxSize q m).2 _ (by simp only [In, queryPrefixSize]; omega)

theorem TxRewrites.once (h : TxRewrites U.tx c m q) : ¬ TxRewrites U.tx c' (translateTx02300ToNew U.tx q m) q := by
  rintro ⟨-, -, hlow⟩
  rw [translateTx_count hU, newTxScore_translateTx hU] at hlow
  exact absurd hlow (Nat.not_lt.mpr h.2.1)

theorem RxRewrites.once (h : RxRewrites U.rx c m q) : ¬ RxRewrites U.rx c' (translateRx02300ToNew U.rx q m) q := by
  rintro ⟨-, -, hlow⟩
  rw [translateRx_count hU, newRxScore_translateRx hU] at hlow
  exact absurd hlow (Nat.not_lt.mpr h.2.1)

end

section
variable {σ : Type} {P : Platform σ} {w : World σ} {q : Nat}

theorem configured_of_cfg {w' : World σ} (h : w'.cfg = (configured P w).cfg) : configured P w' = w' := by
  have hl : w'.cfg.loaded = true := by rw [h]; exact configured_loaded
  unfold configured
  rw [loadCfg_of_loaded hl]

def translatingPlatform : Platform Unit := ⟨uapi13900, fixedOs 0 id none, 0x10000⟩

def eth0RxAnswer : Mem := fun a =>
  if a < 1000 then 0 else ((cstr "eth0" ++ List.replicate 28 0 ++ [1, 0, 0, 0] ++ List.replicate 156 0 ++
    [108, 0, 0, 0, 1, 0, 0, 0]).getD (a - 1000) 0)

def eth0World : World Unit where
  mem := eth0RxAnswer
  os := ()
  cfg := {
    loaded := true, modeTranslate := true, tx := true, rx := true
    allow := cstr "eth0", translate := cstr "eth0" }

/-- The score moves with the records, and a second run of a handler finds an
answer it leaves alone. -/
theorem query_translation_idempotent (P : Platform σ) (hU : P.uapi.Wider) (w : World σ) (q : Nat) :
    (newTxScore P.uapi.tx (translateTx02300ToNew P.uapi.tx q w.mem) q (rd32 w.mem (q + 32)) =
        oldTxScore w.mem q (rd32 w.mem (q + 32)) ∧
      ((handleQueryTx P q).run ((handleQueryTx P q).run w).2).2.mem = ((handleQueryTx P q).run w).2.mem) ∧
    (newRxScore P.uapi.rx (translateRx02300ToNew P.uapi.rx q w.mem) q (rd32 w.mem (q + 32)) =
        oldRxScore w.mem q (rd32 w.mem (q + 32)) ∧
      ((handleQueryRx P q).run ((handleQueryRx P q).run w).2).2.mem = ((handleQueryRx P q).run w).2.mem) := by
  refine ⟨⟨newTxScore_translateTx hU q w.mem, ?_⟩, newRxScore_translateRx hU q w.mem, ?_⟩
  · obtain ⟨hmem, hcfg⟩ := handleQueryTx_run P w q
    rw [(handleQueryTx_run P ((handleQueryTx P q).run w).2 q).1, configured_of_cfg hcfg, hcfg, hmem]
    by_cases hr : TxRewrites P.uapi.tx (configured P w).cfg w.mem q
    · rw [if_pos hr, if_neg (hr.once hU)]
    · rw [if_neg hr, if_neg hr]
  · obtain ⟨hmem, hcfg⟩ := handleQueryRx_run P w q
    rw [(handleQueryRx_run P ((handleQueryRx P q).run w).2 q).1, configured_of_cfg hcfg, hcfg, hmem]
    by_cases hr : RxRewrites P.uapi.rx (configured P w).cfg w.mem q
    · rw [if_pos hr, if_neg (hr.once hU)]
    · rw [if_neg hr, if_neg hr]

theorem query_translation_idempotent_eth0 :
    translatingPlatform.uapi.Wider ∧
    ((handleQueryRx translatingPlatform 1000).run
      ((handleQueryRx translatingPlatform 1000).run eth0World).2).2.mem =
      ((handleQueryRx translatingPlatform 1000).run eth0World).2.mem :=
  ⟨uapi13900_wider, (query_translation_idempotent translatingPlatform uapi13900_wider eth0World 1000).2.2⟩

-- ---------------------------------------------------------------------------
-- The decision is exact
-- ---------------------------------------------------------------------------

structure SwitchedOn (c : BridgeCfg) (on : Bool) (m : Mem) (q : Nat) : Prop where
  on : on = true
  mode : c.modeTranslate = true
  allow : csvHas c.allow (nameAt m q) = true
  translate : csvHas c.translate (nameAt m q) = true
  count : 1 ≤ rd32 m (q + 32) ∧ rd32 m (q + 32) ≤ maxProps

theorem gated_iff_switchedOn {c : BridgeCfg} {on : Bool} {m : Mem} (hq : q ≠ 0) :
    Gated c on m q ↔ SwitchedOn c on m q := by
  constructor
  · rintro ⟨-, hon, hallow, ⟨h1, h2⟩, htr⟩
    obtain ⟨hmode, hlist⟩ := Bool.and_eq_true_iff.mp htr
    exact ⟨hon, hmode, hallow, hlist, Nat.one_le_iff_ne_zero.mpr h1, h2⟩
  · rintro ⟨hon, hmode, hallow, hlist, h1, h2⟩
    exact ⟨hq, hon, hallow, ⟨Nat.one_le_iff_ne_zero.mp h1, h2⟩, Bool.and_eq_true_iff.mpr ⟨hmode, hlist⟩⟩

end

theorem newTxScore_eq_max {L : TxLayout} (hL : L.Packed) (hn : n ≠ 0 ∧ n ≤ maxProps)
    (h : ∀ i, i < n → (newTxAt L m q i).Plausible) : newTxScore L m q n = n * 5 := by
  rw [newTxScore_eq hL, scoreAll_eq_sum hn, Finset.sum_congr rfl fun i hi =>
    show _ = 5 from (h i (Finset.mem_range.mp hi)).score]
  simp

theorem rx_full_iff (hn : n ≠ 0 ∧ n ≤ maxProps) (f : Nat → RxProp) :
    n * 3 ≤ scoreAll n (fun i => (f i).score) ↔ ∀ i, i < n → (f i).Plausible := by
  rw [scoreAll_eq_sum hn, sum_full_iff fun i => (f i).score_le]
  simp only [RxProp.score_eq_iff]

theorem txRewrites_iff {L : TxLayout} (hL : L.Packed) (hq : q ≠ 0) :
    TxRewrites L c m q ↔ SwitchedOn c c.tx m q ∧
      rd32 m (q + 32) * 4 ≤ ∑ i ∈ Finset.range (rd32 m (q + 32)), (oldTxAt m q i).score ∧
      ∑ i ∈ Finset.range (rd32 m (q + 32)), (newTxAt L m q i).score < rd32 m (q + 32) * 4 := by
  unfold TxRewrites
  rw [gated_iff_switchedOn hq, oldTxScore_eq, newTxScore_eq hL]
  refine and_congr_right fun h => ?_
  rw [scoreAll_eq_sum ⟨Nat.one_le_iff_ne_zero.mp h.count.1, h.count.2⟩,
    scoreAll_eq_sum ⟨Nat.one_le_iff_ne_zero.mp h.count.1, h.count.2⟩]

theorem rxRewrites_iff {L : RxLayout} (hL : L.Packed) (hq : q ≠ 0) :
    RxRewrites L c m q ↔ SwitchedOn c c.rx m q ∧
      (∀ i, i < rd32 m (q + 32) → (oldRxAt m q i).Plausible) ∧
      ∃ i, i < rd32 m (q + 32) ∧ ¬ (newRxAt L m q i).Plausible := by
  unfold RxRewrites
  rw [gated_iff_switchedOn hq, oldRxScore_eq, newRxScore_eq hL]
  refine and_congr_right fun h => ?_
  have hn : rd32 m (q + 32) ≠ 0 ∧ rd32 m (q + 32) ≤ maxProps := ⟨Nat.one_le_iff_ne_zero.mp h.count.1, h.count.2⟩
  rw [rx_full_iff hn, ← Nat.not_le, rx_full_iff hn]
  simp only [not_forall, exists_prop]

/-- The memory `m'` a handler leaves is not `m` exactly when `rewrites` holds,
and then it is the translation `t`. -/
structure Decided (m m' t : Mem) (rewrites : Prop) : Prop where
  changes_iff : m' ≠ m ↔ rewrites
  translated : rewrites → m' = t

theorem Decided.of_ite {m m' t : Mem} {r : Prop} [Decidable r] (h : m' = if r then t else m)
    (hne : r → t ≠ m) : Decided m m' t r := by
  by_cases hr : r
  · rw [if_pos hr] at h
    exact ⟨⟨fun _ => hr, fun _ => h ▸ hne hr⟩, fun _ => h⟩
  · rw [if_neg hr] at h
    exact ⟨⟨fun hm => absurd h hm, fun hr' => absurd hr' hr⟩, fun hr' => absurd hr' hr⟩

section
variable {U : Uapi} (hU : U.Wider)
include hU

theorem TxRewrites.changes (h : TxRewrites U.tx c m q) : translateTx02300ToNew U.tx q m ≠ m := by
  intro heq
  have hnot : ¬ TxRewrites U.tx c (translateTx02300ToNew U.tx q m) q := h.once hU q m
  rw [heq] at hnot
  exact hnot h

theorem RxRewrites.changes (h : RxRewrites U.rx c m q) : translateRx02300ToNew U.rx q m ≠ m := by
  intro heq
  have hnot : ¬ RxRewrites U.rx c (translateRx02300ToNew U.rx q m) q := h.once hU q m
  rw [heq] at hnot
  exact hnot h

end

/-- When a handler rewrites an answer, record by record. The configuration `c`
is arbitrary, its `failClosed` included. -/
theorem query_decision_exact {σ : Type} (P : Platform σ) (hU : P.uapi.Wider) (w : World σ) (q : Nat)
    (hq : q ≠ 0) :
    ((∀ i, i < rd32 w.mem (q + 32) → (newTxAt P.uapi.tx w.mem q i).Plausible) →
      ((handleQueryTx P q).run w).2.mem = w.mem) ∧
    ((∀ i, i < rd32 w.mem (q + 32) → (newRxAt P.uapi.rx w.mem q i).Plausible) →
      ((handleQueryRx P q).run w).2.mem = w.mem) ∧
    Decided w.mem ((handleQueryRx P q).run w).2.mem (translateRx02300ToNew P.uapi.rx q w.mem)
      (SwitchedOn (configured P w).cfg (configured P w).cfg.rx w.mem q ∧
        (∀ i, i < rd32 w.mem (q + 32) → (oldRxAt w.mem q i).Plausible) ∧
        ∃ i, i < rd32 w.mem (q + 32) ∧ ¬ (newRxAt P.uapi.rx w.mem q i).Plausible) ∧
    Decided w.mem ((handleQueryTx P q).run w).2.mem (translateTx02300ToNew P.uapi.tx q w.mem)
      (SwitchedOn (configured P w).cfg (configured P w).cfg.tx w.mem q ∧
        rd32 w.mem (q + 32) * 4 ≤ ∑ i ∈ Finset.range (rd32 w.mem (q + 32)), (oldTxAt w.mem q i).score ∧
        ∑ i ∈ Finset.range (rd32 w.mem (q + 32)), (newTxAt P.uapi.tx w.mem q i).score <
          rd32 w.mem (q + 32) * 4) := by
  have htx := (handleQueryTx_run P w q).1
  have hrx := (handleQueryRx_run P w q).1
  refine ⟨fun hall => ?_, fun hall => ?_, ?_, ?_⟩
  · rw [htx, if_neg]
    rintro ⟨hg, -, hlow⟩
    rw [newTxScore_eq_max hU.tx hg.count hall] at hlow
    omega
  · rw [hrx, if_neg]
    rw [rxRewrites_iff hU.rx hq]
    rintro ⟨-, -, i, hi, hbad⟩
    exact hbad (hall i hi)
  · rw [← rxRewrites_iff hU.rx hq]
    exact Decided.of_ite hrx fun h => h.changes hU
  · rw [← txRewrites_iff hU.tx hq]
    exact Decided.of_ite htx fun h => h.changes hU

theorem query_decision_exact_eth0 :
    ((handleQueryRx translatingPlatform 1000).run eth0World).2.mem ≠ eth0RxAnswer :=
  (query_decision_exact translatingPlatform uapi13900_wider eth0World 1000 (by decide)).2.2.1.changes_iff.mpr
    ⟨⟨rfl, rfl, by decide +kernel, by decide +kernel, by decide +kernel⟩, by decide +kernel, 0,
      by decide +kernel, by decide +kernel⟩

end IpaOffload.Bridge

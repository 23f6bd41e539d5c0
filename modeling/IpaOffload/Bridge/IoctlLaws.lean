import IpaOffload.Bridge.Ioctl
import IpaOffload.Bridge.RuleFaithful

/-!
# What one `ioctl` does

`RuleAccepted` are the calls that are rebuilt, `Widenable` the answers that may
be. Every other call goes to the kernel as it came, and what the kernel left
in memory stays there (`ioctl_call`).
-/

namespace IpaOffload.Bridge

open ByteMem StateFrame

section
variable {σ : Type} {P : Platform σ} {w : World σ} {fd : Int} {request nr arg : Nat}

-- ---------------------------------------------------------------------------
-- The descriptor
-- ---------------------------------------------------------------------------

def linkedToIpa (P : Platform σ) (st : σ) (fd : Int) : Bool :=
  match fdPath fd with
  | none => false
  | some path =>
    match (P.os.readlink st path).map (·.take 63) with
    | none => false
    | some link => decide (link ≠ []) && linkIsIpa link

theorem sysReadlink_run (path : Bytes) (count : Nat) :
    (sysReadlink P path count).run w = ((P.os.readlink w.os path).map (·.take count), w) := rfl

theorem fdIsIpaDev_run (P : Platform σ) (fd : Int) (w : World σ) :
    (fdIsIpaDev P fd).run w =
      if fd = w.cachedFd then (w.cachedIsIpa, w)
      else (linkedToIpa P w.os fd, { w with cachedFd := fd, cachedIsIpa := linkedToIpa P w.os fd }) := by
  unfold fdIsIpaDev linkedToIpa
  rw [run_get_bind]
  by_cases hfd : fd = w.cachedFd
  · rw [if_pos hfd, if_pos hfd]
    rfl
  · rw [if_neg hfd, if_neg hfd, run_bind]
    cases fdPath fd with
    | none => rfl
    | some path =>
      show StateT.run (sysReadlink P path 63 >>= _) { w with cachedFd := fd, cachedIsIpa := false } = _
      rw [run_bind, sysReadlink_run]
      dsimp only
      cases (P.os.readlink w.os path).map (·.take 63) with
      | none => rfl
      | some link =>
        by_cases hnil : link = []
        · simp only [hnil, ne_eq, not_true_eq_false, decide_false, Bool.false_and, ↓reduceIte]
          rfl
        · cases hipa : linkIsIpa link with
          | false =>
            simp only [hnil, hipa, ne_eq, not_false_eq_true, decide_true, Bool.and_false, ↓reduceIte, Bool.false_eq_true]
            rfl
          | true =>
            simp only [hnil, hipa, ne_eq, not_false_eq_true, decide_true, Bool.and_true, ↓reduceIte]
            rfl

-- ---------------------------------------------------------------------------
-- The configuration
-- ---------------------------------------------------------------------------

def configured (P : Platform σ) (w : World σ) : World σ := ((loadCfg P).run w).2

theorem configured_silent : (configured P w).silent = w.silent := loadCfg_silent w

theorem configured_loaded : (configured P w).cfg.loaded = true := loadCfg_loaded w

-- ---------------------------------------------------------------------------
-- Rebuilt requests
-- ---------------------------------------------------------------------------

def IoctlCall.AnsweredBy (O : Os σ) (call : IoctlCall) : Prop :=
  ∃ st, (O.ioctl st call.fd call.request call.arg call.before).1 = call.ret ∧
    (O.ioctl st call.fd call.request call.arg call.before).2.1 = call.after

/-- The nine requests, where their translator goes on to call the kernel. -/
def RuleAccepted (U : Uapi) (c : BridgeCfg) (m : Mem) (nr arg : Nat) : Prop :=
  c.rtFltTranslate = true ∧ arg ≠ 0 ∧
    ((∃ s ∈ addSpecs U, nr = U.nr s.req ∧ s.accepts U m arg = true) ∨ nr = U.nr .generateFltEq)

theorem addSpecs_eq_of_req {U : Uapi} {s t : AddSpec} (hs : s ∈ addSpecs U) (ht : t ∈ addSpecs U)
    (h : s.req = t.req) : s = t := by
  simp only [addSpecs, List.mem_cons, List.not_mem_nil, or_false] at hs ht
  rcases hs with rfl | rfl | rfl | rfl | rfl | rfl | rfl | rfl <;>
    rcases ht with rfl | rfl | rfl | rfl | rfl | rfl | rfl | rfl <;>
    first | rfl | cases h

theorem addSpecs_req_ne {U : Uapi} {s : AddSpec} (hs : s ∈ addSpecs U) : s.req ≠ .generateFltEq := by
  simp only [addSpecs, List.mem_cons, List.not_mem_nil, or_false] at hs
  rcases hs with rfl | rfl | rfl | rfl | rfl | rfl | rfl | rfl <;> exact nofun

section
variable (hon : (configured P w).cfg.rtFltTranslate = true) (harg : arg ≠ 0)
include hon harg

theorem maybeTranslateRtFltIoctl_add (fd : Int) (request : Nat) {s : AddSpec} (hs : s ∈ addSpecs P.uapi) :
    (maybeTranslateRtFltIoctl P fd request (P.uapi.nr s.req) arg).run w =
      (translateAddIoctl P s fd request arg).run (configured P w) := by
  have hgo : ¬ ((configured P w).cfg.rtFltTranslate = false ∨ arg = 0) := by simp [hon, harg]
  unfold maybeTranslateRtFltIoctl
  rw [run_bind, run_get_bind]
  show StateT.run (ite ((configured P w).cfg.rtFltTranslate = false ∨ arg = 0) _ _) (configured P w) = _
  rw [if_neg hgo]
  simp only [addSpecs, List.mem_cons, List.not_mem_nil, or_false] at hs
  rcases hs with rfl | rfl | rfl | rfl | rfl | rfl | rfl | rfl <;>
    simp only [addRtSpec, addRtV2Spec, addFltSpec, addFltV2Spec, addRtAfterSpec, addRtAfterV2Spec,
      addFltAfterSpec, addFltAfterV2Spec, P.uapi.nr_eq_iff, reduceCtorEq, ↓reduceIte] <;> rfl

theorem maybeTranslateRtFltIoctl_genEq (fd : Int) (request : Nat) :
    (maybeTranslateRtFltIoctl P fd request (P.uapi.nr .generateFltEq) arg).run w =
      (translateGenerateFltEqIoctl P fd request arg).run (configured P w) := by
  have hgo : ¬ ((configured P w).cfg.rtFltTranslate = false ∨ arg = 0) := by simp [hon, harg]
  unfold maybeTranslateRtFltIoctl
  rw [run_bind, run_get_bind]
  show StateT.run (ite ((configured P w).cfg.rtFltTranslate = false ∨ arg = 0) _ _) (configured P w) = _
  rw [if_neg hgo]
  simp only [P.uapi.nr_eq_iff, reduceCtorEq, ↓reduceIte]

end

theorem maybeTranslateRtFltIoctl_none
    (h : (configured P w).cfg.rtFltTranslate = true → arg ≠ 0 →
      (∀ s ∈ addSpecs P.uapi, nr ≠ P.uapi.nr s.req) ∧ nr ≠ P.uapi.nr .generateFltEq) :
    (maybeTranslateRtFltIoctl P fd request nr arg).run w = (none, configured P w) := by
  unfold maybeTranslateRtFltIoctl
  rw [run_bind, run_get_bind]
  show StateT.run (ite ((configured P w).cfg.rtFltTranslate = false ∨ arg = 0) _ _) (configured P w) = _
  by_cases hoff : (configured P w).cfg.rtFltTranslate = false ∨ arg = 0
  · rw [if_pos hoff]
    rfl
  · push Not at hoff
    obtain ⟨hne, hgen⟩ := h (by simpa using hoff.1) hoff.2
    simp only [addSpecs, List.forall_mem_cons, List.not_mem_nil, addRtSpec, addRtV2Spec, addFltSpec,
      addFltV2Spec, addRtAfterSpec, addRtAfterV2Spec, addFltAfterSpec, addFltAfterV2Spec] at hne
    obtain ⟨h1, h2, h3, h4, h5, h6, h7, h8, -⟩ := hne
    simp only [hoff, h1, h2, h3, h4, h5, h6, h7, h8, hgen, ↓reduceIte]
    rfl

/-- Either the request is rebuilt and the kernel called once, or nothing has
happened but that the configuration is loaded. -/
theorem maybeTranslateRtFltIoctl_spec (P : Platform σ) (w : World σ) (fd : Int) (request nr arg : Nat) :
    (RuleAccepted P.uapi (configured P w).cfg w.mem nr arg ∧
      ∃ call : IoctlCall, call.fd = fd ∧ call.request = request ∧ call.arg = P.buf ∧ call.AnsweredBy P.os ∧
        ((maybeTranslateRtFltIoctl P fd request nr arg).run w).1 = some call.ret ∧
        ((maybeTranslateRtFltIoctl P fd request nr arg).run w).2.ioctls = w.ioctls ++ [call]) ∨
    (¬ RuleAccepted P.uapi (configured P w).cfg w.mem nr arg ∧
      (maybeTranslateRtFltIoctl P fd request nr arg).run w = (none, configured P w)) := by
  have hmem : (configured P w).mem = w.mem := congrArg Silent.mem configured_silent
  have hcalls : (configured P w).ioctls = w.ioctls := congrArg Silent.ioctls configured_silent
  by_cases hgo : (configured P w).cfg.rtFltTranslate = true ∧ arg ≠ 0
  · obtain ⟨hon, harg⟩ := hgo
    by_cases hadd : ∃ s ∈ addSpecs P.uapi, nr = P.uapi.nr s.req
    · obtain ⟨s, hs, rfl⟩ := hadd
      rw [maybeTranslateRtFltIoctl_add hon harg fd request hs]
      by_cases hacc : s.accepts P.uapi w.mem arg = true
      · obtain ⟨hret, hout⟩ := translateAddIoctl_accept (P := P) (w := configured P w) fd request
          (by rw [hmem]; exact hacc)
        have hio := congrArg Silent.ioctls hout
        refine .inl ⟨⟨hon, harg, .inl ⟨s, hs, rfl, hacc⟩⟩, _, rfl, rfl, rfl, ⟨_, rfl, rfl⟩, hret, ?_⟩
        rw [← hcalls]
        exact hio
      · refine .inr ⟨fun h => ?_, translateAddIoctl_decline (by rw [hmem]; simpa using hacc)⟩
        obtain ⟨-, -, ⟨t, ht, hnr, hacc'⟩ | hgen⟩ := h
        · have hst := addSpecs_eq_of_req hs ht (P.uapi.nr_inj _ _ hnr)
          exact hacc (hst ▸ hacc')
        · exact addSpecs_req_ne hs (P.uapi.nr_inj _ _ hgen)
    · by_cases hgen : nr = P.uapi.nr .generateFltEq
      · subst hgen
        rw [maybeTranslateRtFltIoctl_genEq hon harg fd request]
        obtain ⟨hret, hout⟩ := translateGenerateFltEqIoctl_accept (P := P) fd request (configured P w) harg
        have hio := congrArg Silent.ioctls hout
        refine .inl ⟨⟨hon, harg, .inr rfl⟩, _, rfl, rfl, rfl, ⟨_, rfl, rfl⟩, hret, ?_⟩
        rw [← hcalls]
        exact hio
      · refine .inr ⟨fun h => ?_, maybeTranslateRtFltIoctl_none fun _ _ => ⟨fun s hs hnr => ?_, hgen⟩⟩
        · obtain ⟨-, -, ⟨t, ht, hnr, -⟩ | h⟩ := h
          · exact hadd ⟨t, ht, hnr⟩
          · exact hgen h
        · exact hadd ⟨s, hs, hnr⟩
  · exact .inr ⟨fun h => hgo ⟨h.1, h.2.1⟩, maybeTranslateRtFltIoctl_none fun h1 h2 => absurd ⟨h1, h2⟩ hgo⟩

-- ---------------------------------------------------------------------------
-- Answers to queries
-- ---------------------------------------------------------------------------

theorem logTxProps_silent (tag : String) (name : Bytes) (m : Mem)
    (base n stride offDst offAlt offHdr offL2 : Nat) :
    Preserves World.silent (logTxProps P tag name m base n stride offDst offAlt offHdr offL2) :=
  Preserves.forM _ fun _ => logLines_silent _

theorem logRxProps_silent (tag : String) (name : Bytes) (m : Mem) (base n stride offSrc offL2 : Nat) :
    Preserves World.silent (logRxProps P tag name m base n stride offSrc offL2) :=
  Preserves.forM _ fun _ => logLines_silent _

/-- The interface named in the answer at `arg` is on both lists, and the mode is
to translate. -/
def Widenable (w : World σ) (arg : Nat) : Prop :=
  w.cfg.ifaceAllowed (nameAt w.mem arg) = true ∧ w.cfg.ifaceTranslateAllowed (nameAt w.mem arg) = true

section
variable {f : World σ → γ} (hl : w.cfg.loaded = true)
variable (hf : ∀ x : Proc σ Unit, Preserves World.silent x → Preserves f x)
variable (hw : Widenable w arg → ∀ g, Preserves f (modifyMem g : Proc σ Unit))
include hl hf hw

theorem handleQueryTx_keeps : f ((handleQueryTx P arg).run w).2 = f w := by
  unfold handleQueryTx
  rw [run_bind, loadCfg_of_loaded hl, run_get_bind]
  refine Preserves.dite _ (fun _ => Preserves.pure _ _) (fun hgo => ?_) w
  push Not at hgo
  refine Preserves.ite _ (hf _ (logLines_silent _)) ?_
  refine (hf _ (logHexdumpOnce_silent _ _ _ _ _)).bind fun _ => ?_
  refine (hf _ (logTxProps_silent _ _ _ _ _ _ _ _ _ _)).bind fun _ => ?_
  have hend : ∀ (action : String) (old new : Nat), Preserves f (do
      logKv4 P "QUERY_TX" (bytesAt w.mem arg ipaResourceNameMax) (rd32 w.mem (arg + 32)) old new
        (rd32 w.mem (arg + 32) * 4) action
      let w' ← get
      logTxProps P "TX_NEW" (bytesAt w.mem arg ipaResourceNameMax) w'.mem (arg + queryPrefixSize)
        (rd32 w'.mem (arg + 32)) P.uapi.tx.size P.uapi.tx.dstPipe P.uapi.tx.altDstPipe P.uapi.tx.hdrName
        P.uapi.tx.hdrL2Type) := fun _ _ _ =>
    (hf _ (logLines_silent _)).bind fun _ => (Preserves.get _).bind fun _ =>
      hf _ (logTxProps_silent _ _ _ _ _ _ _ _ _ _)
  refine Preserves.dite _ (fun hgo' => ?_) fun _ => hend _ _ _
  exact (hw ⟨Bool.ne_false_iff.mp hgo.2.2, hgo'.1⟩ _).bind fun _ => hend _ _ _

theorem handleQueryRx_keeps : f ((handleQueryRx P arg).run w).2 = f w := by
  unfold handleQueryRx
  rw [run_bind, loadCfg_of_loaded hl, run_get_bind]
  refine Preserves.dite _ (fun _ => Preserves.pure _ _) (fun hgo => ?_) w
  push Not at hgo
  refine Preserves.ite _ (hf _ (logLines_silent _)) ?_
  refine (hf _ (logHexdumpOnce_silent _ _ _ _ _)).bind fun _ => ?_
  refine (hf _ (logRxProps_silent _ _ _ _ _ _ _ _)).bind fun _ => ?_
  have hend : ∀ (action : String) (old new : Nat), Preserves f (do
      logKv4 P "QUERY_RX" (bytesAt w.mem arg ipaResourceNameMax) (rd32 w.mem (arg + 32)) old new
        (rd32 w.mem (arg + 32) * 3) action
      let w' ← get
      logRxProps P "RX_NEW" (bytesAt w.mem arg ipaResourceNameMax) w'.mem (arg + queryPrefixSize)
        (rd32 w'.mem (arg + 32)) P.uapi.rx.size P.uapi.rx.srcPipe P.uapi.rx.hdrL2Type) := fun _ _ _ =>
    (hf _ (logLines_silent _)).bind fun _ => (Preserves.get _).bind fun _ =>
      hf _ (logRxProps_silent _ _ _ _ _ _ _ _)
  refine Preserves.dite _ (fun hgo' => ?_) fun _ => hend _ _ _
  exact (hw ⟨Bool.ne_false_iff.mp hgo.2.2, hgo'.1⟩ _).bind fun _ => hend _ _ _

end

theorem handleQueryExt_silent : Preserves World.silent (handleQueryExt P arg) := by
  refine loadCfg_silent.bind fun _ => (Preserves.get _).bind fun _ => ?_
  refine Preserves.ite _ (Preserves.pure _ _) ?_
  exact (logHexdumpOnce_silent _ _ _ _ _).bind fun _ => logLines_silent _

theorem logRtFlt_silent (nr arg : Nat) (ret : Int) : Preserves World.silent (logRtFlt P nr arg ret) := by
  refine loadCfg_silent.bind fun _ => (Preserves.get _).bind fun _ => ?_
  exact Preserves.ite _ (Preserves.pure _ _) (logLines_silent _)

theorem handleAnswer_keeps (nr arg : Nat) (hl : w.cfg.loaded = true) :
    ((handleAnswer P nr arg).run w).2.ioctls = w.ioctls ∧
    (¬ ((nr = P.uapi.nr .queryIntfTxProps ∨ nr = P.uapi.nr .queryIntfRxProps) ∧ Widenable w arg) →
      ((handleAnswer P nr arg).run w).2.mem = w.mem) := by
  have hio : ∀ x : Proc σ Unit, Preserves World.silent x → Preserves World.ioctls x :=
    fun _ hx => hx.comp Silent.ioctls
  have hmem : ∀ x : Proc σ Unit, Preserves World.silent x → Preserves World.mem x :=
    fun _ hx => hx.comp Silent.mem
  unfold handleAnswer
  by_cases htx : nr = P.uapi.nr .queryIntfTxProps
  · rw [if_pos htx]
    exact ⟨handleQueryTx_keeps hl hio fun _ _ => Preserves.modify fun _ => rfl,
      fun h => handleQueryTx_keeps hl hmem fun hw => absurd ⟨.inl htx, hw⟩ h⟩
  · rw [if_neg htx]
    by_cases hrx : nr = P.uapi.nr .queryIntfRxProps
    · rw [if_pos hrx]
      exact ⟨handleQueryRx_keeps hl hio fun _ _ => Preserves.modify fun _ => rfl,
        fun h => handleQueryRx_keeps hl hmem fun hw => absurd ⟨.inr hrx, hw⟩ h⟩
    · rw [if_neg hrx]
      by_cases hext : nr = P.uapi.nr .queryIntfExtProps
      · rw [if_pos hext]
        exact ⟨hio _ handleQueryExt_silent w, fun _ => hmem _ handleQueryExt_silent w⟩
      · rw [if_neg hext]
        exact ⟨rfl, fun _ => rfl⟩

-- ---------------------------------------------------------------------------
-- One call
-- ---------------------------------------------------------------------------

def handledAsIpa (P : Platform σ) (w : World σ) (fd : Int) : Bool := ((fdIsIpaDev P fd).run w).1

def seenWorld (P : Platform σ) (fd : Int) (w : World σ) : World σ := configured P ((fdIsIpaDev P fd).run w).2

section
variable (P : Platform σ) (w : World σ) (fd : Int) (request arg : Nat) (ipa : Prop)

/-- One of the nine rule requests, with translation on, that its translator
accepts. `ipa` is what makes `fd` the IPA device. -/
def RuleRebuilt : Prop :=
  iocType request = P.uapi.magic ∧ ipa ∧
    RuleAccepted P.uapi (seenWorld P fd w).cfg w.mem (iocNr request) arg

/-- A TX or RX query that succeeded, for an interface of both lists in translate
mode. -/
def AnswerWidened (call : IoctlCall) : Prop :=
  iocType request = P.uapi.magic ∧ ipa ∧ 0 ≤ call.ret ∧ arg ≠ 0 ∧
    (iocNr request = P.uapi.nr .queryIntfTxProps ∨ iocNr request = P.uapi.nr .queryIntfRxProps) ∧
    (seenWorld P fd w).cfg.ifaceAllowed (nameAt call.after arg) = true ∧
    (seenWorld P fd w).cfg.ifaceTranslateAllowed (nameAt call.after arg) = true

structure Transparent (out : Int × World σ) (call : IoctlCall) : Prop where
  once : out.2.ioctls = w.ioctls ++ [call]
  same : call.fd = fd ∧ call.request = request
  answered : call.AnsweredBy P.os
  ret : out.1 = castInt call.ret
  pointer : ¬ RuleRebuilt P w fd request arg ipa → call.arg = arg ∧ call.before = w.mem
  memory : ¬ RuleRebuilt P w fd request arg ipa → ¬ AnswerWidened P w fd request arg ipa call →
    out.2.mem = call.after

end

theorem fdIsIpaDev_silent (P : Platform σ) (fd : Int) (w : World σ) :
    ((fdIsIpaDev P fd).run w).2.mem = w.mem ∧ ((fdIsIpaDev P fd).run w).2.ioctls = w.ioctls := by
  rw [fdIsIpaDev_run]
  split <;> exact ⟨rfl, rfl⟩

theorem seenWorld_mem : (seenWorld P fd w).mem = w.mem :=
  (congrArg Silent.mem configured_silent).trans (fdIsIpaDev_silent P fd w).1

theorem seenWorld_ioctls : (seenWorld P fd w).ioctls = w.ioctls :=
  (congrArg Silent.ioctls configured_silent).trans (fdIsIpaDev_silent P fd w).2

def ownCall (P : Platform σ) (w : World σ) (fd : Int) (request arg : Nat) : IoctlCall :=
  let r := P.os.ioctl w.os fd request arg w.mem
  ⟨fd, request, arg, w.mem, r.1, r.2.1⟩

theorem sysIoctl_run (w : World σ) (fd : Int) (request arg : Nat) :
    ((sysIoctl P fd request arg).run w).1 = (ownCall P w fd request arg).ret ∧
    ((sysIoctl P fd request arg).run w).2.mem = (ownCall P w fd request arg).after ∧
    ((sysIoctl P fd request arg).run w).2.ioctls = w.ioctls ++ [ownCall P w fd request arg] ∧
    ((sysIoctl P fd request arg).run w).2.cfg = w.cfg := ⟨rfl, rfl, rfl, rfl⟩

theorem transparent_direct {ipa : Prop} {w' : World σ} (hmem : w'.mem = w.mem) (hio : w'.ioctls = w.ioctls) :
    Transparent P w fd request arg ipa
      ((do let ret ← sysIoctl P fd request arg; return castInt ret : Proc σ Int).run w')
      (ownCall P w' fd request arg) := by
  obtain ⟨hret, hafter, hcalls, -⟩ := sysIoctl_run (P := P) w' fd request arg
  rw [run_bind]
  refine ⟨?_, ⟨rfl, rfl⟩, ⟨_, rfl, rfl⟩, rfl, fun _ => ⟨rfl, hmem⟩, fun _ _ => hafter⟩
  rw [← hio]
  exact hcalls

theorem maybeTranslate_declines (hacc : ¬ RuleAccepted P.uapi (seenWorld P fd w).cfg w.mem (iocNr request) arg) :
    (maybeTranslateRtFltIoctl P fd request (iocNr request) arg).run ((fdIsIpaDev P fd).run w).2 =
      (none, seenWorld P fd w) := by
  have hmem := (fdIsIpaDev_silent P fd w).1
  obtain ⟨hacc', -⟩ | ⟨-, hrun⟩ :=
    maybeTranslateRtFltIoctl_spec P ((fdIsIpaDev P fd).run w).2 fd request (iocNr request) arg
  · exact absurd (hmem ▸ hacc') hacc
  · exact hrun

section
variable (hty : iocType request = P.uapi.magic) (hipa : handledAsIpa P w fd = true)
include hty hipa

theorem ioctl_of_none
    (hrun : (maybeTranslateRtFltIoctl P fd request (iocNr request) arg).run ((fdIsIpaDev P fd).run w).2 =
      (none, seenWorld P fd w)) :
    (ioctl P fd request arg).run w =
      (do
        let ret ← sysIoctl P fd request arg
        if 0 ≤ ret ∧ arg ≠ 0 then handleAnswer P (iocNr request) arg else pure ()
        if arg ≠ 0 ∧ iocNr request ∈ ruleIoctls.map P.uapi.nr then logRtFlt P (iocNr request) arg ret
        else pure ()
        return castInt ret : Proc σ Int).run (seenWorld P fd w) := by
  have hnot : ¬ ((fdIsIpaDev P fd).run w).1 = false := by
    unfold handledAsIpa at hipa
    simp [hipa]
  unfold ioctl
  dsimp only
  rw [if_neg (not_not.mpr hty), run_bind, if_neg hnot, run_bind, hrun]

theorem transparent_answer :
    Transparent P w fd request arg (handledAsIpa P w fd = true)
      ((do
        let ret ← sysIoctl P fd request arg
        if 0 ≤ ret ∧ arg ≠ 0 then handleAnswer P (iocNr request) arg else pure ()
        if arg ≠ 0 ∧ iocNr request ∈ ruleIoctls.map P.uapi.nr then logRtFlt P (iocNr request) arg ret
        else pure ()
        return castInt ret : Proc σ Int).run (seenWorld P fd w)) (ownCall P (seenWorld P fd w) fd request arg) := by
  have hmem' : (seenWorld P fd w).mem = w.mem := seenWorld_mem
  have hio' : (seenWorld P fd w).ioctls = w.ioctls := seenWorld_ioctls
  have hloaded : (seenWorld P fd w).cfg.loaded = true := configured_loaded
  generalize hw' : seenWorld P fd w = w' at *
  obtain ⟨hret, hafter, hcalls, hcfg⟩ := sysIoctl_run (P := P) w' fd request arg
  rw [run_bind]
  generalize hw2 : ((sysIoctl P fd request arg).run w').2 = w2 at *
  generalize hr : ((sysIoctl P fd request arg).run w').1 = r at *
  have hlog : Preserves World.silent (do
      if arg ≠ 0 ∧ iocNr request ∈ ruleIoctls.map P.uapi.nr then logRtFlt P (iocNr request) arg r else pure ()
      return castInt r : Proc σ Int) :=
    Preserves.ite _ ((logRtFlt_silent _ _ _).bind fun _ => Preserves.pure _ _) (Preserves.pure _ _)
  have hval : Yields (· = castInt r) (do
      if arg ≠ 0 ∧ iocNr request ∈ ruleIoctls.map P.uapi.nr then logRtFlt P (iocNr request) arg r else pure ()
      return castInt r : Proc σ Int) := by
    intro s
    dsimp only
    split <;> rfl
  obtain ⟨hkio, hkmem⟩ := handleAnswer_keeps (P := P) (w := w2) (iocNr request) arg
    (hcfg ▸ hloaded)
  by_cases hok : 0 ≤ r ∧ arg ≠ 0
  · rw [if_pos hok, run_bind]
    refine ⟨?_, ⟨rfl, rfl⟩, ⟨_, rfl, rfl⟩, hret ▸ hval _, fun _ => ⟨rfl, hmem'⟩, fun _ hwide => ?_⟩
    · rw [← hio', ← hcalls, ← hkio]
      exact (hlog.comp Silent.ioctls) _
    · rw [← hafter, ← hkmem]
      · exact (hlog.comp Silent.mem) _
      · rintro ⟨hq, hwid⟩
        unfold Widenable at hwid
        rw [hafter, hcfg] at hwid
        exact hwide ⟨hty, hipa, hret ▸ hok.1, hok.2, hq, hw' ▸ hwid.1, hw' ▸ hwid.2⟩
  · rw [if_neg hok]
    refine ⟨?_, ⟨rfl, rfl⟩, ⟨_, rfl, rfl⟩, hret ▸ hval _, fun _ => ⟨rfl, hmem'⟩, fun _ _ => ?_⟩
    · rw [← hio', ← hcalls]
      exact (hlog.comp Silent.ioctls) _
    · rw [← hafter]
      exact (hlog.comp Silent.mem) _

theorem ioctl_of_some
    (hret : ((maybeTranslateRtFltIoctl P fd request (iocNr request) arg).run
      ((fdIsIpaDev P fd).run w).2).1 = some ret) :
    ((ioctl P fd request arg).run w).1 = castInt ret ∧
    ((ioctl P fd request arg).run w).2.silent =
      ((maybeTranslateRtFltIoctl P fd request (iocNr request) arg).run
        ((fdIsIpaDev P fd).run w).2).2.silent := by
  have hnot : ¬ ((fdIsIpaDev P fd).run w).1 = false := by
    unfold handledAsIpa at hipa
    simp [hipa]
  unfold ioctl
  dsimp only
  rw [if_neg (not_not.mpr hty), run_bind, if_neg hnot, run_bind, hret]
  exact ⟨rfl, logRtFlt_silent _ _ _ _⟩

theorem ioctl_accepted (hacc : RuleAccepted P.uapi (seenWorld P fd w).cfg w.mem (iocNr request) arg) :
    ∃ call, call.arg = P.buf ∧
      Transparent P w fd request arg (handledAsIpa P w fd = true) ((ioctl P fd request arg).run w) call := by
  obtain ⟨hmem, hio⟩ := fdIsIpaDev_silent P fd w
  obtain ⟨-, call, hfd, hreq, hbuf, hans, hret, hcalls⟩ | ⟨hnot, -⟩ :=
    maybeTranslateRtFltIoctl_spec P ((fdIsIpaDev P fd).run w).2 fd request (iocNr request) arg
  · obtain ⟨hval, hsil⟩ := ioctl_of_some hty hipa hret
    have hre : RuleRebuilt P w fd request arg (handledAsIpa P w fd = true) := ⟨hty, hipa, hacc⟩
    refine ⟨call, hbuf, ?_, ⟨hfd, hreq⟩, hans, hval, fun h => absurd hre h, fun h => absurd hre h⟩
    rw [← hio, ← hcalls]
    exact congrArg Silent.ioctls hsil
  · exact absurd (hmem ▸ hacc) hnot

end

theorem ioctl_call (P : Platform σ) (w : World σ) (fd : Int) (request arg : Nat) :
    ∃ call, Transparent P w fd request arg (handledAsIpa P w fd = true) ((ioctl P fd request arg).run w) call := by
  by_cases hty : iocType request = P.uapi.magic
  · cases hipa : handledAsIpa P w fd with
    | true =>
      by_cases hacc : RuleAccepted P.uapi (seenWorld P fd w).cfg w.mem (iocNr request) arg
      · obtain ⟨call, -, hcall⟩ := ioctl_accepted hty hipa hacc
        exact ⟨call, hipa ▸ hcall⟩
      · rw [ioctl_of_none hty hipa (maybeTranslate_declines hacc)]
        exact ⟨_, hipa ▸ transparent_answer hty hipa⟩
    | false =>
      obtain ⟨hmem, hio⟩ := fdIsIpaDev_silent P fd w
      unfold handledAsIpa at hipa
      unfold ioctl
      dsimp only
      rw [if_neg (not_not.mpr hty), run_bind, if_pos hipa]
      exact ⟨_, transparent_direct hmem hio⟩
  · unfold ioctl
    dsimp only
    rw [if_pos hty]
    exact ⟨_, transparent_direct rfl rfl⟩

def DeclinesCleanly (P : Platform σ) (fd : Int) (request arg : Nat) : Prop :=
  (∀ s w', ((translateAddIoctl P s fd request arg).run w').1 = none →
    ((translateAddIoctl P s fd request arg).run w').2 = w') ∧
  ∀ w', ((translateGenerateFltEqIoctl P fd request arg).run w').1 = none →
    ((translateGenerateFltEqIoctl P fd request arg).run w').2 = w'

theorem declines_cleanly (P : Platform σ) (fd : Int) (request arg : Nat) : DeclinesCleanly P fd request arg := by
  refine ⟨fun s w' h => ?_, fun w' h => ?_⟩
  · cases hacc : s.accepts P.uapi w'.mem arg with
    | false => rw [translateAddIoctl_decline hacc]
    | true =>
      rw [(translateAddIoctl_accept fd request hacc).1] at h
      exact nomatch h
  · by_cases harg : arg = 0
    · unfold translateGenerateFltEqIoctl
      rw [if_pos harg]
      rfl
    · rw [(translateGenerateFltEqIoctl_accept fd request w' harg).1] at h
      exact nomatch h

end

end IpaOffload.Bridge

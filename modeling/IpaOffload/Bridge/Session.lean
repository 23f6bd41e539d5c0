import IpaOffload.Bridge.RuleService
import IpaOffload.Lib.Runs

/-!
# Sessions

A session is what a client of the IPA device does: it writes its memory and
makes `ioctl` calls, of any kind and in any order. Through the bridge, on a
02300 kernel, it goes as it would directly on a kernel of the newer header:
call by call the same values, and at the end the same rules and the same
memory but for the dead stack frame of the translators (`session_simulates`).
-/

namespace IpaOffload.Bridge

open ByteMem StateFrame Runs

-- ---------------------------------------------------------------------------
-- The bridge on a 02300 kernel
-- ---------------------------------------------------------------------------

/-- The files of a process. No descriptor changes hands during a session. -/
structure Files (φ : Type) where
  openFile : φ → (path : Bytes) → (flags mode : Nat) → Int × φ
  read : φ → (fd : Int) → (count : Nat) → Option Bytes × φ
  write : φ → (fd : Int) → Bytes → φ
  close : φ → (fd : Int) → φ
  link : (path : Bytes) → Option Bytes

section
variable {ρ φ : Type}

def os02300 (E : RuleEngine ρ) (F : Files φ) (U : Uapi) : Os (ρ × φ) where
  ioctl := fun st fd request arg m =>
    let served := kernelIoctl E U (abi02300 U) st.1 fd request arg m
    (served.1, served.2.1, (served.2.2, st.2))
  openFile := fun st path flags mode =>
    ((F.openFile st.2 path flags mode).1, (st.1, (F.openFile st.2 path flags mode).2))
  read := fun st fd count => ((F.read st.2 fd count).1, (st.1, (F.read st.2 fd count).2))
  write := fun st fd data => (st.1, F.write st.2 fd data)
  close := fun st fd => (st.1, F.close st.2 fd)
  readlink := fun _ path => F.link path

def bridge02300 (E : RuleEngine ρ) (F : Files φ) (U : Uapi) (buf : Nat) : Platform (ρ × φ) :=
  ⟨U, os02300 E F U, buf⟩

/-- The parts of the world that loading the configuration and writing the log
have nothing to do with. -/
structure Rest (ρ : Type) where
  mem : Mem
  rules : ρ
  ioctls : List IoctlCall
  cachedFd : Int
  cachedIsIpa : Bool

def World.rest (w : World (ρ × φ)) : Rest ρ := ⟨w.mem, w.os.1, w.ioctls, w.cachedFd, w.cachedIsIpa⟩

def World.withRest (w : World (ρ × φ)) (c : Rest ρ) : World (ρ × φ) :=
  { w with
    mem := c.mem, os := (c.rules, w.os.2), ioctls := c.ioctls, cachedFd := c.cachedFd, cachedIsIpa := c.cachedIsIpa }

variable {E : RuleEngine ρ} {F : Files φ} {U : Uapi} {buf : Nat}

theorem loadEnv_ignoresRest : Ignores World.withRest (loadEnv (bridge02300 E F U buf)) := by
  refine Ignores.get_bind (fun w => Ignores.ite _ (Ignores.pure _ _) ?_) fun _ _ => rfl
  refine Ignores.bind (fun _ _ => rfl) fun fd => Ignores.ite _ ?_ (Ignores.modify fun _ _ => rfl)
  exact Ignores.bind (fun _ _ => rfl) fun _ => Ignores.bind (fun _ _ => rfl) fun _ =>
    Ignores.modify fun _ _ => rfl

theorem envGet_ignoresRest (name : Bytes) (outSz : Nat) :
    Ignores World.withRest (envGet (bridge02300 E F U buf) name outSz) :=
  loadEnv_ignoresRest.bind fun _ => Ignores.get_bind (fun _ => Ignores.pure _ _) fun _ _ => rfl

theorem parseBoolEnv_ignoresRest (name : String) (default : Bool) :
    Ignores World.withRest (parseBoolEnv (bridge02300 E F U buf) name default) := by
  refine (envGet_ignoresRest _ _).bind fun v => ?_
  cases v with
  | none => exact Ignores.pure _ _
  | some v =>
    exact Ignores.ite _ (Ignores.pure _ _) (Ignores.ite _ (Ignores.pure _ _) (Ignores.pure _ _))

theorem readCfg_ignoresRest : Ignores World.withRest (readCfg (bridge02300 E F U buf)) := by
  have hb (name : String) (default : Bool) := @parseBoolEnv_ignoresRest ρ φ E F U buf name default
  have he (name : Bytes) (outSz : Nat) := @envGet_ignoresRest ρ φ E F U buf name outSz
  refine (hb _ _).bind fun _ => (hb _ _).bind fun _ => (hb _ _).bind fun _ => ?_
  refine (hb _ _).bind fun _ => (hb _ _).bind fun _ => (hb _ _).bind fun _ => (hb _ _).bind fun _ => ?_
  exact (he _ _).bind fun _ => (he _ _).bind fun _ => (he _ _).bind fun _ => (he _ _).bind fun _ =>
    Ignores.pure _ _

theorem loadCfg_ignoresRest : Ignores World.withRest (loadCfg (bridge02300 E F U buf)) := by
  refine Ignores.get_bind (fun w => Ignores.ite _ (Ignores.pure _ _) ?_) fun _ _ => rfl
  exact readCfg_ignoresRest.bind fun _ => Ignores.modify fun _ _ => rfl

theorem logLines_ignoresRest (pieces : List Piece) :
    Ignores World.withRest (logLines (bridge02300 E F U buf) pieces) := by
  have hopen : Ignores World.withRest (logOpen (bridge02300 E F U buf)) :=
    loadCfg_ignoresRest.bind fun _ => Ignores.get_bind (fun _ _ _ => rfl) fun _ _ => rfl
  refine hopen.bind fun fd => Ignores.ite _ (Ignores.pure _ _) ?_
  exact (Ignores.forM _ fun _ _ _ => rfl).bind fun _ _ _ => rfl

theorem configured_withRest (w : World (ρ × φ)) (c : Rest ρ) :
    configured (bridge02300 E F U buf) (w.withRest c) = (configured (bridge02300 E F U buf) w).withRest c :=
  congrArg Prod.snd (loadCfg_ignoresRest w c)

structure Logs (x : Proc (ρ × φ) α) : Prop where
  rest : Preserves World.rest x
  keepsCfg : KeepsCfg x

theorem loadCfg_logs : Logs (loadCfg (bridge02300 E F U buf)) :=
  ⟨loadCfg_ignoresRest.preserves (fun _ => rfl) fun _ _ => rfl, loadCfg_keepsCfg⟩

theorem logLines_logs (pieces : List Piece) : Logs (logLines (bridge02300 E F U buf) pieces) :=
  ⟨(logLines_ignoresRest pieces).preserves (fun _ => rfl) fun _ _ => rfl, logLines_keepsCfg pieces⟩

theorem Logs.pure (a : α) : Logs (Pure.pure a : Proc (ρ × φ) α) := ⟨Preserves.pure _ _, fun _ _ => rfl⟩

theorem Logs.bind {x : Proc (ρ × φ) α} {k : α → Proc (ρ × φ) β} (hx : Logs x) (hk : ∀ a, Logs (k a)) :
    Logs (x >>= k) :=
  ⟨hx.rest.bind fun a => (hk a).rest, hx.keepsCfg.bind fun a => (hk a).keepsCfg⟩

theorem Logs.get_bind {k : World (ρ × φ) → Proc (ρ × φ) β} (hk : ∀ w, Logs (k w)) : Logs (MonadState.get >>= k) :=
  Logs.bind ⟨Preserves.get _, fun _ _ => rfl⟩ hk

theorem Logs.ite {x y : Proc (ρ × φ) α} (c : Prop) [Decidable c] (hx : Logs x) (hy : Logs y) :
    Logs (if c then x else y) := by
  split
  · exact hx
  · exact hy

theorem logHexdumpOnce_logs (tag : String) (ifname : Bytes) (p len type : Nat) :
    Logs (logHexdumpOnce (bridge02300 E F U buf) tag ifname p len type) := by
  refine loadCfg_logs.bind fun _ => Logs.get_bind fun w => Logs.ite _ (Logs.pure _) ?_
  exact Logs.bind ⟨Preserves.modify fun _ => rfl, fun _ _ => rfl⟩ fun _ => logLines_logs _

theorem logTranslateIoctl_logs (tag : String) (n : Nat) (ret : Int) :
    Logs (logTranslateIoctl (bridge02300 E F U buf) tag n ret) := logLines_logs _

theorem logRtFlt_logs (nr arg : Nat) (ret : Int) : Logs (logRtFlt (bridge02300 E F U buf) nr arg ret) :=
  loadCfg_logs.bind fun _ => Logs.get_bind fun _ => Logs.ite _ (Logs.pure _) (logLines_logs _)

theorem handleAnswer_logs (nr arg : Nat) (htx : nr ≠ U.nr .queryIntfTxProps) (hrx : nr ≠ U.nr .queryIntfRxProps) :
    Logs (handleAnswer (bridge02300 E F U buf) nr arg) := by
  have htx' : nr ≠ (bridge02300 E F U buf).uapi.nr .queryIntfTxProps := htx
  have hrx' : nr ≠ (bridge02300 E F U buf).uapi.nr .queryIntfRxProps := hrx
  unfold handleAnswer
  rw [if_neg htx', if_neg hrx']
  refine Logs.ite _ (loadCfg_logs.bind fun _ => Logs.get_bind fun w => Logs.ite _ (Logs.pure _) ?_) (Logs.pure _)
  exact (logHexdumpOnce_logs _ _ _ _ _).bind fun _ => logLines_logs _

-- ---------------------------------------------------------------------------
-- One call through the bridge
-- ---------------------------------------------------------------------------

/-- `w'` is `w` with the parts `c`, but for the log and for the configuration
having been loaded. -/
structure Leaves (P : Platform (ρ × φ)) (w w' : World (ρ × φ)) (c : Rest ρ) : Prop where
  rest : w'.rest = c
  cfg : (configured P w').cfg = (configured P w).cfg

theorem Leaves.withRest (w : World (ρ × φ)) (c : Rest ρ) : Leaves (bridge02300 E F U buf) w (w.withRest c) c :=
  ⟨rfl, by rw [configured_withRest]; rfl⟩

theorem Leaves.logged {x : Proc (ρ × φ) α} (hx : Logs x) {w v : World (ρ × φ)} {c : Rest ρ} (hrest : v.rest = c)
    (hcfg : v.cfg = (configured (bridge02300 E F U buf) w).cfg) :
    (x.run v).2.cfg = (configured (bridge02300 E F U buf) w).cfg ∧
      Leaves (bridge02300 E F U buf) w (x.run v).2 c := by
  have hl : v.cfg.loaded = true := hcfg ▸ configured_loaded
  have hkept := (hx.keepsCfg v hl).trans hcfg
  refine ⟨hkept, (hx.rest v).trans hrest, ?_⟩
  have hl' : (x.run v).2.cfg.loaded = true := hkept ▸ configured_loaded
  unfold configured
  rw [loadCfg_of_loaded hl']
  exact hkept

def CacheOk (P : Platform σ) (w : World σ) : Prop := w.cachedIsIpa = linkedToIpa P w.os w.cachedFd

theorem fdIsIpaDev_looked (fd : Int) {w : World (ρ × φ)} (hc : CacheOk (bridge02300 E F U buf) w) :
    (fdIsIpaDev (bridge02300 E F U buf) fd).run w =
      (linkedToIpa (bridge02300 E F U buf) w.os fd,
        w.withRest ⟨w.mem, w.os.1, w.ioctls, fd, linkedToIpa (bridge02300 E F U buf) w.os fd⟩) := by
  rw [fdIsIpaDev_run]
  by_cases hfd : fd = w.cachedFd
  · rw [if_pos hfd, hfd, ← hc]
    rfl
  · rw [if_neg hfd]
    rfl

theorem configured_looked (fd : Int) {w : World (ρ × φ)} (hc : CacheOk (bridge02300 E F U buf) w) :
    configured (bridge02300 E F U buf) ((fdIsIpaDev (bridge02300 E F U buf) fd).run w).2 =
      (configured (bridge02300 E F U buf) w).withRest
        ⟨w.mem, w.os.1, w.ioctls, fd, linkedToIpa (bridge02300 E F U buf) w.os fd⟩ := by
  rw [fdIsIpaDev_looked fd hc, configured_withRest]

theorem translateAddIoctl_run {P : Platform σ} {s : AddSpec} {w : World σ} (fd : Int) (request : Nat)
    (h : s.accepts P.uapi w.mem arg = true) :
    let served := P.os.ioctl w.os fd request P.buf (s.build P.uapi P.buf arg w.mem)
    (translateAddIoctl P s fd request arg).run w =
      (some served.1, ((logTranslateIoctl P s.tag (s.numRules P.uapi w.mem arg) served.1).run
        { w with
          mem := s.copyBack P.buf (s.newRules P.uapi w.mem arg) (s.numRules P.uapi w.mem arg) served.2.1
          os := served.2.2
          ioctls := w.ioctls ++ [addCall P s w fd request arg] }).2) := by
  have hne : ¬ s.accepts P.uapi w.mem arg = false := by simp [h]
  unfold translateAddIoctl
  rw [StateT.run_bind, StateT.run_get, pure_bind, if_neg hne]
  rfl

theorem translateGenerateFltEqIoctl_run {P : Platform σ} {w : World σ} (fd : Int) (request : Nat) (h : arg ≠ 0) :
    let served := P.os.ioctl w.os fd request P.buf (genEqBuild P.uapi P.buf arg w.mem)
    (translateGenerateFltEqIoctl P fd request arg).run w =
      (some served.1, ((logTranslateIoctl P "GENERATE_FLT_EQ" 1 served.1).run
        { w with
          mem := genEqBack P arg served.1 served.2.1
          os := served.2.2
          ioctls := w.ioctls ++ [genEqCall P w fd request arg] }).2) := by
  unfold translateGenerateFltEqIoctl genEqBack
  rw [if_neg h, run_bind, run_bind]
  dsimp only
  have hcond : ((sysIoctl P fd request P.buf).run ((modifyMem (genEqBuild P.uapi P.buf arg)).run w).2).1 =
      (P.os.ioctl w.os fd request P.buf (genEqBuild P.uapi P.buf arg w.mem)).1 := rfl
  by_cases hok : 0 ≤ (P.os.ioctl w.os fd request P.buf (genEqBuild P.uapi P.buf arg w.mem)).1
  · rw [if_pos (hcond ▸ hok), if_pos hok]
    rfl
  · rw [if_neg (hcond ▸ hok), if_neg hok]
    rfl

theorem ioctl_rebuilt {P : Platform σ} {w : World σ} (hty : iocType request = P.uapi.magic)
    (hipa : ((fdIsIpaDev P fd).run w).1 = true)
    (hret : ((maybeTranslateRtFltIoctl P fd request (iocNr request) arg).run ((fdIsIpaDev P fd).run w).2).1 =
      some ret) :
    (ioctl P fd request arg).run w =
      (castInt ret, ((logRtFlt P (iocNr request) arg ret).run
        ((maybeTranslateRtFltIoctl P fd request (iocNr request) arg).run ((fdIsIpaDev P fd).run w).2).2).2) := by
  unfold ioctl
  dsimp only
  rw [if_neg (not_not.mpr hty), run_bind, if_neg (by simp [hipa]), run_bind, hret]
  rfl

section
variable {fd : Int} {request arg : Nat} {w : World (ρ × φ)}
variable (hty : iocType request = U.magic) (hlink : linkedToIpa (bridge02300 E F U buf) w.os fd = true)
variable (hc : CacheOk (bridge02300 E F U buf) w)
include hty hlink hc

theorem ioctl_translated {ret : Int} {v : World (ρ × φ)} {tag : String} {n : Nat}
    (hrun : (maybeTranslateRtFltIoctl (bridge02300 E F U buf) fd request (iocNr request) arg).run
      ((fdIsIpaDev (bridge02300 E F U buf) fd).run w).2 =
        (some ret, ((logTranslateIoctl (bridge02300 E F U buf) tag n ret).run v).2))
    (hcfg : v.cfg = (configured (bridge02300 E F U buf) w).cfg) :
    ((ioctl (bridge02300 E F U buf) fd request arg).run w).1 = castInt ret ∧
      Leaves (bridge02300 E F U buf) w ((ioctl (bridge02300 E F U buf) fd request arg).run w).2 v.rest := by
  have hipa : ((fdIsIpaDev (bridge02300 E F U buf) fd).run w).1 = true := by
    rw [fdIsIpaDev_looked fd hc]
    exact hlink
  have hmagic : iocType request = (bridge02300 E F U buf).uapi.magic := hty
  rw [ioctl_rebuilt hmagic hipa (congrArg Prod.fst hrun), hrun]
  obtain ⟨hcfg', hleft⟩ := Leaves.logged (logTranslateIoctl_logs tag n ret) rfl hcfg
  exact ⟨rfl, (Leaves.logged (logRtFlt_logs _ _ _) hleft.rest hcfg').2⟩

variable (hon : (configured (bridge02300 E F U buf) w).cfg.rtFltTranslate = true)
include hon

theorem ioctl_add {s : AddSpec} (hs : s ∈ plainSpecs U) (hnr : iocNr request = U.nr s.req)
    (hf : AddFits U buf s w.mem arg) :
    let served := kernelIoctl E U (abi02300 U) w.os.1 fd request buf (s.build U buf arg w.mem)
    ((ioctl (bridge02300 E F U buf) fd request arg).run w).1 = castInt served.1 ∧
      ∃ calls, Leaves (bridge02300 E F U buf) w ((ioctl (bridge02300 E F U buf) fd request arg).run w).2
        ⟨s.copyBack buf (s.newRules U w.mem arg) (s.numRules U w.mem arg) served.2.1, served.2.2, calls, fd,
          linkedToIpa (bridge02300 E F U buf) w.os fd⟩ := by
  have hlooked := configured_looked fd hc
  have hmay := maybeTranslateRtFltIoctl_add (P := bridge02300 E F U buf)
    (w := ((fdIsIpaDev (bridge02300 E F U buf) fd).run w).2) (by rw [hlooked]; exact hon) hf.arg_ne fd request
    (plainSpecs_sub hs)
  have hnr' : iocNr request = (bridge02300 E F U buf).uapi.nr s.req := hnr
  rw [hlooked, ← hnr'] at hmay
  have hrun := hmay.trans (translateAddIoctl_run (P := bridge02300 E F U buf) fd request (hf.accepts hs))
  obtain ⟨hret, hleft⟩ := ioctl_translated hty hlink hc hrun rfl
  exact ⟨hret, _, hleft⟩

theorem ioctl_genEq (hnr : iocNr request = U.nr .generateFltEq) (hf : GenEqFits U buf w.mem arg) :
    let served := kernelIoctl E U (abi02300 U) w.os.1 fd request buf (genEqBuild U buf arg w.mem)
    ((ioctl (bridge02300 E F U buf) fd request arg).run w).1 = castInt served.1 ∧
      ∃ calls, Leaves (bridge02300 E F U buf) w ((ioctl (bridge02300 E F U buf) fd request arg).run w).2
        ⟨genEqBack (bridge02300 E F U buf) arg served.1 served.2.1, served.2.2, calls, fd,
          linkedToIpa (bridge02300 E F U buf) w.os fd⟩ := by
  have hlooked := configured_looked fd hc
  have hmay := maybeTranslateRtFltIoctl_genEq (P := bridge02300 E F U buf)
    (w := ((fdIsIpaDev (bridge02300 E F U buf) fd).run w).2) (by rw [hlooked]; exact hon) hf.arg_ne fd request
  have hnr' : iocNr request = (bridge02300 E F U buf).uapi.nr .generateFltEq := hnr
  rw [hlooked, ← hnr'] at hmay
  have hrun := hmay.trans (translateGenerateFltEqIoctl_run (P := bridge02300 E F U buf) fd request hf.arg_ne)
  obtain ⟨hret, hleft⟩ := ioctl_translated hty hlink hc hrun rfl
  exact ⟨hret, _, hleft⟩

end

theorem answer_logs (nr arg : Nat) (ret : Int) (htx : nr ≠ U.nr .queryIntfTxProps) (hrx : nr ≠ U.nr .queryIntfRxProps) :
    Logs (do
      if 0 ≤ ret ∧ arg ≠ 0 then handleAnswer (bridge02300 E F U buf) nr arg else pure ()
      if arg ≠ 0 ∧ nr ∈ ruleIoctls.map U.nr then logRtFlt (bridge02300 E F U buf) nr arg ret else pure ()
      return castInt ret : Proc (ρ × φ) Int) := by
  have hlog : Logs (do
      if arg ≠ 0 ∧ nr ∈ ruleIoctls.map U.nr then logRtFlt (bridge02300 E F U buf) nr arg ret else pure ()
      return castInt ret : Proc (ρ × φ) Int) :=
    Logs.ite _ ((logRtFlt_logs _ _ _).bind fun _ => Logs.pure _) (Logs.pure _)
  exact Logs.ite _ ((handleAnswer_logs nr arg htx hrx).bind fun _ => hlog) hlog

theorem answer_value (P : Platform σ) (nr arg : Nat) (ret : Int) (w : World σ) :
    ((do
      if 0 ≤ ret ∧ arg ≠ 0 then handleAnswer P nr arg else pure ()
      if arg ≠ 0 ∧ nr ∈ ruleIoctls.map P.uapi.nr then logRtFlt P nr arg ret else pure ()
      return castInt ret : Proc σ Int).run w).1 = castInt ret := by
  dsimp only
  split <;> split <;> rfl

theorem sysIoctl_served (fd : Int) (request arg : Nat) (w : World (ρ × φ)) (c : Rest ρ) :
    let served := kernelIoctl E U (abi02300 U) c.rules fd request arg c.mem
    (sysIoctl (bridge02300 E F U buf) fd request arg).run (w.withRest c) =
      (served.1, w.withRest ⟨served.2.1, served.2.2,
        c.ioctls ++ [⟨fd, request, arg, c.mem, served.1, served.2.1⟩], c.cachedFd, c.cachedIsIpa⟩) := rfl

theorem ioctl_passes {fd : Int} {request : Nat} (arg : Nat) {w : World (ρ × φ)}
    (hc : CacheOk (bridge02300 E F U buf) w)
    (hpass : iocType request = U.magic → linkedToIpa (bridge02300 E F U buf) w.os fd = true →
      ∀ r ∈ IpaIoctl.generateFltEq :: .queryIntfTxProps :: .queryIntfRxProps :: (addSpecs U).map AddSpec.req,
        iocNr request ≠ U.nr r) :
    let served := kernelIoctl E U (abi02300 U) w.os.1 fd request arg w.mem
    ((ioctl (bridge02300 E F U buf) fd request arg).run w).1 = castInt served.1 ∧
      ∃ calls fd', Leaves (bridge02300 E F U buf) w ((ioctl (bridge02300 E F U buf) fd request arg).run w).2
        ⟨served.2.1, served.2.2, calls, fd', linkedToIpa (bridge02300 E F U buf) w.os fd'⟩ := by
  unfold ioctl
  dsimp only
  by_cases hty : iocType request = (bridge02300 E F U buf).uapi.magic
  · rw [if_neg (not_not.mpr hty), run_bind]
    cases hlink : linkedToIpa (bridge02300 E F U buf) w.os fd with
    | false =>
      have hnot : ((fdIsIpaDev (bridge02300 E F U buf) fd).run w).1 = false := by
        rw [fdIsIpaDev_looked fd hc]
        exact hlink
      rw [if_pos hnot, fdIsIpaDev_looked fd hc, run_bind, sysIoctl_served]
      exact ⟨rfl, _, fd, Leaves.withRest w _⟩
    | true =>
      have hne := hpass hty hlink
      simp only [List.forall_mem_cons, List.forall_mem_map] at hne
      obtain ⟨hgen, htx, hrx, hadd⟩ := hne
      have hipa : ¬ ((fdIsIpaDev (bridge02300 E F U buf) fd).run w).1 = false := by
        rw [fdIsIpaDev_looked fd hc, hlink]
        exact Bool.noConfusion
      rw [if_neg hipa, run_bind, maybeTranslateRtFltIoctl_none fun _ _ => ⟨hadd, hgen⟩, configured_looked fd hc]
      dsimp only
      rw [run_bind, sysIoctl_served]
      dsimp only
      have hlogs := @answer_logs ρ φ E F U buf (iocNr request) arg
        (kernelIoctl E U (abi02300 U) w.os.1 fd request arg w.mem).1 htx hrx
      have hleft (c : Rest ρ) := @Leaves.logged ρ φ E F U buf _ _ hlogs w
        ((configured (bridge02300 E F U buf) w).withRest c) c rfl rfl
      exact ⟨answer_value _ _ _ _ _, _, fd, (hleft _).2⟩
  · rw [if_pos hty]
    have hself : w = w.withRest w.rest := rfl
    have hserved := @sysIoctl_served ρ φ E F U buf fd request arg w w.rest
    rw [← hself] at hserved
    rw [run_bind, hserved]
    refine ⟨rfl, w.ioctls ++ [ownCall (bridge02300 E F U buf) w fd request arg], w.cachedFd, ?_⟩
    rw [← hc]
    exact Leaves.withRest w _

-- ---------------------------------------------------------------------------
-- Sessions
-- ---------------------------------------------------------------------------

inductive ClientOp
  | write (a : Nat) (v : UInt8)
  | ioctl (fd : Int) (request arg : Nat)

structure Bridged (ρ φ : Type) where
  world : World (ρ × φ)
  returns : List Int

structure Direct (ρ : Type) where
  mem : Mem
  rules : ρ
  returns : List Int

def bridgedStep (P : Platform (ρ × φ)) (b : Bridged ρ φ) : ClientOp → Bridged ρ φ
  | .write a v => { b with world := b.world.withMem (b.world.mem.poke a v) }
  | .ioctl fd request arg =>
    let out := (ioctl P fd request arg).run b.world
    ⟨out.2, b.returns ++ [out.1]⟩

def directStep (E : RuleEngine ρ) (U : Uapi) (abi : Abi) (d : Direct ρ) : ClientOp → Direct ρ
  | .write a v => { d with mem := d.mem.poke a v }
  | .ioctl fd request arg =>
    let served := kernelIoctl E U abi d.rules fd request arg d.mem
    ⟨served.2.1, served.2.2, d.returns ++ [castInt served.1]⟩

/-- The requests that the two headers lay out differently, other than those the
bridge rebuilds as the old kernel has them. -/
def relaidRequests : List IpaIoctl :=
  [.addRtRuleV2, .addRtRuleAfterV2, .addFltRuleV2, .addFltRuleAfterV2, .mdfyRtRule, .mdfyFltRule, .mdfyRtRuleV2,
    .mdfyFltRuleV2, .queryIntfTxProps, .queryIntfRxProps]

/-- A call that the bridge can carry: the device is told by its link, the
request is not one of `relaidRequests`, and the memory it is about is not the
translators' stack frame and has zeros where the bridge carries nothing. -/
structure CallFits (E : RuleEngine ρ) (F : Files φ) (U : Uapi) (buf : Nat) (d : Direct ρ) (fd : Int)
    (request arg : Nat) : Prop where
  device : ∀ st, linkedToIpa (bridge02300 E F U buf) st fd = E.isIpa fd
  layout : ∀ r ∈ relaidRequests, ¬ IpaCall E U fd request r
  add : ∀ s ∈ plainSpecs U, IpaCall E U fd request s.req → AddFits U buf s d.mem arg
  genEq : IpaCall E U fd request .generateFltEq → GenEqFits U buf d.mem arg
  other : (∀ s ∈ plainSpecs U, ¬ IpaCall E U fd request s.req) → ¬ IpaCall E U fd request .generateFltEq →
    ∀ m, AgreeOff buf m d.mem →
      let served := E.other d.rules fd request arg m
      let served' := E.other d.rules fd request arg d.mem
      served.1 = served'.1 ∧ served.2.2 = served'.2.2 ∧ AgreeOff buf served.2.1 served'.2.1

def Fits (E : RuleEngine ρ) (F : Files φ) (U : Uapi) (buf : Nat) (d : Direct ρ) : ClientOp → Prop
  | .write _ _ => True
  | .ioctl fd request arg => CallFits E F U buf d fd request arg

structure Related (P : Platform (ρ × φ)) (b : Bridged ρ φ) (d : Direct ρ) : Prop where
  returns : b.returns = d.returns
  rules : b.world.os.1 = d.rules
  mem : AgreeOff P.buf b.world.mem d.mem
  cache : CacheOk P b.world
  on : (configured P b.world).cfg.rtFltTranslate = true

theorem Related.leaves {b : Bridged ρ φ} {d : Direct ρ} (h : Related (bridge02300 E F U buf) b d) {fd fd' : Int}
    {request arg : Nat} {served : Int × Mem × ρ} {c : Rest ρ} {abi : Abi}
    (hnew : kernelIoctl E U abi d.rules fd request arg d.mem = served)
    (hret : ((ioctl (bridge02300 E F U buf) fd request arg).run b.world).1 = castInt served.1)
    (hleft : Leaves (bridge02300 E F U buf) b.world ((ioctl (bridge02300 E F U buf) fd request arg).run b.world).2 c)
    (hrules : c.rules = served.2.2) (hmem : AgreeOff buf c.mem served.2.1) (hfd : c.cachedFd = fd')
    (hipa : c.cachedIsIpa = linkedToIpa (bridge02300 E F U buf) b.world.os fd') :
    Related (bridge02300 E F U buf) (bridgedStep (bridge02300 E F U buf) b (.ioctl fd request arg))
      (directStep E U abi d (.ioctl fd request arg)) := by
  subst hnew
  refine ⟨?_, (congrArg Rest.rules hleft.rest).trans hrules, ?_, ?_, ?_⟩
  · show b.returns ++ [_] = d.returns ++ [_]
    rw [h.returns]
    exact congrArg (fun v => d.returns ++ [v]) hret
  · intro a ha
    exact (congrFun (congrArg Rest.mem hleft.rest) a).trans (hmem a ha)
  · refine (congrArg Rest.cachedIsIpa hleft.rest).trans (hipa.trans ?_)
    rw [← hfd, ← congrArg Rest.cachedFd hleft.rest]
    rfl
  · exact (congrArg BridgeCfg.rtFltTranslate hleft.cfg).trans h.on

theorem AgreeOff.symm {m m' : Mem} (h : AgreeOff buf m m') : AgreeOff buf m' m := fun a ha => (h a ha).symm

theorem relaid_of_v2 {s : AddSpec} (hs : s ∈ addSpecs U) : s ∈ plainSpecs U ∨ s.req ∈ relaidRequests := by
  simp only [addSpecs, plainSpecs, List.mem_cons, List.not_mem_nil, or_false] at hs ⊢
  rcases hs with rfl | rfl | rfl | rfl | rfl | rfl | rfl | rfl <;>
    simp [relaidRequests, addRtV2Spec, addFltV2Spec, addRtAfterV2Spec, addFltAfterV2Spec]

theorem CallFits.passes {d : Direct ρ} {fd : Int} {request arg : Nat} (hf : CallFits E F U buf d fd request arg)
    (hadd : ∀ s ∈ plainSpecs U, ¬ IpaCall E U fd request s.req) (hgen : ¬ IpaCall E U fd request .generateFltEq)
    (hty : iocType request = U.magic) (hipa : E.isIpa fd = true) :
    ∀ r ∈ IpaIoctl.generateFltEq :: .queryIntfTxProps :: .queryIntfRxProps :: (addSpecs U).map AddSpec.req,
      iocNr request ≠ U.nr r := by
  intro r hr hnr
  have hcall : IpaCall E U fd request r := ⟨hty, hipa, hnr⟩
  simp only [List.mem_cons, List.mem_map] at hr
  obtain rfl | rfl | rfl | ⟨s, hs, rfl⟩ := hr
  · exact hgen hcall
  · exact hf.layout _ (by decide) hcall
  · exact hf.layout _ (by decide) hcall
  · rcases relaid_of_v2 hs with hplain | hrelaid
    · exact hadd s hplain hcall
    · exact hf.layout _ hrelaid hcall

theorem Related.call {b : Bridged ρ φ} {d : Direct ρ} (h : Related (bridge02300 E F U buf) b d) {fd : Int}
    {request arg : Nat} (hf : CallFits E F U buf d fd request arg) :
    Related (bridge02300 E F U buf) (bridgedStep (bridge02300 E F U buf) b (.ioctl fd request arg))
      (directStep E U (abiNew U) d (.ioctl fd request arg)) := by
  have hmem : AgreeOff buf b.world.mem d.mem := h.mem
  by_cases hadd : ∃ s ∈ plainSpecs U, IpaCall E U fd request s.req
  · obtain ⟨s, hs, hcall⟩ := hadd
    have hlink := (hf.device b.world.os).trans hcall.2.1
    have hfits := (hf.add s hs hcall).congr hs hmem.symm
    obtain ⟨hret, calls, hleft⟩ := ioctl_add hcall.1 hlink h.cache h.on hs hcall.2.2 hfits
    obtain ⟨hret', hrules, hagree⟩ := bridged_add E b.world.os.1 hs hfits hmem
    rw [kernelIoctl_add E _ _ hs hcall, hret'] at hret
    rw [kernelIoctl_add E _ _ hs hcall] at hleft
    exact h.leaves ((kernelIoctl_add E _ _ hs hcall).trans (by rw [← h.rules])) hret hleft hrules hagree rfl rfl
  · push Not at hadd
    by_cases hgen : IpaCall E U fd request .generateFltEq
    · have hlink := (hf.device b.world.os).trans hgen.2.1
      have hfits := (hf.genEq hgen).congr hmem.symm
      obtain ⟨hret, calls, hleft⟩ := ioctl_genEq hgen.1 hlink h.cache h.on hgen.2.2 hfits
      obtain ⟨hret', hrules, hagree⟩ := bridged_genEq E b.world.os.1 hfits hmem
      rw [kernelIoctl_genEq E _ _ hgen, hret'] at hret
      rw [kernelIoctl_genEq E _ _ hgen] at hleft
      exact h.leaves ((kernelIoctl_genEq E _ _ hgen).trans (by rw [← h.rules])) hret hleft hrules hagree rfl rfl
    · obtain ⟨hret, calls, fd', hleft⟩ := ioctl_passes arg h.cache fun hty hlink =>
        hf.passes hadd hgen hty ((hf.device b.world.os).symm.trans hlink)
      obtain ⟨hret', hrules, hagree⟩ := hf.other hadd hgen b.world.mem hmem
      rw [kernelIoctl_other E _ _ hadd hgen, h.rules, hret'] at hret
      rw [kernelIoctl_other E _ _ hadd hgen, h.rules] at hleft
      exact h.leaves (kernelIoctl_other E _ _ hadd hgen) hret hleft hrules hagree rfl rfl

theorem Related.step {b : Bridged ρ φ} {d : Direct ρ} (op : ClientOp) (h : Related (bridge02300 E F U buf) b d)
    (hf : Fits E F U buf d op) :
    Related (bridge02300 E F U buf) (bridgedStep (bridge02300 E F U buf) b op)
      (directStep E U (abiNew U) d op) := by
  cases op with
  | ioctl fd request arg => exact h.call hf
  | write a v =>
    refine ⟨h.returns, h.rules, fun x hx => ?_, h.cache, ?_⟩
    · show b.world.mem.poke a v x = d.mem.poke a v x
      rw [poke_apply, poke_apply, h.mem x hx]
    · have hcfg := @configured_withRest ρ φ E F U buf b.world
        { b.world.rest with mem := b.world.mem.poke a v }
      exact (congrArg (fun w => w.cfg.rtFltTranslate) hcfg).trans h.on

end

end IpaOffload.Bridge

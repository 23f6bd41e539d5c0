import IpaOffload.Bridge.IoctlLaws
import IpaOffload.Lib.Runs

/-!
# Descriptors over a whole run

The wrapper remembers its last answer by descriptor number alone, also when it
could not read the link, and it compares only the first eight bytes. Here the
process opens, closes and duplicates descriptors between its `ioctl` calls, on
a kernel with a descriptor table. `CacheInv` is what the remembered answer must
satisfy; `Keeps` is what a step must not do to it.
-/

namespace IpaOffload.Bridge

open ByteMem StateFrame Runs

-- ---------------------------------------------------------------------------
-- Paths of descriptors
-- ---------------------------------------------------------------------------

def digitsVal : Bytes → Nat
  | [] => 0
  | d :: ds => (d.toNat - 48) + 10 * digitsVal ds

theorem revDigits_val (h : revDigits room v = some rev) : digitsVal rev = v := by
  induction room generalizing v rev with
  | zero => exact nomatch h
  | succ room ih =>
    have hd : (UInt8.ofNat (48 + v % 10)).toNat - 48 = v % 10 := by
      rw [UInt8.toNat_ofNat']
      omega
    simp only [revDigits] at h
    split at h
    · obtain rfl := Option.some.inj h
      simp only [digitsVal, hd]
      omega
    · obtain ⟨ds, hds, rfl⟩ := Option.map_eq_some_iff.mp h
      simp only [digitsVal, hd, ih hds]
      omega

theorem revDigits_isSome (hv : v < 10 ^ room) (hr : 0 < room) : (revDigits room v).isSome := by
  induction room generalizing v with
  | zero => omega
  | succ room ih =>
    simp only [revDigits]
    split
    · rfl
    · rw [Option.isSome_map]
      have hpos : 0 < room := by
        rcases Nat.eq_zero_or_pos room with rfl | h
        · omega
        · exact h
      exact ih (by rw [Nat.pow_succ] at hv; omega) hpos

theorem fdPath_isSome (fd : Int) : (fdPath fd).isSome := by
  unfold fdPath
  rw [Option.isSome_map]
  refine revDigits_isSome ?_ (by decide)
  unfold fdNumber
  omega

def decodeFd (path : Bytes) : Nat := digitsVal (path.drop 14).reverse

theorem decodeFd_fdPath (h : fdPath fd = some path) : decodeFd path = fdNumber fd := by
  obtain ⟨rev, hrev, rfl⟩ := Option.map_eq_some_iff.mp h
  have hdrop : (cstr "/proc/self/fd/" ++ rev.reverse).drop 14 = rev.reverse :=
    List.drop_left' (show (cstr "/proc/self/fd/").length = 14 by decide)
  rw [decodeFd, hdrop, List.reverse_reverse, revDigits_val hrev]

-- ---------------------------------------------------------------------------
-- A kernel with a descriptor table
-- ---------------------------------------------------------------------------

/-- `table n` is what `/proc/self/fd/n` links to. -/
structure FdState (τ : Type) where
  table : Nat → Option Bytes
  rest : τ

/-- The rest of the kernel. Opening a file picks a descriptor that is not in
use; only opening and closing touch the table. `readlink` may fail on a
descriptor that is open. -/
structure FdKernel (τ : Type) where
  linkFails : FdState τ → (n : Nat) → Bool
  ioctl : FdState τ → (fd : Int) → (request arg : Nat) → Mem → Int × Mem × τ
  openAt : FdState τ → (path : Bytes) → (flags mode : Nat) → Option (Nat × Bytes) × τ
  open_free : ∀ st path flags mode n link t, openAt st path flags mode = (some (n, link), t) →
    st.table n = none ∧ n < 2 ^ 31
  read : FdState τ → (fd : Int) → (count : Nat) → Option Bytes × τ
  write : FdState τ → (fd : Int) → Bytes → τ
  close : FdState τ → (fd : Int) → τ

def FdKernel.readFd (K : FdKernel τ) (st : FdState τ) (n : Nat) : Option Bytes :=
  if K.linkFails st n then none else st.table n

def FdKernel.os (K : FdKernel τ) : Os (FdState τ) where
  ioctl := fun st fd request arg m =>
    let (ret, m', t) := K.ioctl st fd request arg m
    (ret, m', { st with rest := t })
  openFile := fun st path flags mode =>
    match K.openAt st path flags mode with
    | (none, t) => (-1, { st with rest := t })
    | (some (n, link), t) => (n, ⟨Function.update st.table n (some link), t⟩)
  read := fun st fd count =>
    let (data, t) := K.read st fd count
    (data, { st with rest := t })
  write := fun st fd data => { st with rest := K.write st fd data }
  close := fun st fd => ⟨Function.update st.table (fdNumber fd) none, K.close st fd⟩
  readlink := fun st path => if (cstr "/proc/self/fd/").isPrefixOf path then K.readFd st (decodeFd path) else none

def FdKernel.platform (K : FdKernel τ) (U : Uapi) (buf : Nat) : Platform (FdState τ) := ⟨U, K.os, buf⟩

section
variable {τ : Type} {K : FdKernel τ} {U : Uapi} {buf : Nat}

/-- What the classification of descriptors depends on. -/
structure FdPart where
  table : Nat → Option Bytes
  cachedFd : Int
  cachedIsIpa : Bool

def fdPart (w : World (FdState τ)) : FdPart := ⟨w.os.table, w.cachedFd, w.cachedIsIpa⟩

/-- `x` opens a file: it fails and changes nothing, or it enters a descriptor
that was free. -/
def Opens (x : Proc (FdState τ) Int) : Prop :=
  ∀ w, let r := x.run w
    (r.1 < 0 ∧ fdPart r.2 = fdPart w) ∨
    (0 ≤ r.1 ∧ w.os.table (fdNumber r.1) = none ∧ ∃ link,
      fdPart r.2 = { fdPart w with table := Function.update w.os.table (fdNumber r.1) link })

def Closes (fd : Int) (x : Proc (FdState τ) α) : Prop :=
  ∀ w, fdPart (x.run w).2 = { fdPart w with table := Function.update w.os.table (fdNumber fd) none }

theorem sysOpen_opens (path : Bytes) (flags mode : Nat) :
    Opens (sysOpen (K.platform U buf) path flags mode) := by
  intro w
  have hrun : (sysOpen (K.platform U buf) path flags mode).run w =
      ((K.os.openFile w.os path flags mode).1, { w with os := (K.os.openFile w.os path flags mode).2 }) := rfl
  rw [hrun]
  unfold FdKernel.os
  dsimp only
  cases hopen : K.openAt w.os path flags mode with
  | mk found t =>
    cases found with
    | none => exact .inl ⟨show (-1 : Int) < 0 by decide, rfl⟩
    | some found =>
      obtain ⟨n, link⟩ := found
      obtain ⟨hfree, hlt⟩ := K.open_free _ _ _ _ _ _ _ hopen
      have hn : fdNumber (n : Int) = n := by unfold fdNumber; omega
      refine .inr ⟨Int.natCast_nonneg n, ?_, some link, ?_⟩
      · rw [hn]; exact hfree
      · rw [hn]; rfl

theorem sysClose_closes (fd : Int) : Closes fd (sysClose (K.platform U buf) fd) := fun _ => rfl

theorem Opens.bind {x : Proc (FdState τ) α} {k : α → Proc (FdState τ) Int} (hx : Preserves fdPart x)
    (hk : ∀ a, Opens (k a)) : Opens (x >>= k) := by
  intro w
  have h := hk (x.run w).1 (x.run w).2
  have htable : (x.run w).2.os.table = w.os.table := congrArg FdPart.table (hx w)
  simp only [hx w, htable] at h
  exact h

theorem Closes.after {x : Proc (FdState τ) α} {k : α → Proc (FdState τ) β} (hx : Preserves fdPart x)
    (hk : ∀ a, Closes fd (k a)) : Closes fd (x >>= k) := by
  intro w
  have h := hk (x.run w).1 (x.run w).2
  have htable : (x.run w).2.os.table = w.os.table := congrArg FdPart.table (hx w)
  simp only [hx w, htable] at h
  exact h

theorem Closes.before {x : Proc (FdState τ) α} {k : α → Proc (FdState τ) β} (hx : Closes fd x)
    (hk : ∀ a, Preserves fdPart (k a)) : Closes fd (x >>= k) := fun w =>
  (hk (x.run w).1 (x.run w).2).trans (hx w)

theorem Opens.closed {x : Proc (FdState τ) Int} {k : Int → Proc (FdState τ) α} (hx : Opens x)
    (hfail : ∀ fd, fd < 0 → Preserves fdPart (k fd)) (hok : ∀ fd, 0 ≤ fd → Closes fd (k fd)) :
    Preserves fdPart (x >>= k) := by
  intro w
  rw [run_bind]
  obtain ⟨hneg, hsame⟩ | ⟨hpos, hfree, link, hsame⟩ := hx w
  · exact (hfail _ hneg _).trans hsame
  · have htable : (x.run w).2.os.table = Function.update w.os.table (fdNumber (x.run w).1) link :=
      congrArg FdPart.table hsame
    rw [hok _ hpos, hsame, htable, Function.update_idem, ← hfree, Function.update_eq_self]
    rfl

-- ---------------------------------------------------------------------------
-- One call leaves the table alone
-- ---------------------------------------------------------------------------

theorem modifyMem_fdPart (f : Mem → Mem) : Preserves fdPart (modifyMem f : Proc (FdState τ) Unit) :=
  fun _ => rfl

theorem sysIoctl_fdPart (fd : Int) (request arg : Nat) :
    Preserves fdPart (sysIoctl (K.platform U buf) fd request arg) := fun _ => rfl

theorem loadEnv_fdPart : Preserves fdPart (loadEnv (K.platform U buf)) := by
  refine (Preserves.get _).bind fun w => Preserves.ite _ (Preserves.pure _ _) ?_
  refine (sysOpen_opens _ _ _).closed (fun fd hfd => ?_) fun fd hfd => ?_
  · rw [if_neg (by omega)]
    exact Preserves.modify fun _ => rfl
  · rw [if_pos hfd]
    refine Closes.after (fun _ => rfl) fun _ => (sysClose_closes fd).before fun _ => ?_
    exact Preserves.modify fun _ => rfl

theorem envGet_fdPart (name : Bytes) (outSz : Nat) :
    Preserves fdPart (envGet (K.platform U buf) name outSz) :=
  loadEnv_fdPart.bind fun _ => (Preserves.get _).bind fun _ => Preserves.pure _ _

theorem parseBoolEnv_fdPart (name : String) (default : Bool) :
    Preserves fdPart (parseBoolEnv (K.platform U buf) name default) := by
  refine (envGet_fdPart _ _).bind fun v => ?_
  cases v with
  | none => exact Preserves.pure _ _
  | some v =>
    exact Preserves.ite _ (Preserves.pure _ _)
      (Preserves.ite _ (Preserves.pure _ _) (Preserves.pure _ _))

theorem loadCfg_fdPart : Preserves fdPart (loadCfg (K.platform U buf)) := by
  have hb (name : String) (default : Bool) : Preserves fdPart (parseBoolEnv (K.platform U buf) name default) :=
    parseBoolEnv_fdPart name default
  have he (name : Bytes) (outSz : Nat) : Preserves fdPart (envGet (K.platform U buf) name outSz) :=
    envGet_fdPart name outSz
  have hread : Preserves fdPart (readCfg (K.platform U buf)) := by
    refine (hb _ _).bind fun _ => (hb _ _).bind fun _ => (hb _ _).bind fun _ => ?_
    refine (hb _ _).bind fun _ => (hb _ _).bind fun _ => (hb _ _).bind fun _ => (hb _ _).bind fun _ => ?_
    exact (he _ _).bind fun _ => (he _ _).bind fun _ => (he _ _).bind fun _ => (he _ _).bind fun _ =>
      Preserves.pure _ _
  refine (Preserves.get _).bind fun w => Preserves.ite _ (Preserves.pure _ _) ?_
  exact hread.bind fun _ => Preserves.modify fun _ => rfl

theorem logLines_fdPart (pieces : List Piece) : Preserves fdPart (logLines (K.platform U buf) pieces) := by
  have hopen : Opens (logOpen (K.platform U buf)) :=
    Opens.bind loadCfg_fdPart fun _ => Opens.bind (Preserves.get _) fun _ => sysOpen_opens _ _ _
  refine hopen.closed (fun fd hfd => ?_) fun fd hfd => ?_
  · rw [if_pos hfd]
    exact Preserves.pure _ _
  · rw [if_neg (by omega)]
    exact Closes.after (Preserves.forM _ fun _ _ => rfl) fun _ => sysClose_closes fd

theorem logHexdumpOnce_fdPart (tag : String) (ifname : Bytes) (p len type : Nat) :
    Preserves fdPart (logHexdumpOnce (K.platform U buf) tag ifname p len type) := by
  refine loadCfg_fdPart.bind fun _ => (Preserves.get _).bind fun w => ?_
  refine Preserves.ite _ (Preserves.pure _ _) ?_
  exact Preserves.bind (Preserves.modify fun _ => rfl) fun _ => logLines_fdPart _

theorem translateAddIoctl_fdPart (s : AddSpec) (fd : Int) (request arg : Nat) :
    Preserves fdPart (translateAddIoctl (K.platform U buf) s fd request arg) := by
  refine (Preserves.get _).bind fun w => Preserves.ite _ (Preserves.pure _ _) ?_
  refine (modifyMem_fdPart _).bind fun _ => (sysIoctl_fdPart _ _ _).bind fun ret => ?_
  exact (modifyMem_fdPart _).bind fun _ => (logLines_fdPart _).bind fun _ => Preserves.pure _ _

theorem translateGenerateFltEqIoctl_fdPart (fd : Int) (request arg : Nat) :
    Preserves fdPart (translateGenerateFltEqIoctl (K.platform U buf) fd request arg) := by
  refine Preserves.ite _ (Preserves.pure _ _) ?_
  refine (modifyMem_fdPart _).bind fun _ => (sysIoctl_fdPart _ _ _).bind fun ret => ?_
  have hend (ret : Int) : Preserves fdPart (do
      logTranslateIoctl (K.platform U buf) "GENERATE_FLT_EQ" 1 ret
      return some ret) := (logLines_fdPart _).bind fun _ => Preserves.pure _ _
  exact Preserves.ite _ ((modifyMem_fdPart _).bind fun _ => hend _) (hend _)

theorem maybeTranslateRtFltIoctl_fdPart (fd : Int) (request nr arg : Nat) :
    Preserves fdPart (maybeTranslateRtFltIoctl (K.platform U buf) fd request nr arg) := by
  have hadd (s : AddSpec) : Preserves fdPart (translateAddIoctl (K.platform U buf) s fd request arg) :=
    translateAddIoctl_fdPart s fd request arg
  refine loadCfg_fdPart.bind fun _ => (Preserves.get _).bind fun w => ?_
  refine Preserves.ite _ (Preserves.pure _ _) (Preserves.ite _ (hadd _) (Preserves.ite _ (hadd _) ?_))
  refine Preserves.ite _ (hadd _) (Preserves.ite _ (hadd _) (Preserves.ite _ (hadd _) ?_))
  refine Preserves.ite _ (hadd _) (Preserves.ite _ (hadd _) (Preserves.ite _ (hadd _) ?_))
  exact Preserves.ite _ (translateGenerateFltEqIoctl_fdPart _ _ _) (Preserves.pure _ _)

theorem logRtFlt_fdPart (nr arg : Nat) (ret : Int) :
    Preserves fdPart (logRtFlt (K.platform U buf) nr arg ret) := by
  refine loadCfg_fdPart.bind fun _ => (Preserves.get _).bind fun _ => ?_
  exact Preserves.ite _ (Preserves.pure _ _) (logLines_fdPart _)

theorem handleQueryTx_fdPart (q : Nat) : Preserves fdPart (handleQueryTx (K.platform U buf) q) := by
  refine loadCfg_fdPart.bind fun _ => (Preserves.get _).bind fun w => ?_
  refine Preserves.ite _ (Preserves.pure _ _) (Preserves.ite _ (logLines_fdPart _) ?_)
  refine (logHexdumpOnce_fdPart _ _ _ _ _).bind fun _ => ?_
  refine Preserves.bind (Preserves.forM _ fun _ => logLines_fdPart _) fun _ => ?_
  refine Preserves.ite _ ((modifyMem_fdPart _).bind fun _ => ?_) ?_ <;>
    exact (logLines_fdPart _).bind fun _ => (Preserves.get _).bind fun _ =>
      Preserves.forM _ fun _ => logLines_fdPart _

theorem handleQueryRx_fdPart (q : Nat) : Preserves fdPart (handleQueryRx (K.platform U buf) q) := by
  refine loadCfg_fdPart.bind fun _ => (Preserves.get _).bind fun w => ?_
  refine Preserves.ite _ (Preserves.pure _ _) (Preserves.ite _ (logLines_fdPart _) ?_)
  refine (logHexdumpOnce_fdPart _ _ _ _ _).bind fun _ => ?_
  refine Preserves.bind (Preserves.forM _ fun _ => logLines_fdPart _) fun _ => ?_
  refine Preserves.ite _ ((modifyMem_fdPart _).bind fun _ => ?_) ?_ <;>
    exact (logLines_fdPart _).bind fun _ => (Preserves.get _).bind fun _ =>
      Preserves.forM _ fun _ => logLines_fdPart _

theorem handleAnswer_fdPart (nr arg : Nat) : Preserves fdPart (handleAnswer (K.platform U buf) nr arg) := by
  refine Preserves.ite _ (handleQueryTx_fdPart _) (Preserves.ite _ (handleQueryRx_fdPart _) ?_)
  refine Preserves.ite _ ?_ (Preserves.pure _ _)
  refine loadCfg_fdPart.bind fun _ => (Preserves.get _).bind fun _ => ?_
  refine Preserves.ite _ (Preserves.pure _ _) ?_
  exact (logHexdumpOnce_fdPart _ _ _ _ _).bind fun _ => logLines_fdPart _

theorem ioctl_fdPart (K : FdKernel τ) (U : Uapi) (buf : Nat) (w : World (FdState τ)) (fd : Int) (request arg : Nat) :
    fdPart ((ioctl (K.platform U buf) fd request arg).run w).2 =
      if iocType request = (K.platform U buf).uapi.magic then fdPart ((fdIsIpaDev (K.platform U buf) fd).run w).2
      else fdPart w := by
  have hdirect : Preserves fdPart (do
      let ret ← sysIoctl (K.platform U buf) fd request arg
      return castInt ret) := (sysIoctl_fdPart _ _ _).bind fun _ => Preserves.pure _ _
  unfold ioctl
  dsimp only
  by_cases hty : iocType request = (K.platform U buf).uapi.magic
  · rw [if_pos hty, if_neg (not_not.mpr hty), run_bind]
    refine Preserves.ite _ hdirect ?_ _
    refine (maybeTranslateRtFltIoctl_fdPart _ _ _ _).bind fun r => ?_
    cases r with
    | some ret => exact (logRtFlt_fdPart _ _ _).bind fun _ => Preserves.pure _ _
    | none =>
      refine (sysIoctl_fdPart _ _ _).bind fun ret => ?_
      have hlog : Preserves fdPart (do
          if arg ≠ 0 ∧ iocNr request ∈ ruleIoctls.map (K.platform U buf).uapi.nr then
            logRtFlt (K.platform U buf) (iocNr request) arg ret
          else pure ()
          return castInt ret) :=
        Preserves.ite _ ((logRtFlt_fdPart _ _ _).bind fun _ => Preserves.pure _ _) (Preserves.pure _ _)
      exact Preserves.ite _ ((handleAnswer_fdPart _ _).bind fun _ => hlog) hlog
  · rw [if_neg hty, if_pos hty]
    exact hdirect w

-- ---------------------------------------------------------------------------
-- The link
-- ---------------------------------------------------------------------------

def ipaLink : Bytes := cstr "/dev/ipa"

theorem strEqN_iff {a b : Bytes} (hb : ∀ j, j < room → b.getD (i + j) 0 ≠ 0) :
    strEqN a b room i = true ↔ ∀ j, j < room → a.getD (i + j) 0 = b.getD (i + j) 0 := by
  induction room generalizing i with
  | zero => simp [strEqN]
  | succ room ih =>
    have hb0 := hb 0 (by omega)
    have ih' := ih (i := i + 1) fun j hj => by
      have h := hb (j + 1) (by omega)
      rwa [show i + (j + 1) = i + 1 + j by omega] at h
    simp only [Nat.add_zero] at hb0
    unfold strEqN
    by_cases heq : a.getD i 0 = b.getD i 0
    · rw [if_neg (not_not.mpr heq), if_neg (by rw [heq]; exact hb0), ih']
      refine ⟨fun h j hj => ?_, fun h j hj => ?_⟩
      · rcases j with _ | j
        · exact heq
        · have := h j (by omega)
          rwa [show i + (j + 1) = i + 1 + j by omega]
      · have := h (j + 1) (by omega)
        rwa [show i + (j + 1) = i + 1 + j by omega] at this
    · rw [if_pos heq]
      exact ⟨nofun, fun h => absurd (h 0 (by omega)) heq⟩

theorem prefix_iff_getD {a b : Bytes} (hb : ∀ j, j < b.length → b.getD j 0 ≠ 0) :
    b <+: a ↔ ∀ j, j < b.length → a.getD j 0 = b.getD j 0 := by
  induction b generalizing a with
  | nil => simp
  | cons x bs ih =>
    have hx : x ≠ 0 := hb 0 (by simp)
    have hbs : ∀ j, j < bs.length → bs.getD j 0 ≠ 0 := fun j hj => hb (j + 1) (by simpa using hj)
    cases a with
    | nil =>
      refine ⟨fun h => ?_, fun h => absurd (h 0 (by simp)).symm hx⟩
      simp at h
    | cons y as =>
      rw [List.cons_prefix_cons, ih hbs]
      refine ⟨fun ⟨hxy, h⟩ j hj => ?_, fun h => ⟨?_, fun j hj => ?_⟩⟩
      · rcases j with _ | j
        · exact hxy.symm
        · exact h j (by simpa using hj)
      · exact (h 0 (by simp)).symm
      · exact h (j + 1) (by simpa using hj)

theorem linkIsIpa_iff (link : Bytes) : linkIsIpa link = true ↔ ipaLink <+: link := by
  have hb : ∀ j, j < ipaLink.length → ipaLink.getD j 0 ≠ 0 := by decide
  have hlen : ipaLink.length = 8 := by decide
  rw [prefix_iff_getD hb, hlen]
  unfold linkIsIpa
  rw [strEqN_iff (by decide)]
  simp only [Nat.zero_add, ipaLink]

/-- A fresh look takes every link that begins with `/dev/ipa` for the device. -/
theorem linkedToIpa_iff (st : FdState τ) (fd : Int) :
    linkedToIpa (K.platform U buf) st fd = true ↔
      ∃ link, K.readFd st (fdNumber fd) = some link ∧ ipaLink <+: link := by
  obtain ⟨path, hpath⟩ := Option.isSome_iff_exists.mp (fdPath_isSome fd)
  have hread : (K.platform U buf).os.readlink st path = K.readFd st (fdNumber fd) := by
    have hpre : (cstr "/proc/self/fd/").isPrefixOf path = true := by
      obtain ⟨rev, -, rfl⟩ := Option.map_eq_some_iff.mp hpath
      exact List.isPrefixOf_iff_prefix.mpr (List.prefix_append _ _)
    show (if (cstr "/proc/self/fd/").isPrefixOf path then K.readFd st (decodeFd path) else none) = _
    rw [if_pos hpre, decodeFd_fdPath hpath]
  unfold linkedToIpa
  rw [hpath]
  dsimp only
  rw [hread]
  cases K.readFd st (fdNumber fd) with
  | none => simp
  | some link =>
    have htake : ipaLink <+: link.take 63 ↔ ipaLink <+: link := by
      rw [List.prefix_take_iff]
      exact ⟨fun h => h.1, fun h => ⟨h, by decide⟩⟩
    have hne : ipaLink <+: link.take 63 → link.take 63 ≠ [] := by
      intro h hnil
      rw [hnil] at h
      exact absurd (List.prefix_nil.mp h) (by decide)
    simp only [Option.map_some, Bool.and_eq_true, decide_eq_true_eq, linkIsIpa_iff, Option.some.injEq,
      exists_eq_left']
    rw [← htake]
    exact ⟨fun h => h.2, fun h => ⟨hne h, h⟩⟩

-- ---------------------------------------------------------------------------
-- Runs
-- ---------------------------------------------------------------------------

inductive FdOp
  | openFile (path : Bytes) (flags mode : Nat)
  | close (fd : Int)
  | dup (old new : Nat)
  | ioctl (fd : Int) (request arg : Nat)

def fdStep (P : Platform (FdState τ)) (w : World (FdState τ)) : FdOp → World (FdState τ)
  | .openFile path flags mode => ((sysOpen P path flags mode).run w).2
  | .close fd => ((sysClose P fd).run w).2
  | .dup old new =>
    if w.os.table old = none then w
    else { w with os := { w.os with table := Function.update w.os.table new (w.os.table old) } }
  | .ioctl fd request arg => ((ioctl P fd request arg).run w).2

def IsIpa (w : World (FdState τ)) (fd : Int) : Prop := w.os.table (fdNumber fd) = some ipaLink

instance (w : World (FdState τ)) (fd : Int) : Decidable (IsIpa w fd) :=
  inferInstanceAs (Decidable (_ = _))

theorem handledAsIpa_iff (K : FdKernel τ) (U : Uapi) (buf : Nat) (w : World (FdState τ)) (fd : Int) :
    handledAsIpa (K.platform U buf) w fd = true ↔
      if fd = w.cachedFd then w.cachedIsIpa = true
      else ∃ link, K.readFd w.os (fdNumber fd) = some link ∧ ipaLink <+: link := by
  unfold handledAsIpa
  rw [fdIsIpaDev_run]
  by_cases hfd : fd = w.cachedFd
  · rw [if_pos hfd, if_pos hfd]
  · rw [if_neg hfd, if_neg hfd]
    exact linkedToIpa_iff w.os fd

/-- A look at the descriptor tells `/dev/ipa` apart: reading that link does not
fail, and no link is read that begins so and goes on. -/
structure Legible (K : FdKernel τ) (st : FdState τ) (n : Nat) : Prop where
  ipa : st.table n = some ipaLink → K.linkFails st n = false
  others : ∀ link, K.readFd st n = some link → ipaLink <+: link → link = ipaLink

theorem readFd_some {st : FdState τ} (h : K.readFd st n = some link) :
    K.linkFails st n = false ∧ st.table n = some link := by
  unfold FdKernel.readFd at h
  cases hfails : K.linkFails st n with
  | true =>
    rw [if_pos hfails] at h
    exact nomatch h
  | false =>
    rw [if_neg (by simp [hfails])] at h
    exact ⟨rfl, h⟩

theorem Legible.look {st : FdState τ} (h : Legible K st n) :
    (∃ link, K.readFd st n = some link ∧ ipaLink <+: link) ↔ st.table n = some ipaLink := by
  constructor
  · rintro ⟨link, hlink, hpre⟩
    rw [(readFd_some hlink).2, h.others link hlink hpre]
  · intro hipa
    refine ⟨ipaLink, ?_, List.prefix_rfl⟩
    unfold FdKernel.readFd
    rw [h.ipa hipa]
    exact hipa

def CacheInv (w : World (FdState τ)) : Prop := w.cachedIsIpa = true ↔ IsIpa w w.cachedFd

/-- No step takes `/dev/ipa` away from the remembered descriptor or gives it
one, and a descriptor that is looked up is legible. -/
def Keeps (K : FdKernel τ) (U : Uapi) (buf : Nat) (w : World (FdState τ)) : FdOp → Prop
  | .ioctl fd request _ => iocType request = U.magic → fd ≠ w.cachedFd → Legible K w.os (fdNumber fd)
  | op => IsIpa (fdStep (K.platform U buf) w op) w.cachedFd ↔ IsIpa w w.cachedFd

structure FdStart (w : World (FdState τ)) : Prop where
  cachedFd : w.cachedFd = -1
  cachedIsIpa : w.cachedIsIpa = false
  minus_one : w.os.table (fdNumber (-1)) = none

theorem FdStart.inv {w : World (FdState τ)} (h : FdStart w) : CacheInv w := by
  unfold CacheInv IsIpa
  rw [h.cachedFd, h.cachedIsIpa, h.minus_one]
  simp

theorem CacheInv.answer (K : FdKernel τ) (U : Uapi) (buf : Nat) {w : World (FdState τ)} (hinv : CacheInv w)
    (hk : fd ≠ w.cachedFd → Legible K w.os (fdNumber fd)) :
    handledAsIpa (K.platform U buf) w fd = true ↔ IsIpa w fd := by
  rw [handledAsIpa_iff]
  by_cases hfd : fd = w.cachedFd
  · rw [if_pos hfd, hfd]
    exact hinv
  · rw [if_neg hfd]
    exact (hk hfd).look

theorem fdStep_inv {w : World (FdState τ)} {op : FdOp} (hinv : CacheInv w) (hk : Keeps K U buf w op) :
    CacheInv (fdStep (K.platform U buf) w op) := by
  cases op with
  | openFile path flags mode => exact hinv.trans hk.symm
  | close fd => exact hinv.trans hk.symm
  | dup old new =>
    have hcache : (fdStep (K.platform U buf) w (.dup old new)).cachedFd = w.cachedFd ∧
        (fdStep (K.platform U buf) w (.dup old new)).cachedIsIpa = w.cachedIsIpa := by
      simp only [fdStep]
      split <;> exact ⟨rfl, rfl⟩
    unfold CacheInv
    rw [hcache.1, hcache.2]
    exact hinv.trans hk.symm
  | ioctl fd request arg =>
    have hpart := ioctl_fdPart K U buf w fd request arg
    have hdone : ∀ w' : World (FdState τ), fdPart w' = fdPart w → CacheInv w' := by
      intro w' h
      have h1 : w'.cachedIsIpa = w.cachedIsIpa := congrArg FdPart.cachedIsIpa h
      have h2 : w'.cachedFd = w.cachedFd := congrArg FdPart.cachedFd h
      have h3 : w'.os.table = w.os.table := congrArg FdPart.table h
      unfold CacheInv IsIpa
      rw [h1, h2, h3]
      exact hinv
    by_cases hty : iocType request = (K.platform U buf).uapi.magic
    · have hans := hinv.answer K U buf (hk hty)
      rw [if_pos hty] at hpart
      unfold handledAsIpa at hans
      rw [fdIsIpaDev_run] at hpart hans
      by_cases hfd : fd = w.cachedFd
      · rw [if_pos hfd] at hpart
        exact hdone _ hpart
      · rw [if_neg hfd] at hpart hans
        -- a fresh answer is remembered, and the table is as it was
        have h1 := congrArg FdPart.cachedIsIpa hpart
        have h2 := congrArg FdPart.cachedFd hpart
        have h3 := congrArg FdPart.table hpart
        dsimp only [fdPart] at h1 h2 h3
        show CacheInv ((ioctl (K.platform U buf) fd request arg).run w).2
        unfold CacheInv IsIpa
        rw [h1, h2, h3]
        exact hans
    · rw [if_neg hty] at hpart
      exact hdone _ hpart

/-- In a run whose steps all meet `Keeps`, every `ioctl` with the IPA magic is
handled by what its descriptor links to when it is made. -/
theorem fd_classification_over_runs (K : FdKernel τ) (U : Uapi) (buf : Nat) (w : World (FdState τ))
    (hstart : FdStart w) (pre post : List FdOp) (fd : Int) (request arg : Nat)
    (hty : iocType request = U.magic)
    (hrun : Meets (fdStep (K.platform U buf)) (Keeps K U buf) w (pre ++ .ioctl fd request arg :: post)) :
    handledAsIpa (K.platform U buf) (run (fdStep (K.platform U buf)) w pre) fd = true ↔
      IsIpa (run (fdStep (K.platform U buf)) w pre) fd := by
  obtain ⟨hinv, hk⟩ := run_at (fun _ _ h hk => fdStep_inv h hk) hstart.inv hrun
  exact hinv.answer K U buf (hk hty)

/-- A kernel that opens every path, at the lowest of sixteen descriptors. Where it
is `flaky`, no link can be read before the first `ioctl` that reaches it. -/
def lowestFd (flaky : Bool) : FdKernel Bool where
  linkFails := fun st _ => flaky && !st.rest
  ioctl := fun _ _ _ _ m => (0, m, true)
  openAt := fun st path _ _ =>
    (((List.range 16).find? fun n => (st.table n).isNone).map fun n => (n, path), st.rest)
  open_free := by
    intro st path flags mode n link t h
    obtain ⟨found, hfound, heq⟩ := Option.map_eq_some_iff.mp (congrArg Prod.fst h)
    obtain ⟨rfl, -⟩ := Prod.mk.inj heq
    have hfree := List.find?_some hfound
    have hmem := List.mem_range.mp (List.mem_of_find?_eq_some hfound)
    exact ⟨by simpa using hfree, by omega⟩
  read := fun st _ _ => (none, st.rest)
  write := fun st _ _ => st.rest
  close := fun st _ => st.rest

def emptyWorld : World (FdState Bool) :=
  { mem := fun _ => 0, os := ⟨fun _ => none, false⟩, cfg := { loaded := true } }

theorem legible_lowestFd {st : FdState Bool} (h : st.table n = some link) (hl : ¬ ipaLink <+: link ∨ link = ipaLink) :
    Legible (lowestFd false) st n := by
  refine ⟨fun _ => rfl, fun link' hlink' hpre => ?_⟩
  obtain rfl := Option.some.inj (h.symm.trans (readFd_some hlink').2)
  exact hl.resolve_left (not_not.mpr hpre)

/-- Another device is looked up, then the IPA device; the other one is closed and
its number used again. The last answer comes from the cache. -/
theorem fd_classification_over_runs_cached :
    let pre : List FdOp := [.openFile ipaLink 2 0, .openFile (cstr "/dev/null") 2 0, .ioctl 1 0xCF02 0,
      .ioctl 0 0xCF02 0, .close 1, .openFile (cstr "/dev/ipaNatTable") 2 0, .dup 0 5]
    let w := run (fdStep ((lowestFd false).platform uapi13900 65536)) emptyWorld pre
    w.cachedFd = 0 ∧ handledAsIpa ((lowestFd false).platform uapi13900 65536) w 0 = true := by
  intro pre w
  refine ⟨by decide, (fd_classification_over_runs (lowestFd false) uapi13900 65536 emptyWorld ⟨rfl, rfl, rfl⟩ pre [] 0
    0xCF02 0 (by decide) ⟨?_, ?_, ?_, ?_, ?_, ?_, ?_, ?_, trivial⟩).mpr rfl⟩
  · show IsIpa _ _ ↔ IsIpa _ _
    decide
  · show IsIpa _ _ ↔ IsIpa _ _
    decide
  · exact fun _ _ => legible_lowestFd (show _ = some (cstr "/dev/null") from rfl) (.inl (by decide))
  · exact fun _ _ => legible_lowestFd rfl (.inr rfl)
  · show IsIpa _ _ ↔ IsIpa _ _
    decide
  · show IsIpa _ _ ↔ IsIpa _ _
    decide
  · show IsIpa _ _ ↔ IsIpa _ _
    decide
  · exact fun _ hfd => absurd rfl hfd

/-- A descriptor that is closed and opened again is taken for what it was,
`/dev/ipaNatTable` for `/dev/ipa`, and a look that failed is not repeated. -/
theorem fd_classification_stale :
    let after (flaky : Bool) := run (fdStep ((lowestFd flaky).platform uapi13900 65536)) emptyWorld
    let asIpa (flaky : Bool) := handledAsIpa ((lowestFd flaky).platform uapi13900 65536)
    let reused : List FdOp :=
      [.openFile ipaLink 2 0, .ioctl 0 0xCF02 0, .close 0, .openFile (cstr "/dev/null") 2 0]
    let longer : List FdOp := [.openFile (cstr "/dev/ipaNatTable") 2 0]
    let failed : List FdOp := [.openFile ipaLink 2 0, .ioctl 0 0xCF02 0]
    (asIpa false (after false reused) 0 = true ∧ ¬ IsIpa (after false reused) 0) ∧
      (asIpa false (after false longer) 0 = true ∧ ¬ IsIpa (after false longer) 0) ∧
      asIpa true (after true failed) 0 = false ∧ IsIpa (after true failed) 0 := by
  intro after asIpa reused longer failed
  refine ⟨⟨by decide, by decide⟩, ⟨by decide, by decide⟩, by decide, by decide⟩

end

end IpaOffload.Bridge

import IpaOffload.Bridge.QueryDecision
import IpaOffload.Bridge.Untranslated

/-!
# Calls that are not for the IPA device

The wrapper is to change rule requests and answers on the IPA device only. It
goes by what `fd_is_ipa_dev` says, so it changes them as well on a descriptor
that it takes for the device (`Mistaken`). `ioctl_transparent_iff`: nothing
else can go wrong in a call.
-/

namespace IpaOffload.Bridge

open ByteMem StateFrame Runs

-- ---------------------------------------------------------------------------
-- What is left of an answer
-- ---------------------------------------------------------------------------

def AnswerRewritten (U : Uapi) (c : BridgeCfg) (nr arg : Nat) (ret : Int) (m : Mem) : Prop :=
  0 ≤ ret ∧ ((nr = U.nr .queryIntfTxProps ∧ TxRewrites U.tx c m arg) ∨
    (nr = U.nr .queryIntfRxProps ∧ RxRewrites U.rx c m arg))

section
variable {σ : Type} {P : Platform σ} {w : World σ} {fd : Int} {request nr arg : Nat}

theorem AnswerRewritten.arg_ne {U : Uapi} {c : BridgeCfg} {ret : Int} {m : Mem}
    (h : AnswerRewritten U c nr arg ret m) : arg ≠ 0 := by
  rcases h.2 with ⟨-, hr⟩ | ⟨-, hr⟩
  · exact hr.1.pointer
  · exact hr.1.pointer

theorem handleAnswer_mem_eq (hl : w.cfg.loaded = true) {ret : Int} (hret : 0 ≤ ret)
    (h : ¬ AnswerRewritten P.uapi w.cfg nr arg ret w.mem) : ((handleAnswer P nr arg).run w).2.mem = w.mem := by
  unfold handleAnswer
  by_cases htx : nr = P.uapi.nr .queryIntfTxProps
  · rw [if_pos htx, (handleQueryTx_ends hl).1, if_neg fun hr => h ⟨hret, .inl ⟨htx, hr⟩⟩]
  · rw [if_neg htx]
    by_cases hrx : nr = P.uapi.nr .queryIntfRxProps
    · rw [if_pos hrx, (handleQueryRx_ends hl).1, if_neg fun hr => h ⟨hret, .inr ⟨hrx, hr⟩⟩]
    · rw [if_neg hrx]
      exact Preserves.ite _ (handleQueryExt_silent.comp Silent.mem) (Preserves.pure _ _) w

theorem handleAnswer_mem_ne (hU : P.uapi.Wider) (hl : w.cfg.loaded = true) (ret : Int)
    (h : AnswerRewritten P.uapi w.cfg nr arg ret w.mem) : ((handleAnswer P nr arg).run w).2.mem ≠ w.mem := by
  unfold handleAnswer
  rcases h.2 with ⟨htx, hr⟩ | ⟨hrx, hr⟩
  · rw [if_pos htx, (handleQueryTx_ends hl).1, if_pos hr]
    exact hr.changes hU
  · have htx : nr ≠ P.uapi.nr .queryIntfTxProps := by
      rw [hrx]
      exact fun heq => absurd (P.uapi.nr_inj _ _ heq) (by decide)
    rw [if_neg htx, if_pos hrx, (handleQueryRx_ends hl).1, if_pos hr]
    exact hr.changes hU

theorem answer_mem :
    ((do
      let ret ← sysIoctl P fd request arg
      if 0 ≤ ret ∧ arg ≠ 0 then handleAnswer P nr arg else pure ()
      if arg ≠ 0 ∧ nr ∈ ruleIoctls.map P.uapi.nr then logRtFlt P nr arg ret else pure ()
      return castInt ret : Proc σ Int).run w).2.mem =
      if 0 ≤ (ownCall P w fd request arg).ret ∧ arg ≠ 0 then
        ((handleAnswer P nr arg).run ((sysIoctl P fd request arg).run w).2).2.mem
      else (ownCall P w fd request arg).after := by
  obtain ⟨hret, hafter, -, -⟩ := sysIoctl_run (P := P) w fd request arg
  have hlog (r : Int) : Preserves World.mem (do
      if arg ≠ 0 ∧ nr ∈ ruleIoctls.map P.uapi.nr then logRtFlt P nr arg r else pure ()
      return castInt r : Proc σ Int) :=
    (Preserves.ite _ ((logRtFlt_silent _ _ _).bind fun _ => Preserves.pure _ _) (Preserves.pure _ _)).comp Silent.mem
  rw [run_bind, hret]
  by_cases hok : 0 ≤ (ownCall P w fd request arg).ret ∧ arg ≠ 0
  · rw [if_pos hok, if_pos hok, run_bind]
    exact hlog _ _
  · rw [if_neg hok, if_neg hok, ← hafter]
    exact hlog _ _

section
variable (hty : iocType request = P.uapi.magic) (hipa : handledAsIpa P w fd = true)
variable (hnot : ¬ RuleAccepted P.uapi (seenWorld P fd w).cfg w.mem (iocNr request) arg)
include hty hipa hnot

theorem ioctl_answered :
    let call := ownCall P (seenWorld P fd w) fd request arg
    Transparent P w fd request arg (handledAsIpa P w fd = true) ((ioctl P fd request arg).run w) call ∧
      (¬ AnswerRewritten P.uapi (seenWorld P fd w).cfg (iocNr request) arg call.ret call.after →
        ((ioctl P fd request arg).run w).2.mem = call.after) ∧
      (P.uapi.Wider → AnswerRewritten P.uapi (seenWorld P fd w).cfg (iocNr request) arg call.ret call.after →
        ((ioctl P fd request arg).run w).2.mem ≠ call.after) := by
  intro call
  have hl : (seenWorld P fd w).cfg.loaded = true := configured_loaded
  obtain ⟨-, hafter, -, hcfg⟩ := sysIoctl_run (P := P) (seenWorld P fd w) fd request arg
  have hl' : ((sysIoctl P fd request arg).run (seenWorld P fd w)).2.cfg.loaded = true := hcfg ▸ hl
  have hmem := @answer_mem σ P (seenWorld P fd w) fd request (iocNr request) arg
  rw [ioctl_of_none hty hipa (maybeTranslate_declines hnot), hmem]
  refine ⟨transparent_answer hty hipa, fun hno => ?_, fun hU hyes => ?_⟩
  · split
    case isTrue hok => exact (handleAnswer_mem_eq hl' hok.1 (by rwa [hcfg, hafter])).trans hafter
    case isFalse => rfl
  · rw [if_pos ⟨hyes.1, hyes.arg_ne⟩]
    refine fun heq => handleAnswer_mem_ne hU hl' call.ret ?_ (heq.trans hafter.symm)
    rwa [hcfg, hafter]

end

theorem Transparent.call_eq {ipa ipa' : Prop} {out : Int × World σ} {call call' : IoctlCall}
    (h : Transparent P w fd request arg ipa out call) (h' : Transparent P w fd request arg ipa' out call') :
    call = call' :=
  List.singleton_inj.mp (List.append_cancel_left (h.once.symm.trans h'.once))

end

-- ---------------------------------------------------------------------------
-- Descriptors taken for the device
-- ---------------------------------------------------------------------------

section
variable {τ : Type} {K : FdKernel τ} {U : Uapi} {buf : Nat} {w : World (FdState τ)} {fd : Int} {request arg : Nat}

/-- The descriptor does not link to `/dev/ipa`, and yet the wrapper remembers it as
the device or reads a link that begins like it. -/
def Mistaken (K : FdKernel τ) (w : World (FdState τ)) (fd : Int) : Prop :=
  ¬ IsIpa w fd ∧
    if fd = w.cachedFd then w.cachedIsIpa = true
    else ∃ link, K.readFd w.os (fdNumber fd) = some link ∧ ipaLink <+: link

theorem mistaken_iff (K : FdKernel τ) (U : Uapi) (buf : Nat) (w : World (FdState τ)) (fd : Int) :
    Mistaken K w fd ↔ ¬ IsIpa w fd ∧ handledAsIpa (K.platform U buf) w fd = true := by
  rw [handledAsIpa_iff]
  rfl

/-- A request that the wrapper changes on the device: a rule request its translator
accepts, or a query whose answer is rewritten. -/
def Changes (P : Platform σ) (w : World σ) (fd : Int) (request arg : Nat) : Prop :=
  let call := ownCall P (seenWorld P fd w) fd request arg
  iocType request = P.uapi.magic ∧
    (RuleAccepted P.uapi (seenWorld P fd w).cfg w.mem (iocNr request) arg ∨
      AnswerRewritten P.uapi (seenWorld P fd w).cfg (iocNr request) arg call.ret call.after)

theorem Mistaken.not_transparent (h : Mistaken K w fd) (hU : U.Wider) (hbuf : arg ≠ buf)
    (hc : Changes (K.platform U buf) w fd request arg) {out : Int × World (FdState τ)}
    (hout : out = (ioctl (K.platform U buf) fd request arg).run w) (call : IoctlCall) :
    ¬ Transparent (K.platform U buf) w fd request arg (IsIpa w fd) out call := by
  subst hout
  obtain ⟨hnot, hipa⟩ := (mistaken_iff K U buf w fd).mp h
  obtain ⟨hty, hdoes⟩ := hc
  intro ht
  by_cases hacc : RuleAccepted (K.platform U buf).uapi (seenWorld (K.platform U buf) fd w).cfg w.mem (iocNr request) arg
  · -- the kernel is shown the buffer
    obtain ⟨call', hpassed, hcall⟩ := ioctl_accepted hty hipa hacc
    have harg := (ht.pointer fun hre => hnot hre.2.1).1
    rw [ht.call_eq hcall, hpassed] at harg
    exact hbuf harg.symm
  · obtain ⟨hcall, -, hne⟩ := ioctl_answered hty hipa hacc
    have hmem := ht.memory (fun hre => hnot hre.2.1) fun hwide => hnot hwide.2.1
    rw [ht.call_eq hcall] at hmem
    exact hne hU (hdoes.resolve_left hacc) hmem

theorem unchanged_transparent {P : Platform σ} {w : World σ} (hc : ¬ Changes P w fd request arg) (ipa : Prop) :
    ∃ call, Transparent P w fd request arg ipa ((ioctl P fd request arg).run w) call := by
  by_cases hty : iocType request = P.uapi.magic
  · have hacc : ¬ RuleAccepted P.uapi (seenWorld P fd w).cfg w.mem (iocNr request) arg := fun hacc =>
      hc ⟨hty, .inl hacc⟩
    cases hipa : handledAsIpa P w fd with
    | true =>
      obtain ⟨hcall, hmem, -⟩ := ioctl_answered hty hipa hacc
      exact ⟨_, hcall.once, hcall.same, hcall.answered, hcall.ret, fun _ => hcall.pointer fun hre => hacc hre.2.2,
        fun _ _ => hmem fun hre => hc ⟨hty, .inr hre⟩⟩
    | false =>
      obtain ⟨call, hcall⟩ := ioctl_call P w fd request arg
      have hno : ¬ handledAsIpa P w fd = true := by simp [hipa]
      exact ⟨call, hcall.once, hcall.same, hcall.answered, hcall.ret, fun _ => hcall.pointer fun hre => hno hre.2.1,
        fun _ _ => hcall.memory (fun hre => hno hre.2.1) fun hwide => hno hwide.2.1⟩
  · obtain ⟨call, hcall⟩ := ioctl_call P w fd request arg
    exact ⟨call, hcall.once, hcall.same, hcall.answered, hcall.ret, fun _ => hcall.pointer fun hre => hty hre.1,
      fun _ _ => hcall.memory (fun hre => hty hre.1) fun hwide => hty hwide.1⟩

theorem rightly_transparent (h : ¬ Mistaken K w fd) :
    ∃ call, Transparent (K.platform U buf) w fd request arg (IsIpa w fd)
      ((ioctl (K.platform U buf) fd request arg).run w) call := by
  have hipa : handledAsIpa (K.platform U buf) w fd = true → IsIpa w fd := by
    intro hyes
    by_contra hnot
    exact h ((mistaken_iff K U buf w fd).mpr ⟨hnot, hyes⟩)
  obtain ⟨call, hcall⟩ := ioctl_call (K.platform U buf) w fd request arg
  have hre (hno : ¬ RuleRebuilt (K.platform U buf) w fd request arg (IsIpa w fd)) :
      ¬ RuleRebuilt (K.platform U buf) w fd request arg (handledAsIpa (K.platform U buf) w fd = true) :=
    fun ⟨hty, hyes, hacc⟩ => hno ⟨hty, hipa hyes, hacc⟩
  exact ⟨call, hcall.once, hcall.same, hcall.answered, hcall.ret, fun hno => hcall.pointer (hre hno),
    fun hno hwide => hcall.memory (hre hno) fun ⟨hty, hyes, hrest⟩ => hwide ⟨hty, hipa hyes, hrest⟩⟩

/-- Outside the rule requests and the widened answers of the IPA device the wrapper
is the system call, unless it takes another descriptor for the device and the
call is one that it changes there. -/
theorem ioctl_transparent_iff (K : FdKernel τ) (U : Uapi) (hU : U.Wider) (buf : Nat) (w : World (FdState τ))
    (fd : Int) (request arg : Nat) (hbuf : arg ≠ buf) :
    ((∃ call, Transparent (K.platform U buf) w fd request arg (IsIpa w fd)
          ((ioctl (K.platform U buf) fd request arg).run w) call) ∧
        DeclinesCleanly (K.platform U buf) fd request arg) ↔
      ¬ (Mistaken K w fd ∧ Changes (K.platform U buf) w fd request arg) := by
  constructor
  · rintro ⟨⟨call, hcall⟩, -⟩ ⟨hm, hc⟩
    exact hm.not_transparent hU hbuf hc rfl call hcall
  · intro h
    refine ⟨?_, declines_cleanly _ _ _ _⟩
    by_cases hm : Mistaken K w fd
    · exact unchanged_transparent (fun hc => h ⟨hm, hc⟩) _
    · exact rightly_transparent hm

def reusedFd (path : Bytes) : World (FdState Bool) :=
  run (fdStep ipaPlatform) { translateWorld 40 1 with os := ⟨fun _ => none, false⟩ }
    [.openFile ipaLink 2 0, .ioctl 0 0xCF1F 0, .close 0, .openFile path 2 0]

def natTableFd : World (FdState Bool) :=
  run (fdStep ipaPlatform) { translateWorld 40 1 with os := ⟨fun _ => none, false⟩ }
    [.openFile (cstr "/dev/ipaNatTable") 2 0]

theorem addRt_changes {w : World (FdState Bool)} (hmem : w.mem = (translateWorld 40 1).mem)
    (hcfg : w.cfg = (translateWorld 40 1).cfg) : Changes ipaPlatform w 0 0xCF02 4096 := by
  have hon := (@addRt_request 1 w hmem hcfg (by decide) (by decide) 0).on
  refine ⟨by decide, .inl ⟨hon, by decide, .inl ⟨addRtSpec uapi13900, List.mem_cons_self .., by decide, ?_⟩⟩⟩
  rw [hmem]
  decide

/-- A request that is not changed passes even on a descriptor that is mistaken for
the device. -/
theorem ioctl_transparent_iff_reused :
    Mistaken (lowestFd false) (reusedFd (cstr "/dev/null")) 0 ∧
    ∃ call, Transparent ipaPlatform (reusedFd (cstr "/dev/null")) 0 0xCF03 4096
      (IsIpa (reusedFd (cstr "/dev/null")) 0)
      ((ioctl ipaPlatform 0 0xCF03 4096).run (reusedFd (cstr "/dev/null"))) call := by
  refine ⟨⟨by decide, by decide⟩, ((ioctl_transparent_iff (lowestFd false) uapi13900 uapi13900_wider 65536
    (reusedFd (cstr "/dev/null")) 0 0xCF03 4096 (by decide)).mpr ?_).1⟩
  rintro ⟨-, -, ⟨-, -, ⟨s, hs, hnr, -⟩ | hgen⟩ | ⟨-, ⟨htx, -⟩ | ⟨hrx, -⟩⟩⟩
  · have hall : ∀ t ∈ addSpecs uapi13900, iocNr 0xCF03 ≠ uapi13900.nr t.req := by
      simp only [addSpecs, List.forall_mem_cons]
      decide
    exact hall s hs hnr
  · exact absurd hgen (by decide)
  · exact absurd htx (by decide)
  · exact absurd hrx (by decide)

/-- A route rule for a file that has the number of the device, and one for another
device, are rebuilt. -/
theorem rule_rebuilt_off_device :
    (¬ IsIpa (reusedFd (cstr "/dev/null")) 0 ∧
      ¬ ∃ call, Transparent ipaPlatform (reusedFd (cstr "/dev/null")) 0 0xCF02 4096
        (IsIpa (reusedFd (cstr "/dev/null")) 0)
        ((ioctl ipaPlatform 0 0xCF02 4096).run (reusedFd (cstr "/dev/null"))) call) ∧
    ¬ IsIpa natTableFd 0 ∧
      ¬ ∃ call, Transparent ipaPlatform natTableFd 0 0xCF02 4096 (IsIpa natTableFd 0)
        ((ioctl ipaPlatform 0 0xCF02 4096).run natTableFd) call := by
  have hreused : Mistaken (lowestFd false) (reusedFd (cstr "/dev/null")) 0 := ⟨by decide, by decide⟩
  have hnat : Mistaken (lowestFd false) natTableFd 0 := ⟨by decide, by decide⟩
  refine ⟨⟨hreused.1, ?_⟩, hnat.1, ?_⟩
  · rintro ⟨call, hcall⟩
    exact hreused.not_transparent uapi13900_wider (by decide) (addRt_changes rfl rfl) rfl call hcall
  · rintro ⟨call, hcall⟩
    exact hnat.not_transparent uapi13900_wider (by decide) (addRt_changes rfl rfl) rfl call hcall

end

end IpaOffload.Bridge

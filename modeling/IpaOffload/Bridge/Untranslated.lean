import IpaOffload.Bridge.FdCache
import IpaOffload.Bridge.RuleV2

/-!
# Which rule requests reach the kernel in the old layout

Thirteen requests carry rules or rule attributes. Some are passed on as they
came (`rule_request_passedThrough_iff`), all of them where the wrapper does not
know the IPA device, and the V2 ones that are rebuilt are not rebuilt as V2
records. `rule_requests_translated_iff` has the ones that are served whatever
their rules are.
-/

namespace IpaOffload.Bridge

open ByteMem StateFrame Runs

def ruleRequests : List IpaIoctl :=
  [.addRtRule, .addFltRule, .addRtRuleAfter, .addFltRuleAfter, .addRtRuleV2, .addFltRuleV2,
    .addRtRuleAfterV2, .addFltRuleAfterV2, .mdfyRtRule, .mdfyFltRule, .mdfyRtRuleV2, .mdfyFltRuleV2,
    .generateFltEq]

section
variable {σ : Type} {P : Platform σ} {w : World σ} {fd : Int} {request arg : Nat} {r : IpaIoctl} {s : AddSpec}

def numRulesOf (U : Uapi) (m : Mem) (arg : Nat) (r : IpaIoctl) : Nat := (m (arg + U.off r .numRules)).toNat

/-- A request that carries at least one rule, made with translation on, in memory
of its own. -/
structure RuleRequest (P : Platform σ) (w : World σ) (fd : Int) (request arg : Nat) (r : IpaIoctl) :
    Prop where
  carries : r ∈ ruleRequests
  magic : iocType request = P.uapi.magic
  nr : iocNr request = P.uapi.nr r
  on : (seenWorld P fd w).cfg.rtFltTranslate = true
  arg_ne : arg ≠ 0
  pos : r ≠ .generateFltEq → 1 ≤ numRulesOf P.uapi w.mem arg r
  placed : ∀ s ∈ addSpecs P.uapi, s.req = r → s.Placed P.uapi P.buf w.mem arg
  array : ∀ s ∈ addSpecs P.uapi, s.req = r → s.v2 = true →
    Apart arg s.hdr (s.newRules P.uapi w.mem arg) (s.numRules P.uapi w.mem arg * s.kind.new.size)
  genEq : r = .generateFltEq → Apart P.buf oldGenEqSize arg P.uapi.genEqSize

-- ---------------------------------------------------------------------------
-- The old layout
-- ---------------------------------------------------------------------------

def PassedThrough (w : World σ) (arg : Nat) (call : IoctlCall) : Prop :=
  call.arg = arg ∧ call.before = w.mem

/-- The rules behind the header of the kernel's buffer, read in the old layout,
are the caller's, read in the new one. -/
def OldRules (P : Platform σ) (s : AddSpec) (groups : List Group) (w : World σ) (arg : Nat)
    (call : IoctlCall) : Prop :=
  ∀ i, i < s.numRules P.uapi w.mem arg →
    (∀ g ∈ groups, Same call.before (call.arg + s.hdr + i * s.kind.oldSize + g.old)
      w.mem (s.newRec P.uapi w.mem arg i + g.new) g.len) ∧
    call.before (call.arg + s.hdr + i * s.kind.oldSize + s.kind.oldAtRear) =
      w.mem (s.newRec P.uapi w.mem arg i + s.kind.new.atRear)

/-- The same of V2 records, whose rule comes after `at_rear`, the handle and the
status: at some stride the kernel finds the first 12 bytes of every rule and
its common attributes. -/
def OldRulesV2 (P : Platform σ) (s : AddSpec) (w : World σ) (arg : Nat) (call : IoctlCall) : Prop :=
  ∃ stride, ∀ i, i < s.numRules P.uapi w.mem arg →
    Same call.before (call.arg + s.hdr + i * stride + fltV2Rule)
      w.mem (s.declRec P.uapi w.mem arg i + fltV2Rule) (12 + attrCommonSize)

/-- Of a `MDFY_*` request, which is never rebuilt, nothing further is asked. -/
def OldLayout (P : Platform σ) (w : World σ) (arg : Nat) (r : IpaIoctl) (call : IoctlCall) : Prop :=
  match r with
  | .addRtRule => OldRules P (addRtSpec P.uapi) (rtGroups P.uapi) w arg call
  | .addRtRuleAfter => OldRules P (addRtAfterSpec P.uapi) (rtGroups P.uapi) w arg call
  | .addFltRule => OldRules P (addFltSpec P.uapi) (fltGroups P.uapi) w arg call
  | .addFltRuleAfter => OldRules P (addFltAfterSpec P.uapi) (fltGroups P.uapi) w arg call
  | .addRtRuleV2 => OldRulesV2 P (addRtV2Spec P.uapi) w arg call
  | .addRtRuleAfterV2 => OldRulesV2 P (addRtAfterV2Spec P.uapi) w arg call
  | .addFltRuleV2 => OldRulesV2 P (addFltV2Spec P.uapi) w arg call
  | .addFltRuleAfterV2 => OldRulesV2 P (addFltAfterV2Spec P.uapi) w arg call
  | .generateFltEq => Same call.before call.arg w.mem arg 4 ∧
      Same call.before (call.arg + oldGenEqAttr) w.mem (arg + P.uapi.genEqAttrib) attrCommonSize
  | _ => True

/-- No system call the wrapper makes shows the kernel rules in the new layout. -/
def Served (P : Platform σ) (w : World σ) (fd : Int) (request arg : Nat) (r : IpaIoctl) : Prop :=
  ∀ calls, ((ioctl P fd request arg).run w).2.ioctls = w.ioctls ++ calls →
    ∀ call ∈ calls, ¬ PassedThrough w arg call ∧ OldLayout P w arg r call

theorem served_iff {call : IoctlCall}
    (h : ((ioctl P fd request arg).run w).2.ioctls = w.ioctls ++ [call]) :
    Served P w fd request arg r ↔ ¬ PassedThrough w arg call ∧ OldLayout P w arg r call := by
  refine ⟨fun hs => hs [call] h call (List.mem_singleton_self _), fun hc calls hcalls c hmem => ?_⟩
  have heq := List.append_cancel_left (h.symm.trans hcalls)
  rw [← heq, List.mem_singleton] at hmem
  exact hmem ▸ hc

-- ---------------------------------------------------------------------------
-- The call of each kind of request
-- ---------------------------------------------------------------------------

theorem fdIsIpaDev_withMem (m : Mem) :
    (fdIsIpaDev P fd).run (w.withMem m) =
      (((fdIsIpaDev P fd).run w).1, ((fdIsIpaDev P fd).run w).2.withMem m) := by
  rw [fdIsIpaDev_run, fdIsIpaDev_run]
  show (if fd = w.cachedFd then _ else _) = _
  split <;> rfl

theorem handledAsIpa_withMem (m : Mem) : handledAsIpa P (w.withMem m) fd = handledAsIpa P w fd := by
  unfold handledAsIpa
  rw [fdIsIpaDev_withMem]

theorem seenWorld_withMem (m : Mem) : seenWorld P fd (w.withMem m) = (seenWorld P fd w).withMem m := by
  unfold seenWorld configured
  rw [fdIsIpaDev_withMem, loadCfg_ignores]

theorem ioctl_add_call (h : RuleRequest P w fd request arg s.req) (hipa : handledAsIpa P w fd = true)
    (hs : s ∈ addSpecs P.uapi) (hacc : s.accepts P.uapi w.mem arg = true) :
    ((ioctl P fd request arg).run w).2.ioctls = w.ioctls ++ [addCall P s (seenWorld P fd w) fd request arg] := by
  have hacc' : s.accepts P.uapi (seenWorld P fd w).mem arg = true := by rw [seenWorld_mem]; exact hacc
  have hadd := maybeTranslateRtFltIoctl_add (P := P) (w := ((fdIsIpaDev P fd).run w).2) h.on h.arg_ne
    fd request hs
  rw [← h.nr] at hadd
  obtain ⟨hret, hout⟩ := translateAddIoctl_accept fd request hacc'
  have hsil := (ioctl_of_some h.magic hipa ((congrArg Prod.fst hadd).trans hret)).2
  rw [hadd] at hsil
  have hio := congrArg Silent.ioctls (hsil.trans hout)
  simpa only [World.silent, seenWorld_ioctls] using hio

theorem ioctl_genEq_call (h : RuleRequest P w fd request arg .generateFltEq) (hipa : handledAsIpa P w fd = true) :
    ((ioctl P fd request arg).run w).2.ioctls = w.ioctls ++ [genEqCall P (seenWorld P fd w) fd request arg] := by
  have hgen := maybeTranslateRtFltIoctl_genEq (P := P) (w := ((fdIsIpaDev P fd).run w).2) h.on h.arg_ne
    fd request
  rw [← h.nr] at hgen
  obtain ⟨hret, hout⟩ := translateGenerateFltEqIoctl_accept (P := P) fd request (seenWorld P fd w) h.arg_ne
  have hsil := (ioctl_of_some h.magic hipa ((congrArg Prod.fst hgen).trans hret)).2
  rw [hgen] at hsil
  have hio := congrArg Silent.ioctls (hsil.trans hout)
  simpa only [World.silent, seenWorld_ioctls] using hio

theorem addSpecs_hdr_pos {U : Uapi} (hs : s ∈ addSpecs U) : 0 < s.hdr := by
  simp only [addSpecs, List.mem_cons, List.not_mem_nil, or_false] at hs
  rcases hs with rfl | rfl | rfl | rfl | rfl | rfl | rfl | rfl <;> exact Nat.succ_pos _

/-- The request is one the wrapper takes on: it has a translator, and no more
rules than that takes, behind a pointer that is not null. -/
def Rebuilds (U : Uapi) (m : Mem) (arg : Nat) (r : IpaIoctl) : Prop :=
  r = .generateFltEq ∨ ∃ s ∈ addSpecs U, s.req = r ∧ s.numRules U m arg ≤ rtFltMaxTranslateRules ∧
    (s.v2 = true → s.rulesField U m arg ≠ 0)

theorem RuleRequest.accepts_iff (h : RuleRequest P w fd request arg s.req) (hs : s ∈ addSpecs P.uapi) :
    s.accepts P.uapi w.mem arg = true ↔
      s.numRules P.uapi w.mem arg ≤ rtFltMaxTranslateRules ∧
        (s.v2 = true → s.rulesField P.uapi w.mem arg ≠ 0) := by
  have hpos : 1 ≤ s.numRules P.uapi w.mem arg := h.pos (addSpecs_req_ne hs)
  rw [AddSpec.accepts_iff]
  exact ⟨fun ⟨_, _, h1, h2⟩ => ⟨h1, h2⟩, fun ⟨h1, h2⟩ => ⟨h.arg_ne, by omega, h1, h2⟩⟩

theorem ruleRebuilt_iff (h : RuleRequest P w fd request arg r) {ipa : Prop} :
    RuleRebuilt P w fd request arg ipa ↔ ipa ∧ Rebuilds P.uapi w.mem arg r := by
  refine ⟨?_, fun ⟨hipa, hr⟩ => ⟨h.magic, hipa, h.on, h.arg_ne, ?_⟩⟩
  · rintro ⟨-, hipa, -, -, ⟨s, hs, hnr, hacc⟩ | hgen⟩ <;> refine ⟨hipa, ?_⟩
    · have hreq : r = s.req := P.uapi.nr_inj _ _ (h.nr.symm.trans hnr)
      subst hreq
      obtain ⟨hn, hv⟩ := (h.accepts_iff hs).mp hacc
      exact .inr ⟨s, hs, rfl, hn, hv⟩
    · exact .inl (P.uapi.nr_inj _ _ (h.nr.symm.trans hgen))
  · rcases hr with rfl | ⟨s, hs, rfl, hn, hv⟩
    · exact .inr h.nr
    · exact .inl ⟨s, hs, h.nr, (h.accepts_iff hs).mpr ⟨hn, hv⟩⟩

theorem addCall_before : (addCall P s (seenWorld P fd w) fd request arg).before =
    s.build P.uapi P.buf arg w.mem := by
  show s.build P.uapi P.buf arg (seenWorld P fd w).mem = _
  rw [seenWorld_mem]

theorem RuleRequest.not_passedThrough_add (h : RuleRequest P w fd request arg s.req)
    (hs : s ∈ addSpecs P.uapi) :
    ¬ PassedThrough w arg (addCall P s (seenWorld P fd w) fd request arg) := by
  intro hp
  have harg : P.buf = arg := hp.1
  have hpl := (h.placed s hs rfl).header
  have hpos := addSpecs_hdr_pos hs
  unfold Apart AddSpec.bufSize at hpl
  omega

theorem RuleRequest.not_passedThrough_genEq (h : RuleRequest P w fd request arg .generateFltEq) :
    ¬ PassedThrough w arg (genEqCall P (seenWorld P fd w) fd request arg) := by
  intro hp
  have harg : P.buf = arg := hp.1
  have hpl := h.genEq rfl
  have hf := P.uapi.genEq_fields
  simp only [Apart, oldGenEqSize] at hpl
  omega

theorem rule_request_passedThrough_iff (h : RuleRequest P w fd request arg r) {call : IoctlCall}
    (hcall : ((ioctl P fd request arg).run w).2.ioctls = w.ioctls ++ [call]) :
    PassedThrough w arg call ↔ ¬ (handledAsIpa P w fd = true ∧ Rebuilds P.uapi w.mem arg r) := by
  have huniq : ∀ c, ((ioctl P fd request arg).run w).2.ioctls = w.ioctls ++ [c] → call = c := fun c hc =>
    List.singleton_inj.mp (List.append_cancel_left (hcall.symm.trans hc))
  refine ⟨fun hpass ⟨hipa, hre⟩ => ?_, fun hre => ?_⟩
  · rcases hre with rfl | ⟨s, hs, rfl, hn, hv⟩
    · exact h.not_passedThrough_genEq (huniq _ (ioctl_genEq_call h hipa) ▸ hpass)
    · have hacc := (h.accepts_iff hs).mpr ⟨hn, hv⟩
      exact h.not_passedThrough_add hs (huniq _ (ioctl_add_call h hipa hs hacc) ▸ hpass)
  · obtain ⟨c, hc⟩ := ioctl_call P w fd request arg
    rw [huniq c hc.once]
    exact hc.pointer fun hb => hre ((ruleRebuilt_iff h).mp hb)

-- ---------------------------------------------------------------------------
-- Whatever the rules are
-- ---------------------------------------------------------------------------

theorem RuleRequest.withMem (h : RuleRequest P w fd request arg r) {m' : Mem}
    (hr : r = .generateFltEq ∨ ∃ s ∈ addSpecs P.uapi, s.req = r)
    (hm : Same m' arg w.mem arg (addHdrSize r)) : RuleRequest P (w.withMem m') fd request arg r := by
  have hspec : ∀ s ∈ addSpecs P.uapi, s.req = r → Same m' arg w.mem arg s.hdr := by
    intro s _ hreq
    rw [s.hdr_eq, hreq]
    exact hm
  refine ⟨h.carries, h.magic, h.nr, ?_, h.arg_ne, fun hne => ?_, fun s hs hreq => ?_,
    fun s hs hreq hv => ?_, h.genEq⟩
  · rw [seenWorld_withMem]
    exact h.on
  · rcases hr with rfl | ⟨s, hs, rfl⟩
    · exact absurd rfl hne
    · have hn := AddSpec.numRules_congr (U := P.uapi) (hspec s hs rfl) (addSpecs_hdr_pos hs)
      exact le_of_le_of_eq (h.pos hne) hn.symm
  · exact (h.placed s hs hreq).congr (hspec s hs hreq) (addSpecs_hdr_pos hs)
  · have hn := AddSpec.numRules_congr (U := P.uapi) (hspec s hs hreq) (addSpecs_hdr_pos hs)
    have hnew := AddSpec.newRules_congr (U := P.uapi) (hspec s hs hreq)
    show Apart arg s.hdr (s.newRules P.uapi m' arg) (s.numRules P.uapi m' arg * s.kind.new.size)
    rw [hn, hnew]
    exact h.array s hs hreq hv

theorem oldRules_addCall {groups : List Group} (hp : s.Placed P.uapi P.buf w.mem arg)
    (hn : s.numRules P.uapi w.mem arg ≤ rtFltMaxTranslateRules)
    (hc : ∀ g, g ∈ groups → s.kind.Carries g) :
    OldRules P s groups w arg (addCall P s (seenWorld P fd w) fd request arg) := by
  intro i hi
  refine ⟨fun g hg k hk => ?_, ?_⟩
  · have hcarry := hc g hg
    have hlt : g.old + k < s.kind.ruleSize := by have := hcarry.old_le; omega
    rw [addCall_before, Nat.add_assoc (_ + _) g.old k, Nat.add_assoc _ g.new k]
    exact (AddSpec.build_rule hp hn hi hlt).trans (hcarry.image_eq _ _ hk)
  · rw [addCall_before]
    exact AddSpec.build_atRear hp hn hi

theorem not_oldRulesV2 (h : V2Request P s w arg) (himg : ∀ f, s.kind.image f 160 = 0)
    (hlong : 160 < s.kind.ruleSize ∧ 160 < s.kind.new.size) :
    ∃ m', Same m' arg w.mem arg s.hdr ∧
      ¬ OldRulesV2 P s (w.withMem m') arg
        (addCall P s (seenWorld P fd (w.withMem m')) fd request arg) := by
  obtain ⟨m', hm, hn, hzero, hone⟩ := v2_padding_byte h himg hlong.1 hlong.2
  refine ⟨m', hm, fun ⟨stride, hold⟩ => ?_⟩
  have hbyte := hold 0 hn 148 (by decide)
  rw [addCall_before] at hbyte
  have ha : P.buf + s.hdr + 0 * stride + fltV2Rule + 148 = s.oldRec P.buf 0 + 160 := by
    simp only [AddSpec.oldRec, fltV2Rule]
    omega
  have hb : s.declRec P.uapi m' arg 0 + fltV2Rule + 148 = s.declRec P.uapi m' arg 0 + 160 := rfl
  have hbyte' : s.build P.uapi P.buf arg m' (P.buf + s.hdr + 0 * stride + fltV2Rule + 148) =
    m' (s.declRec P.uapi m' arg 0 + fltV2Rule + 148) := hbyte
  rw [ha, hb] at hbyte'
  exact absurd ((hzero.symm.trans hbyte').trans hone) (by decide)

def Covered (U : Uapi) (m : Mem) (arg : Nat) (r : IpaIoctl) : Prop :=
  (r ∈ [IpaIoctl.addRtRule, .addFltRule, .addRtRuleAfter, .addFltRuleAfter] ∧
    numRulesOf U m arg r ≤ rtFltMaxTranslateRules) ∨ r = .generateFltEq

section
variable (hipa : handledAsIpa P w fd = true)
include hipa

theorem served_add (h : RuleRequest P w fd request arg s.req) (hs : s ∈ addSpecs P.uapi) (hv : s.v2 = false)
    (hn : s.numRules P.uapi w.mem arg ≤ rtFltMaxTranslateRules)
    (hlayout : OldLayout P w arg s.req (addCall P s (seenWorld P fd w) fd request arg)) :
    Served P w fd request arg s.req := by
  have hacc := (h.accepts_iff hs).mpr ⟨hn, fun hv' => absurd (hv'.symm.trans hv) (by decide)⟩
  exact (served_iff (ioctl_add_call h hipa hs hacc)).mpr ⟨h.not_passedThrough_add hs, hlayout⟩

theorem served_genEq (h : RuleRequest P w fd request arg .generateFltEq) :
    Served P w fd request arg .generateFltEq := by
  have hf := P.uapi.genEq_fields
  have hbefore : (genEqCall P (seenWorld P fd w) fd request arg).before = genEqBuild P.uapi P.buf arg w.mem := by
    show genEqBuild P.uapi P.buf arg (seenWorld P fd w).mem = _
    rw [seenWorld_mem]
  refine (served_iff (ioctl_genEq_call h hipa)).mpr ⟨h.not_passedThrough_genEq, fun k hk => ?_, fun k hk => ?_⟩
  · rw [hbefore]
    show genEqBuild P.uapi P.buf arg w.mem (P.buf + k) = _
    rw [genEqBuild_apply (h.genEq rfl), if_pos ⟨by omega, by omega⟩, Nat.add_sub_cancel_left]
  · rw [hbefore]
    show genEqBuild P.uapi P.buf arg w.mem (P.buf + oldGenEqAttr + k) = _
    rw [genEqBuild_apply (h.genEq rfl), if_neg (by simp only [In, oldGenEqAttr]; omega),
      if_pos ⟨by omega, by omega⟩, Nat.add_sub_cancel_left]

theorem served_of_covered (h : RuleRequest P w fd request arg r) (hc : Covered P.uapi w.mem arg r) :
    Served P w fd request arg r := by
  have hrt : ∀ g, g ∈ rtGroups P.uapi → (rtKind P.uapi).Carries g := fun _ hg => rtKind_carries _ hg
  have hflt : ∀ g, g ∈ fltGroups P.uapi → (fltKind P.uapi).Carries g := fun _ hg => fltKind_carries _ hg
  rcases hc with ⟨hr, hn⟩ | rfl
  · simp only [List.mem_cons, List.not_mem_nil, or_false] at hr
    rcases hr with rfl | rfl | rfl | rfl
    · have hs : addRtSpec P.uapi ∈ addSpecs P.uapi := by simp [addSpecs]
      exact served_add hipa (s := addRtSpec P.uapi) h hs rfl hn (oldRules_addCall (h.placed _ hs rfl) hn hrt)
    · have hs : addFltSpec P.uapi ∈ addSpecs P.uapi := by simp [addSpecs]
      exact served_add hipa (s := addFltSpec P.uapi) h hs rfl hn (oldRules_addCall (h.placed _ hs rfl) hn hflt)
    · have hs : addRtAfterSpec P.uapi ∈ addSpecs P.uapi := by simp [addSpecs]
      exact served_add hipa (s := addRtAfterSpec P.uapi) h hs rfl hn (oldRules_addCall (h.placed _ hs rfl) hn hrt)
    · have hs : addFltAfterSpec P.uapi ∈ addSpecs P.uapi := by simp [addSpecs]
      exact served_add hipa (s := addFltAfterSpec P.uapi) h hs rfl hn (oldRules_addCall (h.placed _ hs rfl) hn hflt)
  · exact served_genEq hipa h

/-- For a V2 request there are rules that are not served. -/
theorem not_served_v2 (h : RuleRequest P w fd request arg s.req) (hs : s ∈ addSpecs P.uapi) (hv : s.v2 = true)
    (hacc : s.accepts P.uapi w.mem arg = true) :
    ∃ m', Same m' arg w.mem arg s.hdr ∧ ¬ Served P (w.withMem m') fd request arg s.req := by
  have hreq : V2Request P s w arg := ⟨hv, hacc, h.placed s hs rfl, h.array s hs rfl hv⟩
  have hbad : ∀ m', Same m' arg w.mem arg s.hdr →
      (OldLayout P (w.withMem m') arg s.req (addCall P s (seenWorld P fd (w.withMem m')) fd request arg) →
        OldRulesV2 P s (w.withMem m') arg (addCall P s (seenWorld P fd (w.withMem m')) fd request arg)) →
      ¬ OldRulesV2 P s (w.withMem m') arg (addCall P s (seenWorld P fd (w.withMem m')) fd request arg) →
      ¬ Served P (w.withMem m') fd request arg s.req := by
    intro m' hm hto hnot hserved
    have h' := h.withMem (.inr ⟨s, hs, rfl⟩) (s.hdr_eq ▸ hm)
    have hcall := ioctl_add_call h' (by rwa [handledAsIpa_withMem]) hs (hreq.withMem hm).accepts
    exact hnot (hto ((served_iff hcall).mp hserved).2)
  simp only [addSpecs, List.mem_cons, List.not_mem_nil, or_false] at hs
  rcases hs with rfl | rfl | rfl | rfl | rfl | rfl | rfl | rfl
  · cases hv
  · obtain ⟨m', hm, hnot⟩ := not_oldRulesV2 hreq (fun _ => rfl) (rtKind_long _)
    exact ⟨m', hm, hbad m' hm id hnot⟩
  · cases hv
  · obtain ⟨m', hm, hnot⟩ := not_oldRulesV2 hreq (fun _ => rfl) (fltKind_long _)
    exact ⟨m', hm, hbad m' hm id hnot⟩
  · cases hv
  · obtain ⟨m', hm, hnot⟩ := not_oldRulesV2 hreq (fun _ => rfl) (rtKind_long _)
    exact ⟨m', hm, hbad m' hm id hnot⟩
  · cases hv
  · obtain ⟨m', hm, hnot⟩ := not_oldRulesV2 hreq (fun _ => rfl) (fltKind_long _)
    exact ⟨m', hm, hbad m' hm id hnot⟩

end

theorem addSpecs_plain {U : Uapi} (hs : s ∈ addSpecs U) (hv : s.v2 = false) :
    s.req ∈ [IpaIoctl.addRtRule, .addFltRule, .addRtRuleAfter, .addFltRuleAfter] := by
  simp only [addSpecs, List.mem_cons, List.not_mem_nil, or_false] at hs
  rcases hs with rfl | rfl | rfl | rfl | rfl | rfl | rfl | rfl <;>
    first | (cases hv; done) | simp [addRtSpec, addFltSpec, addRtAfterSpec, addFltAfterSpec]

theorem Covered.withMem {U : Uapi} {m m' : Mem} (hc : Covered U m arg r)
    (hm : Same m' arg m arg (addHdrSize r)) :
    (r = .generateFltEq ∨ ∃ s ∈ addSpecs U, s.req = r) ∧ Covered U m' arg r := by
  rcases hc with ⟨hr, hn⟩ | rfl
  · have hlt : U.off r .numRules < addHdrSize r := by
      refine U.numRules_lt r ?_
      simp only [List.mem_cons, List.not_mem_nil, or_false] at hr
      rcases hr with rfl | rfl | rfl | rfl <;> exact Nat.succ_pos _
    have hsame : numRulesOf U m' arg r = numRulesOf U m arg r := by
      unfold numRulesOf
      rw [hm _ hlt]
    refine ⟨.inr ?_, .inl ⟨hr, hsame ▸ hn⟩⟩
    simp only [List.mem_cons, List.not_mem_nil, or_false] at hr
    rcases hr with rfl | rfl | rfl | rfl
    · exact ⟨addRtSpec U, by simp [addSpecs], rfl⟩
    · exact ⟨addFltSpec U, by simp [addSpecs], rfl⟩
    · exact ⟨addRtAfterSpec U, by simp [addSpecs], rfl⟩
    · exact ⟨addFltAfterSpec U, by simp [addSpecs], rfl⟩
  · exact ⟨.inl rfl, .inr rfl⟩

/-- The wrapper knows the device: it remembers this descriptor as the device, or
it has to look and can read the link. -/
def Recognised (K : FdKernel τ) (w : World (FdState τ)) (fd : Int) : Prop :=
  if fd = w.cachedFd then w.cachedIsIpa = true else K.linkFails w.os (fdNumber fd) = false

instance (K : FdKernel τ) (w : World (FdState τ)) (fd : Int) : Decidable (Recognised K w fd) :=
  inferInstanceAs (Decidable (ite _ _ _))

theorem recognised_iff (K : FdKernel τ) (U : Uapi) (buf : Nat) {w : World (FdState τ)} (hipa : IsIpa w fd) :
    handledAsIpa (K.platform U buf) w fd = true ↔ Recognised K w fd := by
  rw [handledAsIpa_iff]
  unfold Recognised
  split
  · exact Iff.rfl
  · refine ⟨fun ⟨link, hlink, _⟩ => (readFd_some hlink).1, fun hok => ⟨ipaLink, ?_, List.prefix_rfl⟩⟩
    unfold FdKernel.readFd
    rw [hok]
    exact hipa

/-- Rules on the IPA device reach the kernel in the old layout, whatever they are,
exactly where the wrapper knows the device and the request is an ADD request
without V2 that holds no more than eight or `GENERATE_FLT_EQ`; and requests that
no translator takes on reach it as they came. -/
theorem rule_requests_translated_iff (K : FdKernel τ) (U : Uapi) (buf : Nat) (w : World (FdState τ)) (fd : Int)
    (request arg : Nat) (r : IpaIoctl) (h : RuleRequest (K.platform U buf) w fd request arg r)
    (hipa : IsIpa w fd) :
    ((∀ m', Same m' arg w.mem arg (addHdrSize r) →
        Served (K.platform U buf) (w.withMem m') fd request arg r) ↔
      Recognised K w fd ∧ Covered U w.mem arg r) ∧
    ∃ call, ((ioctl (K.platform U buf) fd request arg).run w).2.ioctls = w.ioctls ++ [call] ∧
      (PassedThrough w arg call ↔ ¬ (Recognised K w fd ∧ Rebuilds U w.mem arg r)) := by
  rw [← recognised_iff K U buf hipa]
  obtain ⟨call, hcall⟩ := ioctl_call (K.platform U buf) w fd request arg
  have hpass := rule_request_passedThrough_iff h hcall.once
  refine ⟨⟨fun hall => ?_, fun ⟨hk, hc⟩ m' hm => ?_⟩, call, hcall.once, hpass⟩
  · have hserved : Served (K.platform U buf) w fd request arg r := hall w.mem fun _ _ => rfl
    obtain ⟨hk, hre⟩ : handledAsIpa (K.platform U buf) w fd = true ∧ Rebuilds U w.mem arg r := by
      by_contra hre
      exact ((served_iff hcall.once).mp hserved).1 (hpass.mpr hre)
    refine ⟨hk, ?_⟩
    rcases hre with rfl | ⟨s, hs, rfl, hn, hv⟩
    · exact .inr rfl
    · cases hv2 : s.v2 with
      | false => exact .inl ⟨addSpecs_plain hs hv2, hn⟩
      | true =>
        obtain ⟨m', hm, hnot⟩ := not_served_v2 hk h hs hv2 ((h.accepts_iff hs).mpr ⟨hn, hv⟩)
        exact absurd (hall m' (s.hdr_eq ▸ hm)) hnot
  · obtain ⟨hr, hc'⟩ := hc.withMem hm
    exact served_of_covered (by rwa [handledAsIpa_withMem]) (h.withMem hr hm) hc'

def ipaPlatform : Platform (FdState Bool) := (lowestFd false).platform uapi13900 65536

def translateWorld (off : Nat) (n : UInt8) : World (FdState Bool) :=
  { mem := fun a => if a = 4096 + off then n else 0
    os := ⟨fun fd => if fd = 3 then some ipaLink else none, false⟩
    cfg := { loaded := true, rtFltTranslate := true } }

theorem addRt_request {w : World (FdState Bool)} (hmem : w.mem = (translateWorld 40 n).mem)
    (hcfg : w.cfg = (translateWorld 40 n).cfg) (hn : 1 ≤ n.toNat) (hle : n.toNat ≤ 100) (fd : Int) :
    RuleRequest ipaPlatform w fd 0xCF02 4096 .addRtRule := by
  have hnum : (addRtSpec uapi13900).numRules ipaPlatform.uapi w.mem 4096 = n.toNat := by rw [hmem]; rfl
  have hrules : (addRtSpec uapi13900).newRules ipaPlatform.uapi w.mem 4096 = 4140 := rfl
  have hspec : ∀ s ∈ addSpecs uapi13900, s.req = .addRtRule → s = addRtSpec uapi13900 := fun s hs hreq =>
    addSpecs_eq_of_req hs (by simp [addSpecs]) hreq
  have hon : (seenWorld ipaPlatform fd w).cfg = w.cfg := by
    have hcfg' : ((fdIsIpaDev ipaPlatform fd).run w).2.cfg = w.cfg := by
      rw [fdIsIpaDev_run]
      split <;> rfl
    unfold seenWorld configured
    rw [loadCfg_of_loaded (by rw [hcfg', hcfg]; rfl), hcfg']
  refine ⟨by decide, by decide, by decide, by rw [hon, hcfg]; rfl, by decide,
    fun _ => le_of_le_of_eq hn hnum.symm,
    fun s hs hreq => ?_, fun s hs hreq hv => ?_, fun h => absurd h (by decide)⟩
  · rw [hspec s hs hreq]
    refine ⟨by decide, ?_⟩
    rw [hnum, hrules]
    exact .inr (show 4140 + n.toNat * 192 ≤ 65536 by omega)
  · rw [hspec s hs hreq] at hv
    cases hv

theorem addSpecs_req_ne_mdfyRt {U : Uapi} (hs : s ∈ addSpecs U) : s.req ≠ .mdfyRtRule := by
  intro hreq
  simp only [addSpecs, List.mem_cons, List.not_mem_nil, or_false] at hs
  rcases hs with rfl | rfl | rfl | rfl | rfl | rfl | rfl | rfl <;> cases hreq

theorem mdfyRt_request : RuleRequest ipaPlatform (translateWorld 8 1) 3 0xCF29 4096 .mdfyRtRule := by
  refine ⟨by decide, by decide, by decide, by decide, by decide, fun _ => by decide, fun s hs hreq => ?_,
    fun s hs hreq => ?_, fun h => absurd h (by decide)⟩
  · exact absurd hreq (addSpecs_req_ne_mdfyRt hs)
  · exact absurd hreq (addSpecs_req_ne_mdfyRt hs)

theorem rule_requests_translated_iff_two :
    Served ipaPlatform (translateWorld 40 2) 3 0xCF02 4096 .addRtRule := by
  have h := @addRt_request 2 _ rfl rfl (by decide) (by decide) 3
  have hall := (rule_requests_translated_iff _ _ _ _ _ _ _ _ h rfl).1.mpr ⟨by decide, .inl ⟨by decide, by decide⟩⟩
  exact hall (translateWorld 40 2).mem fun _ _ => rfl

theorem not_served_of_passed (h : RuleRequest P w fd request arg r)
    (hnot : ¬ (handledAsIpa P w fd = true ∧ Rebuilds P.uapi w.mem arg r)) : ¬ Served P w fd request arg r := by
  intro hserved
  obtain ⟨call, hcall⟩ := ioctl_call P w fd request arg
  exact ((served_iff hcall.once).mp hserved).1 ((rule_request_passedThrough_iff h hcall.once).mpr hnot)

/-- Descriptor 0 is looked up while it is closed, and then becomes the device. -/
def staleNo : World (FdState Bool) :=
  run (fdStep ipaPlatform) { translateWorld 40 1 with os := ⟨fun _ => none, false⟩ }
    [.ioctl 0 0xCF1F 0, .openFile ipaLink 2 0]

/-- Nine route rules, one modified route rule, and one route rule on a device that
the wrapper has seen closed, go to the kernel as they came. -/
theorem nine_rules_untranslated :
    (RuleRequest ipaPlatform (translateWorld 40 9) 3 0xCF02 4096 .addRtRule ∧ IsIpa (translateWorld 40 9) 3 ∧
      ¬ Served ipaPlatform (translateWorld 40 9) 3 0xCF02 4096 .addRtRule) ∧
    (RuleRequest ipaPlatform (translateWorld 8 1) 3 0xCF29 4096 .mdfyRtRule ∧ IsIpa (translateWorld 8 1) 3 ∧
      ¬ Served ipaPlatform (translateWorld 8 1) 3 0xCF29 4096 .mdfyRtRule) ∧
    RuleRequest ipaPlatform staleNo 0 0xCF02 4096 .addRtRule ∧ IsIpa staleNo 0 ∧
      ¬ Served ipaPlatform staleNo 0 0xCF02 4096 .addRtRule := by
  have hnine := @addRt_request 9 (translateWorld 40 9) rfl rfl (by decide) (by decide) 3
  have hstale := @addRt_request 1 staleNo rfl rfl (by decide) (by decide) 0
  refine ⟨⟨hnine, rfl, not_served_of_passed hnine ?_⟩, ⟨mdfyRt_request, rfl, not_served_of_passed mdfyRt_request ?_⟩,
    hstale, rfl, not_served_of_passed hstale fun h => absurd h.1 (by decide)⟩
  · rintro ⟨-, h | ⟨s, hs, hreq, hle, -⟩⟩
    · exact absurd h (by decide)
    · rw [addSpecs_eq_of_req (t := addRtSpec uapi13900) hs (by simp [addSpecs, ipaPlatform, FdKernel.platform]) hreq]
        at hle
      exact absurd hle (by decide)
  · rintro ⟨-, h | ⟨s, hs, hreq, -⟩⟩
    · exact absurd h (by decide)
    · exact absurd hreq (addSpecs_req_ne_mdfyRt hs)

end

end IpaOffload.Bridge

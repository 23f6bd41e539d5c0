import IpaOffload.Bridge.RuleLaws

/-!
# Rule translation, there and back

`FaithfulAdd` says what an ADD request becomes on its way to a 02300 kernel
and what of the answer reaches the caller; `FaithfulGenEq` does so for
`GENERATE_FLT_EQ`. The requests whose rules follow the header meet it for
every kernel that writes nothing but the buffer it is handed
(`rule_translation_faithful`). What a failed call does to the caller's
request is another matter (`failedAdd_mem`).
-/

namespace IpaOffload.Bridge

open ByteMem StateFrame

-- ---------------------------------------------------------------------------
-- Groups of bytes
-- ---------------------------------------------------------------------------

structure Group where
  old : Nat
  new : Nat
  len : Nat

def rtGroups (U : Uapi) : List Group :=
  [⟨0, 0, 12⟩, ⟨12, 12, attrCommonSize⟩, ⟨164, U.rtMaxPrio, 4⟩]

def fltGroups (U : Uapi) : List Group :=
  [⟨0, 0, 12⟩, ⟨12, 12, attrCommonSize⟩, ⟨164, U.fltEqAttrib, 184⟩, ⟨348, U.fltRtTblIdx, 12⟩]

/-- Translating a rule carries the group over, and reads and writes inside the
records to do so. -/
structure RecordKind.Carries (K : RecordKind) (g : Group) : Prop where
  old_le : g.old + g.len ≤ K.ruleSize
  new_le : g.new + g.len ≤ K.new.size
  image_eq : ∀ f k, k < g.len → K.image f (g.old + k) = f (g.new + k)

theorem rtKind_carries (U : Uapi) (hg : g ∈ rtGroups U) : (rtKind U).Carries g := by
  have hf := U.rt_fields
  have h1 := U.rtAdd.atRear_lt
  have h2 := U.rtAdd.hdl_le
  have h3 := U.rtAdd.status_le
  simp only [rtGroups, attrCommonSize, List.mem_cons, List.not_mem_nil, or_false] at hg hf
  rcases hg with rfl | rfl | rfl <;>
    refine ⟨by simp [rtKind, oldRtRuleSize], by simp only [rtKind]; omega, fun f k hk => ?_⟩ <;>
    simp only [rtKind, rtImage] at hk ⊢ <;> grind

theorem fltKind_carries (U : Uapi) (hg : g ∈ fltGroups U) : (fltKind U).Carries g := by
  have hf := U.flt_fields
  have h1 := U.fltAdd.atRear_lt
  have h2 := U.fltAdd.hdl_le
  have h3 := U.fltAdd.status_le
  simp only [fltGroups, attrCommonSize, List.mem_cons, List.not_mem_nil, or_false] at hg hf
  rcases hg with rfl | rfl | rfl | rfl <;>
    refine ⟨by simp [fltKind, oldFltRuleSize], by simp only [fltKind]; omega, fun f k hk => ?_⟩ <;>
    simp only [fltKind, fltImage] at hk ⊢ <;> grind

theorem rtKind_long (U : Uapi) : 160 < (rtKind U).ruleSize ∧ 160 < (rtKind U).new.size := by
  have hf := U.rt_fields
  have h1 := U.rtAdd.atRear_lt
  have h2 := U.rtAdd.hdl_le
  have h3 := U.rtAdd.status_le
  simp only [attrCommonSize] at hf
  refine ⟨show 160 < oldRtRuleSize by decide, ?_⟩
  show 160 < U.rtAdd.size
  omega

theorem fltKind_long (U : Uapi) : 160 < (fltKind U).ruleSize ∧ 160 < (fltKind U).new.size := by
  have hf := U.flt_fields
  have h1 := U.fltAdd.atRear_lt
  have h2 := U.fltAdd.hdl_le
  have h3 := U.fltAdd.status_le
  simp only [attrCommonSize] at hf
  refine ⟨show 160 < oldFltRuleSize by decide, ?_⟩
  show 160 < U.fltAdd.size
  omega

-- ---------------------------------------------------------------------------
-- The bytes a request is made of
-- ---------------------------------------------------------------------------

namespace AddSpec

variable {s : AddSpec} {U : Uapi} {buf arg : Nat} {m m' : Mem}

/-- The size of a record according to the request: a V2 header declares it. -/
def recSize (s : AddSpec) (U : Uapi) (m : Mem) (arg : Nat) : Nat :=
  if s.v2 then rd32 m (arg + U.off s.req .ruleSize) else s.kind.new.size

def RequestByte (s : AddSpec) (U : Uapi) (m : Mem) (arg a : Nat) : Prop :=
  In arg s.hdr a ∨ In (s.newRules U m arg) (s.numRules U m arg * s.recSize U m arg) a

theorem recSize_plain (hv : s.v2 = false) : s.recSize U m arg = s.kind.new.size := by
  simp [recSize, hv]

def SameRequest (s : AddSpec) (U : Uapi) (arg : Nat) (m m' : Mem) : Prop :=
  ∀ a, s.RequestByte U m arg a → m' a = m a

theorem SameRequest.header (h : s.SameRequest U arg m m') : Same m' arg m arg s.hdr :=
  fun _ hk => h _ (.inl ⟨by omega, by omega⟩)

theorem numRules_congr (h : Same m' arg m arg s.hdr) (hpos : 0 < s.hdr) :
    s.numRules U m' arg = s.numRules U m arg := by
  have hlt := U.numRules_lt s.req (s.hdr_eq ▸ hpos)
  unfold numRules
  rw [h _ (s.hdr_eq ▸ hlt)]

theorem hdr_pos_of_v2 (hv : s.v2 = true) : 0 < s.hdr := by
  have hreq := s.v2_eq ▸ hv
  rw [s.hdr_eq]
  cases hr : s.req <;> simp [hr, IpaIoctl.isV2Add, addHdrSize] at hreq ⊢

theorem rulesField_congr (hv : s.v2 = true) (h : Same m' arg m arg s.hdr) :
    s.rulesField U m' arg = s.rulesField U m arg := by
  have hb := v2_bounds (U := U) hv
  refine rd64_congr fun k hk => ?_
  simpa only [Nat.add_assoc] using h (U.off s.req .rules + k) (by omega)

theorem recSize_congr (hv : s.v2 = true) (h : Same m' arg m arg s.hdr) :
    s.recSize U m' arg = s.recSize U m arg := by
  have hb := v2_bounds (U := U) hv
  simp only [recSize, hv, ↓reduceIte]
  refine rd32_congr fun k hk => ?_
  simpa only [Nat.add_assoc] using h (U.off s.req .ruleSize + k) (by omega)

theorem newRules_congr (h : Same m' arg m arg s.hdr) : s.newRules U m' arg = s.newRules U m arg := by
  cases hv : s.v2 with
  | false => simp only [newRules, hv, Bool.false_eq_true, ↓reduceIte]
  | true => simp only [newRules, hv, ↓reduceIte, rulesField_congr hv h]

theorem Placed.congr (hp : s.Placed U buf m arg) (h : Same m' arg m arg s.hdr) (hpos : 0 < s.hdr) :
    s.Placed U buf m' arg :=
  ⟨hp.header, by rw [numRules_congr h hpos, newRules_congr h]; exact hp.rules⟩

theorem newRules_plain (hv : s.v2 = false) : s.newRules U m arg = arg + U.off s.req .rules := by
  simp [newRules, hv]

theorem newRec_plain (hv : s.v2 = false) (m m' : Mem) : s.newRec U m' arg i = s.newRec U m arg i := by
  simp only [newRec, newRules_plain hv]

theorem build_reads (hv : s.v2 = false) (hpos : 0 < s.hdr) (hp : s.Placed U buf m arg)
    (hn : s.numRules U m arg ≤ rtFltMaxTranslateRules) (h : s.SameRequest U arg m m')
    (ha : In buf s.bufSize a) : s.build U buf arg m' a = s.build U buf arg m a := by
  have hnum := numRules_congr (U := U) h.header hpos
  have hp' : s.Placed U buf m' arg := hp.congr h.header hpos
  have hhdr : s.putHeader U buf arg m' a = s.putHeader U buf arg m a := by
    by_cases hin : In buf s.hdr a
    · obtain ⟨k, rfl⟩ : ∃ k, a = buf + k := ⟨a - buf, by unfold In at hin; omega⟩
      have hk : k < s.hdr := by unfold In at hin; omega
      rw [putHeader_same hp.header hk (by simp [hv]), putHeader_same hp.header hk (by simp [hv]),
        h.header k hk]
    · rw [putHeader_outside hp.header hin, putHeader_outside hp.header hin, if_pos ha, if_pos ha]
  by_cases hrec : ∃ i, i < s.numRules U m arg ∧ In (s.oldRec buf i) s.kind.oldSize a
  · obtain ⟨i, hi, hin⟩ := hrec
    rw [(build_record hp hn).1 i a hi hin, (build_record hp' (hnum ▸ hn)).1 i a (hnum ▸ hi) hin,
      newRec_plain hv m m']
    refine putRecord_congr (hp.records hi (by omega)) (fun k hk => ?_) hhdr
    have hb := newRec_bounds hi
    have hreq : s.RequestByte U m arg (s.newRec U m arg i + k) := by
      refine .inr ?_
      rw [recSize_plain hv]
      unfold In
      omega
    rw [putHeader_newRec hp hi hk, ← h _ hreq, ← newRec_plain hv m m']
    exact putHeader_newRec hp' (hnum ▸ hi) hk
  · have hout : ¬ In (buf + s.hdr) (s.numRules U m arg * s.kind.oldSize) a := by
      intro hin
      refine hrec ?_
      exact in_stride hin
    rw [(build_record hp hn).2 a hout, (build_record hp' (hnum ▸ hn)).2 a (hnum ▸ hout), hhdr]

end AddSpec

-- ---------------------------------------------------------------------------
-- ADD requests
-- ---------------------------------------------------------------------------

def IoctlCall.WritesOnly (call : IoctlCall) (size : Nat) : Prop :=
  ∀ a, ¬ In call.arg size a → call.after a = call.before a

section
variable {σ : Type} {P : Platform σ} {w : World σ} {fd : Int} {request arg : Nat} {s : AddSpec}

/-- A request with one to eight rules, beside a stack buffer of its own, to a
kernel that keeps to the buffer. -/
structure AddRequest (P : Platform σ) (s : AddSpec) (w : World σ) (fd : Int) (request arg : Nat) :
    Prop where
  arg_ne : arg ≠ 0
  pos : 1 ≤ s.numRules P.uapi w.mem arg
  le : s.numRules P.uapi w.mem arg ≤ 8
  placed : s.Placed P.uapi P.buf w.mem arg
  kernel : (addCall P s w fd request arg).WritesOnly s.bufSize

/-- `out` is what a translator of `s` leaves after the one system call `call`. -/
structure FaithfulAdd (P : Platform σ) (s : AddSpec) (groups : List Group) (w : World σ)
    (fd : Int) (request arg : Nat) (out : Option Int × World σ) (call : IoctlCall) : Prop where
  ret : out.1 = some call.ret
  once : out.2.ioctls = w.ioctls ++ [call]
  target : call.fd = fd ∧ call.request = request ∧ call.arg = P.buf
  header : Same call.before P.buf w.mem arg s.hdr
  rule : ∀ i g, i < s.numRules P.uapi w.mem arg → g ∈ groups →
    Same call.before (s.oldRec P.buf i + g.old) w.mem (s.newRec P.uapi w.mem arg i + g.new) g.len
  atRear : ∀ i, i < s.numRules P.uapi w.mem arg →
    call.before (s.oldRec P.buf i + s.kind.oldAtRear) =
      w.mem (s.newRec P.uapi w.mem arg i + s.kind.new.atRear)
  hdl : ∀ i, i < s.numRules P.uapi w.mem arg →
    Same out.2.mem (s.newRec P.uapi w.mem arg i + s.kind.new.hdl)
      call.after (s.oldRec P.buf i + s.kind.oldHdl) 4
  status : ∀ i, i < s.numRules P.uapi w.mem arg →
    Same out.2.mem (s.newRec P.uapi w.mem arg i + s.kind.new.status)
      call.after (s.oldRec P.buf i + s.kind.oldStatus) 4
  rest : ∀ a, ¬ In P.buf s.bufSize a → ¬ s.ResultByte P.uapi w.mem arg a → out.2.mem a = w.mem a
  /-- Records and groups stay inside the buffer and the request. -/
  inside : ∀ i, i < s.numRules P.uapi w.mem arg →
    (P.buf ≤ s.oldRec P.buf i ∧ s.oldRec P.buf i + s.kind.oldSize ≤ P.buf + s.bufSize) ∧
    (∀ k, k < s.kind.new.size → s.RequestByte P.uapi w.mem arg (s.newRec P.uapi w.mem arg i + k)) ∧
    ∀ g ∈ groups, g.old + g.len ≤ s.kind.oldSize ∧ g.new + g.len ≤ s.kind.new.size
  /-- Before the call nothing but the buffer is written. -/
  writes : ∀ a, ¬ In P.buf s.bufSize a → call.before a = w.mem a
  /-- The buffer is filled from the bytes of the request alone. -/
  reads : ∀ m', s.SameRequest P.uapi arg w.mem m' → ∀ a, In P.buf s.bufSize a →
    s.build P.uapi P.buf arg m' a = call.before a

theorem AddRequest.accepts (h : AddRequest P s w fd request arg) (hv : s.v2 = false) :
    s.accepts P.uapi w.mem arg = true := by
  have h1 := h.pos
  exact AddSpec.accepts_iff.mpr ⟨h.arg_ne, by omega, h.le, by simp [hv]⟩

theorem faithfulAdd {groups : List Group} (hv : s.v2 = false) (hpos : 0 < s.hdr)
    (hc : ∀ g, g ∈ groups → s.kind.Carries g) (h : AddRequest P s w fd request arg) :
    FaithfulAdd P s groups w fd request arg ((translateAddIoctl P s fd request arg).run w)
      (addCall P s w fd request arg) := by
  obtain ⟨hret, hout⟩ := translateAddIoctl_accept fd request (h.accepts hv)
  have hmem := congrArg Silent.mem hout
  have hcalls := congrArg Silent.ioctls hout
  simp only [World.silent] at hmem hcalls
  have hp := h.placed
  have hn := h.le
  refine ⟨hret, hcalls, ⟨rfl, rfl, rfl⟩, ?_, ?_, ?_, ?_, ?_, ?_, ?_, ?_, ?_⟩
  · intro k hk
    show s.build P.uapi P.buf arg w.mem _ = _
    rw [AddSpec.build_header hp hn hk, AddSpec.putHeader_same hp.header hk (by simp [hv])]
  · intro i g hi hg k hk
    have hcarry := hc g hg
    have hlt : g.old + k < s.kind.ruleSize := by have := hcarry.old_le; omega
    show s.build P.uapi P.buf arg w.mem _ = _
    rw [Nat.add_assoc, AddSpec.build_rule hp hn hi hlt, hcarry.image_eq _ _ hk, Nat.add_assoc]
  · intro i hi
    exact AddSpec.build_atRear hp hn hi
  · intro i hi
    rw [hmem]
    exact AddSpec.copyBack_hdl hp hn _ hi
  · intro i hi
    rw [hmem]
    exact AddSpec.copyBack_status hp hn _ hi
  · intro a ha hres
    rw [hmem, AddSpec.copyBack_elsewhere hp hn _ hres, h.kernel a ha]
    exact AddSpec.build_outside hp hn ha
  · intro i hi
    have hold := AddSpec.oldRec_bounds (s := s) (i := i) P.buf (Nat.lt_of_lt_of_le hi hn)
    have hnew := AddSpec.newRec_bounds hi
    refine ⟨⟨by omega, hold.2⟩, fun k hk => .inr ?_, fun g hg => ⟨?_, (hc g hg).new_le⟩⟩
    · rw [AddSpec.recSize_plain hv]
      unfold In
      omega
    · have h1 := (hc g hg).old_le
      have h2 := s.kind.old_fields
      omega
  · intro a ha
    exact AddSpec.build_outside hp hn ha
  · intro m' hsame a ha
    exact AddSpec.build_reads hv hpos hp hn hsame ha

-- ---------------------------------------------------------------------------
-- GENERATE_FLT_EQ
-- ---------------------------------------------------------------------------

theorem genEqBuild_apply {U : Uapi} {buf : Nat} {m : Mem} (hp : Apart buf oldGenEqSize arg U.genEqSize) :
    genEqBuild U buf arg m a =
      if In buf 4 a then m (arg + (a - buf))
      else if In (buf + oldGenEqAttr) attrCommonSize a then
        m (arg + U.genEqAttrib + (a - (buf + oldGenEqAttr)))
      else if In buf oldGenEqSize a then 0 else m a := by
  have hf := U.genEq_fields
  simp only [oldGenEqSize, attrCommonSize] at hp hf
  have e1 : Apart buf 4 arg 4 := by unfold Apart at *; omega
  have e2 : Apart (buf + oldGenEqAttr) oldAttrSize (arg + U.genEqAttrib) attrCommonSize := by
    simp only [Apart, oldGenEqAttr, oldAttrSize, attrCommonSize] at *; omega
  simp only [genEqBuild, attrNewToOld_apply _ _ _ _ e2, memCopy_apply _ _ _ _ _ e1, memZero_apply]
  simp only [Apart, In, oldGenEqAttr, oldAttrSize, attrCommonSize, oldGenEqSize] at *
  grind

theorem genEqBuild_outside {U : Uapi} {buf : Nat} {m : Mem}
    (hp : Apart buf oldGenEqSize arg U.genEqSize) (ha : ¬ In buf oldGenEqSize a) :
    genEqBuild U buf arg m a = m a := by
  have h1 : ¬ In buf 4 a := by simp only [In, oldGenEqSize] at *; omega
  have h2 : ¬ In (buf + oldGenEqAttr) attrCommonSize a := by
    simp only [In, oldGenEqAttr, attrCommonSize, oldGenEqSize] at *; omega
  rw [genEqBuild_apply hp, if_neg h1, if_neg h2, if_neg ha]

def genEqCall (P : Platform σ) (w : World σ) (fd : Int) (request arg : Nat) : IoctlCall :=
  let m := genEqBuild P.uapi P.buf arg w.mem
  let r := P.os.ioctl w.os fd request P.buf m
  ⟨fd, request, P.buf, m, r.1, r.2.1⟩

def genEqBack (P : Platform σ) (arg : Nat) (ret : Int) (m : Mem) : Mem :=
  if 0 ≤ ret then memCopy (arg + P.uapi.genEqEq) (P.buf + oldGenEqEq) 184 m else m

theorem translateGenerateFltEqIoctl_accept (fd : Int) (request : Nat) (w : World σ) (h : arg ≠ 0) :
    ((translateGenerateFltEqIoctl P fd request arg).run w).1 = some (genEqCall P w fd request arg).ret ∧
    ((translateGenerateFltEqIoctl P fd request arg).run w).2.silent =
      ⟨genEqBack P arg (genEqCall P w fd request arg).ret (genEqCall P w fd request arg).after,
        w.ioctls ++ [genEqCall P w fd request arg], w.cachedFd, w.cachedIsIpa⟩ := by
  have hback : ∀ (ret : Int) (k : Unit → Proc σ (Option Int)), (if 0 ≤ ret then
      modifyMem (memCopy (arg + P.uapi.genEqEq) (P.buf + oldGenEqEq) 184) >>= k else k ()) =
        modifyMem (genEqBack P arg ret) >>= k := by
    intro ret k
    unfold genEqBack
    split <;> rfl
  have hrun := rebuilt_call (P := P) fd request (genEqBuild P.uapi P.buf arg)
    (genEqBack P arg) "GENERATE_FLT_EQ" 1 w
  unfold translateGenerateFltEqIoctl
  rw [if_neg h]
  simp only [← hback] at hrun
  exact hrun

structure GenEqRequest (P : Platform σ) (w : World σ) (fd : Int) (request arg : Nat) : Prop where
  arg_ne : arg ≠ 0
  placed : Apart P.buf oldGenEqSize arg P.uapi.genEqSize
  kernel : (genEqCall P w fd request arg).WritesOnly oldGenEqSize

structure FaithfulGenEq (P : Platform σ) (w : World σ) (fd : Int) (request arg : Nat)
    (out : Option Int × World σ) (call : IoctlCall) : Prop where
  ret : out.1 = some call.ret
  once : out.2.ioctls = w.ioctls ++ [call]
  target : call.fd = fd ∧ call.request = request ∧ call.arg = P.buf
  header : Same call.before P.buf w.mem arg 4
  attrib : Same call.before (P.buf + oldGenEqAttr) w.mem (arg + P.uapi.genEqAttrib) attrCommonSize
  eq : 0 ≤ call.ret →
    Same out.2.mem (arg + P.uapi.genEqEq) call.after (P.buf + oldGenEqEq) 184
  rest : ∀ a, ¬ In P.buf oldGenEqSize a → ¬ (0 ≤ call.ret ∧ In (arg + P.uapi.genEqEq) 184 a) →
    out.2.mem a = w.mem a
  inside : oldGenEqAttr + oldAttrSize ≤ oldGenEqSize ∧ oldGenEqEq + 184 ≤ oldGenEqSize ∧
    P.uapi.genEqAttrib + attrCommonSize ≤ P.uapi.genEqSize ∧ P.uapi.genEqEq + 184 ≤ P.uapi.genEqSize
  writes : ∀ a, ¬ In P.buf oldGenEqSize a → call.before a = w.mem a
  reads : ∀ m', (∀ a, In arg P.uapi.genEqSize a → m' a = w.mem a) → ∀ a, In P.buf oldGenEqSize a →
    genEqBuild P.uapi P.buf arg m' a = call.before a

theorem faithfulGenEq (h : GenEqRequest P w fd request arg) :
    FaithfulGenEq P w fd request arg ((translateGenerateFltEqIoctl P fd request arg).run w)
      (genEqCall P w fd request arg) := by
  obtain ⟨hret, hout⟩ := translateGenerateFltEqIoctl_accept (P := P) fd request w h.arg_ne
  have hmem := congrArg Silent.mem hout
  have hcalls := congrArg Silent.ioctls hout
  simp only [World.silent] at hmem hcalls
  have hbuild := fun m a => genEqBuild_apply (a := a) (m := m) h.placed
  have hf := P.uapi.genEq_fields
  have hp := h.placed
  simp only [oldGenEqSize, attrCommonSize] at hp hf
  have hback : Apart (arg + P.uapi.genEqEq) 184 (P.buf + oldGenEqEq) 184 := by
    simp only [Apart, oldGenEqEq] at *; omega
  refine ⟨hret, hcalls, ⟨rfl, rfl, rfl⟩, ?_, ?_, ?_, ?_, ?_, ?_, ?_⟩
  · intro k hk
    show genEqBuild P.uapi P.buf arg w.mem _ = _
    rw [hbuild, if_pos ⟨by omega, by omega⟩, Nat.add_sub_cancel_left]
  · intro k hk
    show genEqBuild P.uapi P.buf arg w.mem _ = _
    simp only [attrCommonSize] at hk
    rw [hbuild, if_neg (by simp only [In, oldGenEqAttr]; omega), if_pos ⟨by omega, by simp only [attrCommonSize]; omega⟩,
      Nat.add_sub_cancel_left]
  · intro hok
    rw [hmem, genEqBack, if_pos hok]
    exact memCopy_same _ _ _ _ hback
  · intro a ha hres
    have hkept : genEqBack P arg (genEqCall P w fd request arg).ret (genEqCall P w fd request arg).after a =
        (genEqCall P w fd request arg).after a := by
      unfold genEqBack
      split
      · rename_i hok
        rw [memCopy_apply _ _ _ _ _ hback, if_neg fun hin => hres ⟨hok, hin⟩]
      · rfl
    rw [hmem, hkept, h.kernel a ha]
    exact genEqBuild_outside h.placed ha
  · refine ⟨by decide, by decide, ?_, ?_⟩
    · simp only [attrCommonSize]; omega
    · omega
  · intro a ha
    exact genEqBuild_outside h.placed ha
  · intro m' hsame a ha
    show _ = genEqBuild P.uapi P.buf arg w.mem a
    rw [hbuild, hbuild]
    split
    · exact hsame _ (by unfold In at *; omega)
    · split
      · exact hsame _ (by simp only [In, oldGenEqAttr, attrCommonSize] at *; omega)
      · rfl

-- ---------------------------------------------------------------------------
-- The requests whose rules follow the header
-- ---------------------------------------------------------------------------

/-- The four ADD requests without a V2 header and `GENERATE_FLT_EQ` reach the
kernel in the old layout, once, and their results reach the caller. -/
theorem rule_translation_faithful (P : Platform σ) (w : World σ) (fd : Int) (request arg : Nat) :
    (AddRequest P (addRtSpec P.uapi) w fd request arg →
      FaithfulAdd P (addRtSpec P.uapi) (rtGroups P.uapi) w fd request arg
        ((translateAddRtIoctl P fd request arg).run w) (addCall P (addRtSpec P.uapi) w fd request arg)) ∧
    (AddRequest P (addRtAfterSpec P.uapi) w fd request arg →
      FaithfulAdd P (addRtAfterSpec P.uapi) (rtGroups P.uapi) w fd request arg
        ((translateAddRtAfterIoctl P fd request arg).run w)
        (addCall P (addRtAfterSpec P.uapi) w fd request arg)) ∧
    (AddRequest P (addFltSpec P.uapi) w fd request arg →
      FaithfulAdd P (addFltSpec P.uapi) (fltGroups P.uapi) w fd request arg
        ((translateAddFltIoctl P fd request arg).run w) (addCall P (addFltSpec P.uapi) w fd request arg)) ∧
    (AddRequest P (addFltAfterSpec P.uapi) w fd request arg →
      FaithfulAdd P (addFltAfterSpec P.uapi) (fltGroups P.uapi) w fd request arg
        ((translateAddFltAfterIoctl P fd request arg).run w)
        (addCall P (addFltAfterSpec P.uapi) w fd request arg)) ∧
    (GenEqRequest P w fd request arg →
      FaithfulGenEq P w fd request arg ((translateGenerateFltEqIoctl P fd request arg).run w)
        (genEqCall P w fd request arg)) := by
  refine ⟨fun h => ?_, fun h => ?_, fun h => ?_, fun h => ?_, faithfulGenEq⟩
  · exact faithfulAdd rfl (Nat.succ_pos _) (fun _ hg => rtKind_carries _ hg) h
  · exact faithfulAdd rfl (Nat.succ_pos _) (fun _ hg => rtKind_carries _ hg) h
  · exact faithfulAdd rfl (Nat.succ_pos _) (fun _ hg => fltKind_carries _ hg) h
  · exact faithfulAdd rfl (Nat.succ_pos _) (fun _ hg => fltKind_carries _ hg) h

def answering (off : Nat) : Platform Unit := ⟨uapi13900, fixedOs 0 (·.poke (65536 + off) 9) none, 65536⟩

/-- A request at 4096 that asks for `n` rules, the count standing `off` bytes
into it and every other byte being `fill`. -/
def requestWorld (off : Nat) (n fill : UInt8) : World Unit :=
  { mem := fun a => if a = 4096 + off then n else fill, os := () }

theorem addCall_answering (w : World Unit) (hoff : off < s.bufSize) :
    (addCall (answering off) s w fd request arg).WritesOnly s.bufSize := by
  intro a ha
  have hne : a ≠ 65536 + off := by
    rintro rfl
    exact ha ⟨Nat.le_add_right _ _, Nat.add_lt_add_left hoff _⟩
  exact if_neg hne

theorem rule_translation_faithful_two_rules :
    FaithfulAdd (answering 216) (addRtSpec uapi13900) (rtGroups uapi13900)
      (requestWorld 40 2 7) 3 0xCF02 4096
      ((translateAddRtIoctl (answering 216) 3 0xCF02 4096).run (requestWorld 40 2 7))
      (addCall (answering 216) (addRtSpec uapi13900) (requestWorld 40 2 7) 3 0xCF02 4096) ∧
    FaithfulAdd (answering 220) (addRtAfterSpec uapi13900) (rtGroups uapi13900)
      (requestWorld 40 2 7) 3 0xCF2A 4096
      ((translateAddRtAfterIoctl (answering 220) 3 0xCF2A 4096).run (requestWorld 40 2 7))
      (addCall (answering 220) (addRtAfterSpec uapi13900) (requestWorld 40 2 7) 3 0xCF2A 4096) ∧
    FaithfulAdd (answering 380) (addFltSpec uapi13900) (fltGroups uapi13900)
      (requestWorld 13 2 7) 3 0xCF04 4096
      ((translateAddFltIoctl (answering 380) 3 0xCF04 4096).run (requestWorld 13 2 7))
      (addCall (answering 380) (addFltSpec uapi13900) (requestWorld 13 2 7) 3 0xCF04 4096) ∧
    FaithfulAdd (answering 384) (addFltAfterSpec uapi13900) (fltGroups uapi13900)
      (requestWorld 12 2 7) 3 0xCF2B 4096
      ((translateAddFltAfterIoctl (answering 384) 3 0xCF2B 4096).run (requestWorld 12 2 7))
      (addCall (answering 384) (addFltAfterSpec uapi13900) (requestWorld 12 2 7) 3 0xCF2B 4096) ∧
    FaithfulGenEq (answering 156) (requestWorld 0 2 7) 3 0xCF1E 4096
      ((translateGenerateFltEqIoctl (answering 156) 3 0xCF1E 4096).run (requestWorld 0 2 7))
      (genEqCall (answering 156) (requestWorld 0 2 7) 3 0xCF1E 4096) := by
  refine ⟨(rule_translation_faithful _ _ _ _ _).1 ⟨by decide, by decide, by decide, ⟨by decide, by decide⟩, ?_⟩,
    (rule_translation_faithful _ _ _ _ _).2.1 ⟨by decide, by decide, by decide, ⟨by decide, by decide⟩, ?_⟩,
    (rule_translation_faithful _ _ _ _ _).2.2.1 ⟨by decide, by decide, by decide, ⟨by decide, by decide⟩, ?_⟩,
    (rule_translation_faithful _ _ _ _ _).2.2.2.1 ⟨by decide, by decide, by decide, ⟨by decide, by decide⟩, ?_⟩,
    (rule_translation_faithful _ _ _ _ _).2.2.2.2 ⟨by decide, by decide, ?_⟩⟩
  · exact addCall_answering _ (by decide)
  · exact addCall_answering _ (by decide)
  · exact addCall_answering _ (by decide)
  · exact addCall_answering _ (by decide)
  · intro a ha
    have hne : a ≠ 65536 + 156 := by
      rintro rfl
      exact ha (by decide)
    exact if_neg hne

-- ---------------------------------------------------------------------------
-- Failed calls
-- ---------------------------------------------------------------------------

structure IoctlCall.Failed (call : IoctlCall) : Prop where
  ret : call.ret < 0
  kept : call.after = call.before

theorem failedAdd_mem (fd : Int) (request : Nat) (hacc : s.accepts P.uapi w.mem arg = true)
    (hp : s.Placed P.uapi P.buf w.mem arg)
    (hfail : (addCall P s w fd request arg).Failed) (ha : ¬ In P.buf s.bufSize a) :
    (s.ResultByte P.uapi w.mem arg a → ((translateAddIoctl P s fd request arg).run w).2.mem a = 0) ∧
    (¬ s.ResultByte P.uapi w.mem arg a →
      ((translateAddIoctl P s fd request arg).run w).2.mem a = w.mem a) := by
  have hmem := congrArg Silent.mem (translateAddIoctl_accept fd request hacc).2
  obtain ⟨-, -, hn, -⟩ := AddSpec.accepts_iff.mp hacc
  have hf := s.kind.old_fields
  have hkept : (addCall P s w fd request arg).after = s.build P.uapi P.buf arg w.mem := hfail.kept
  simp only [World.silent, hkept] at hmem
  rw [hmem]
  refine ⟨?_, fun hres => ?_⟩
  · rintro ⟨i, hi, hin | hin⟩
    · obtain ⟨k, hk, rfl⟩ : ∃ k, k < 4 ∧ a = s.newRec P.uapi w.mem arg i + s.kind.new.hdl + k :=
        ⟨a - (s.newRec P.uapi w.mem arg i + s.kind.new.hdl), by unfold In at hin; omega,
          by unfold In at hin; omega⟩
      rw [AddSpec.copyBack_hdl hp hn _ hi k hk, Nat.add_assoc]
      exact AddSpec.build_rest hp hn hi (by omega) (by omega) (by omega)
    · obtain ⟨k, hk, rfl⟩ : ∃ k, k < 4 ∧ a = s.newRec P.uapi w.mem arg i + s.kind.new.status + k :=
        ⟨a - (s.newRec P.uapi w.mem arg i + s.kind.new.status), by unfold In at hin; omega,
          by unfold In at hin; omega⟩
      rw [AddSpec.copyBack_status hp hn _ hi k hk, Nat.add_assoc]
      exact AddSpec.build_rest hp hn hi (by omega) (by omega) (by omega)
  · rw [AddSpec.copyBack_elsewhere hp hn _ hres]
    exact AddSpec.build_outside hp hn ha

/-- A failed ADD request, V2 or not, is left as it was exactly when the bytes
the results are copied to, as the translator addresses them, were 0 already. -/
theorem failed_add_keeps_request_iff (P : Platform σ) (s : AddSpec) (w : World σ) (fd : Int)
    (request arg : Nat) (hacc : s.accepts P.uapi w.mem arg = true)
    (hp : s.Placed P.uapi P.buf w.mem arg)
    (hreq : ∀ a, s.RequestByte P.uapi w.mem arg a → ¬ In P.buf s.bufSize a)
    (hfail : (addCall P s w fd request arg).Failed) :
    s.SameRequest P.uapi arg w.mem ((translateAddIoctl P s fd request arg).run w).2.mem ↔
      ∀ a, s.RequestByte P.uapi w.mem arg a → s.ResultByte P.uapi w.mem arg a → w.mem a = 0 := by
  refine ⟨fun h a ha hres => ?_, fun h a ha => ?_⟩
  · rw [← h a ha, (failedAdd_mem fd request hacc hp hfail (hreq a ha)).1 hres]
  · by_cases hres : s.ResultByte P.uapi w.mem arg a
    · rw [(failedAdd_mem fd request hacc hp hfail (hreq a ha)).1 hres, h a ha hres]
    · exact (failedAdd_mem fd request hacc hp hfail (hreq a ha)).2 hres

def refusing : Platform Unit := ⟨uapi13900, fixedOs (-1) id none, 65536⟩

theorem addCall_refusing (s : AddSpec) (w : World Unit) (fd : Int) (request arg : Nat) :
    (addCall refusing s w fd request arg).Failed :=
  ⟨show (-1 : Int) < 0 by decide, rfl⟩

theorem requestByte_one (fill : UInt8)
    (h : (addRtSpec uapi13900).RequestByte uapi13900 (requestWorld 40 1 fill).mem 4096 a) :
    In 4096 44 a ∨ In 4140 192 a := by
  have hn : (addRtSpec uapi13900).numRules uapi13900 (requestWorld 40 1 fill).mem 4096 = 1 := rfl
  have hr : (addRtSpec uapi13900).newRules uapi13900 (requestWorld 40 1 fill).mem 4096 = 4140 := rfl
  have hs : (addRtSpec uapi13900).recSize uapi13900 (requestWorld 40 1 fill).mem 4096 = 192 := rfl
  unfold AddSpec.RequestByte at h
  rwa [hn, hr, hs] at h

theorem failed_add_keeps_request_iff_zero :
    (addRtSpec uapi13900).SameRequest uapi13900 4096 (requestWorld 40 1 0).mem
      ((translateAddIoctl refusing (addRtSpec uapi13900) 3 0xCF02 4096).run (requestWorld 40 1 0)).2.mem := by
  refine (failed_add_keeps_request_iff refusing (addRtSpec uapi13900) (requestWorld 40 1 0) 3 0xCF02 4096
    (by decide) ⟨by decide, by decide⟩ ?_ (addCall_refusing _ _ _ _ _)).mpr ?_
  · intro a ha hin
    have h1 := requestByte_one 0 ha
    have h2 : In 65536 1484 a := hin
    unfold In at h1 h2
    omega
  · rintro a - ⟨i, hi, hin⟩
    have h1 : i < 1 := hi
    have h2 : In (4140 + i * 192 + 184) 4 a ∨ In (4140 + i * 192 + 188) 4 a := hin
    have hne : a ≠ 4096 + 40 := by unfold In at h2; omega
    exact if_neg hne

/-- A status of -1 comes back as 0 from a kernel that refused the request. -/
theorem failed_add_clears_status :
    (addRtSpec uapi13900).accepts uapi13900 (requestWorld 40 1 255).mem 4096 = true ∧
    (addRtSpec uapi13900).Placed uapi13900 refusing.buf (requestWorld 40 1 255).mem 4096 ∧
    (addCall refusing (addRtSpec uapi13900) (requestWorld 40 1 255) 3 0xCF02 4096).Failed ∧
    ¬ (addRtSpec uapi13900).SameRequest uapi13900 4096 (requestWorld 40 1 255).mem
      ((translateAddRtIoctl refusing 3 0xCF02 4096).run (requestWorld 40 1 255)).2.mem := by
  have hacc : (addRtSpec uapi13900).accepts uapi13900 (requestWorld 40 1 255).mem 4096 = true := by decide
  have hp : (addRtSpec uapi13900).Placed uapi13900 refusing.buf (requestWorld 40 1 255).mem 4096 :=
    ⟨by decide, by decide⟩
  refine ⟨hacc, hp, addCall_refusing _ _ _ _ _, fun h => ?_⟩
  -- 4140 is the first record, 188 the offset of its status
  have hkeep := h 4328 (.inr (by decide))
  have hzero := (failedAdd_mem (P := refusing) (a := 4328) 3 0xCF02 hacc hp
    (addCall_refusing _ _ _ _ _) (by decide)).1 ⟨0, by decide, .inr (by decide)⟩
  have hff : (requestWorld 40 1 255).mem 4328 = 255 := by decide
  exact absurd ((hzero.symm.trans hkeep).trans hff) (by decide)

end

end IpaOffload.Bridge

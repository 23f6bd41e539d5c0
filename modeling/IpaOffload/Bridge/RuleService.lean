import IpaOffload.Bridge.IoctlLaws
import IpaOffload.Bridge.QueryLaws

/-!
# The rule service behind the ABI

What a kernel does with rules does not depend on the layout they came in. A
`RuleEngine` is that part of a kernel; a `RecordView` is where the records of
an ADD request have their fields. The 02300 kernel and a kernel of the newer
header are one engine behind two views (`kernelIoctl`): the new one hands on
the whole rule of its record, the old one what its smaller record holds of it,
and zeros. `bridged_add`, `bridged_genEq` say that a request which the bridge
has rebuilt for the old one is served as the new one serves it, where the bytes
of the new rules that the bridge does not carry are zero.
-/

namespace IpaOffload.Bridge

open ByteMem StateFrame

-- ---------------------------------------------------------------------------
-- The engine
-- ---------------------------------------------------------------------------

/-- A rule in the form of the newer header, and where it is to be put. -/
structure RuleArg where
  rule : Bytes
  atRear : UInt8
  deriving DecidableEq, Repr

/-- The bytes of `rt_rule_hdl` or `flt_rule_hdl` and of `status`. -/
structure RuleResult where
  hdl : Nat → UInt8
  status : Nat → UInt8

def clearedResult : RuleResult := ⟨fun _ => 0, fun _ => 0⟩

/-- The rules of a kernel. A request it refuses before it looks at the rules
has no results. `generateFltEq` is given the first word of the request and the
attributes; `other` are the requests whose layout is the same in both headers
and those that are not for the IPA device. -/
structure RuleEngine (ρ : Type) where
  isIpa : (fd : Int) → Bool
  add : ρ → (req : IpaIoctl) → (header : Bytes) → List RuleArg → Int × Option (Nat → RuleResult) × ρ
  generateFltEq : ρ → (word attrib : Bytes) → Int × (Nat → UInt8) × ρ
  other : ρ → (fd : Int) → (request arg : Nat) → Mem → Int × Mem × ρ

-- ---------------------------------------------------------------------------
-- The two layouts
-- ---------------------------------------------------------------------------

/-- How the bytes `f` of an old record say a rule of the newer header. `left` are
the bytes of such a rule that the bridge does not carry. -/
structure RuleForm where
  widen : (f : Nat → UInt8) → Nat → UInt8
  left : Nat → Bool

/-- The two rules agree up to the attributes, of which the old one has 152 bytes;
`max_prio` follows them. -/
def rtForm (U : Uapi) : RuleForm where
  widen := fun f k =>
    if k < U.rtMaxPrio then if k < 12 + oldAttrSize then f k else 0
    else if k < U.rtMaxPrio + 4 then f (164 + (k - U.rtMaxPrio)) else 0
  left := fun k => 12 + attrCommonSize ≤ k ∧ k < U.rtMaxPrio ∨ U.rtMaxPrio + 4 ≤ k

/-- Here `eq_attrib` follows, and then `rt_tbl_idx` and the fields after it. -/
def fltForm (U : Uapi) : RuleForm where
  widen := fun f k =>
    if k < U.fltEqAttrib then if k < 12 + oldAttrSize then f k else 0
    else if k < U.fltEqAttrib + 184 then f (164 + (k - U.fltEqAttrib))
    else if k < U.fltRtTblIdx then 0
    else if k < U.fltRtTblIdx + 12 then f (348 + (k - U.fltRtTblIdx)) else 0
  left := fun k =>
    12 + attrCommonSize ≤ k ∧ k < U.fltEqAttrib ∨ U.fltEqAttrib + 184 ≤ k ∧ k < U.fltRtTblIdx ∨
      U.fltRtTblIdx + 12 ≤ k

def ruleForm (U : Uapi) : IpaIoctl → RuleForm
  | .addFltRule | .addFltRuleAfter => fltForm U
  | _ => rtForm U

/-- The fields of a record; `rule` are the bytes of the rule, from those of the
record. -/
structure RecordView where
  size : Nat
  atRear : Nat
  hdl : Nat
  status : Nat
  rule : (Nat → UInt8) → Nat → UInt8
  hdl_le : hdl + 4 ≤ status
  status_le : status + 4 ≤ size

def RecordKind.oldView (K : RecordKind) (form : RuleForm) : RecordView where
  size := K.oldSize
  atRear := K.oldAtRear
  hdl := K.oldHdl
  status := K.oldStatus
  rule := form.widen
  hdl_le := K.old_fields.2.2.1
  status_le := K.old_fields.2.2.2

def RecordKind.newView (K : RecordKind) : RecordView where
  size := K.new.size
  atRear := K.new.atRear
  hdl := K.new.hdl
  status := K.new.status
  rule := fun f => f
  hdl_le := K.new.hdl_le
  status_le := K.new.status_le

/-- A header: its records, and the attributes and the equation of
`GENERATE_FLT_EQ`. `onRefusal` is what a refused request is answered with. -/
structure Abi where
  view : AddSpec → RecordView
  genAttr : Nat
  genEq : Nat
  attrib : (Nat → UInt8) → Nat → UInt8
  onRefusal : Option (Nat → RuleResult)

def abi02300 (U : Uapi) : Abi where
  view := fun s => s.kind.oldView (ruleForm U s.req)
  genAttr := oldGenEqAttr
  genEq := oldGenEqEq
  attrib := fun f k => if k < oldAttrSize then f k else 0
  onRefusal := none

/-- The newer header. Its kernel clears the handle and the status of every rule
of a request it refuses, which is what the bridge makes of a refusal. -/
def abiNew (U : Uapi) : Abi where
  view := fun s => s.kind.newView
  genAttr := U.genEqAttrib
  genEq := U.genEqEq
  attrib := fun f => f
  onRefusal := some fun _ => clearedResult

-- ---------------------------------------------------------------------------
-- Serving a request
-- ---------------------------------------------------------------------------

namespace RecordView

def ruleArg (v : RecordView) (ruleSize : Nat) (m : Mem) (p : Nat) : RuleArg :=
  ⟨(List.range ruleSize).map (v.rule fun j => m (p + j)), m (p + v.atRear)⟩

def ruleArgs (v : RecordView) (ruleSize n : Nat) (m : Mem) (rules : Nat) : List RuleArg :=
  (List.range n).map fun i => v.ruleArg ruleSize m (rules + i * v.size)

def putResult (v : RecordView) (p : Nat) (res : RuleResult) (m : Mem) : Mem :=
  m |> memPut (p + v.hdl) res.hdl 4 |> memPut (p + v.status) res.status 4

def putResults (v : RecordView) (n rules : Nat) (res : Nat → RuleResult) (m : Mem) : Mem :=
  forRange n (fun i => v.putResult (rules + i * v.size) (res i)) m

end RecordView

def plainSpecs (U : Uapi) : List AddSpec := [addRtSpec U, addRtAfterSpec U, addFltSpec U, addFltAfterSpec U]

section
variable {ρ : Type} (E : RuleEngine ρ) (U : Uapi) (abi : Abi)

def addAnswer (s : AddSpec) (r : ρ) (arg : Nat) (m : Mem) : Int × Option (Nat → RuleResult) × ρ :=
  E.add r s.req (bytesAt m arg s.hdr)
    ((abi.view s).ruleArgs s.kind.new.atRear (s.numRules U m arg) m (arg + s.hdr))

def serveAdd (s : AddSpec) (r : ρ) (arg : Nat) (m : Mem) : Int × Mem × ρ :=
  let answer := addAnswer E U abi s r arg m
  let m' := match answer.2.1.or abi.onRefusal with
    | none => m
    | some res => (abi.view s).putResults (s.numRules U m arg) (arg + s.hdr) res m
  (answer.1, m', answer.2.2)

def genEqAnswer (r : ρ) (arg : Nat) (m : Mem) : Int × (Nat → UInt8) × ρ :=
  E.generateFltEq r (bytesAt m arg 4)
    ((List.range (U.genEqEq - U.genEqAttrib)).map (abi.attrib fun j => m (arg + abi.genAttr + j)))

def serveGenerateFltEq (r : ρ) (arg : Nat) (m : Mem) : Int × Mem × ρ :=
  let answer := genEqAnswer E U abi r arg m
  (answer.1, if 0 ≤ answer.1 then memPut (arg + abi.genEq) answer.2.1 184 m else m, answer.2.2)

def kernelIoctl (r : ρ) (fd : Int) (request arg : Nat) (m : Mem) : Int × Mem × ρ :=
  if iocType request = U.magic ∧ E.isIpa fd = true then
    match (plainSpecs U).find? fun s => U.nr s.req = iocNr request with
    | some s => serveAdd E U abi s r arg m
    | none =>
      if iocNr request = U.nr .generateFltEq then serveGenerateFltEq E U abi r arg m
      else E.other r fd request arg m
  else E.other r fd request arg m

end

-- ---------------------------------------------------------------------------
-- Results in memory
-- ---------------------------------------------------------------------------

namespace RecordView

variable {v : RecordView}

theorem putResult_apply (p : Nat) (res : RuleResult) (m : Mem) (a : Nat) :
    v.putResult p res m a =
      if In (p + v.hdl) 4 a then res.hdl (a - (p + v.hdl))
      else if In (p + v.status) 4 a then res.status (a - (p + v.status)) else m a := by
  have h := v.hdl_le
  unfold putResult
  rw [memPut_apply, memPut_apply]
  by_cases hs : In (p + v.status) 4 a
  · have hh : ¬ In (p + v.hdl) 4 a := by unfold In at *; omega
    rw [if_pos hs, if_neg hh, if_pos hs]
  · rw [if_neg hs, if_neg hs]

theorem putResults_record (n rules : Nat) (res : Nat → RuleResult) (m : Mem) :
    (∀ i a, i < n → In (rules + i * v.size) v.size a →
      v.putResults n rules res m a = v.putResult (rules + i * v.size) (res i) m a) ∧
    ∀ a, ¬ In rules (n * v.size) a → v.putResults n rules res m a = m a := by
  have h1 := v.hdl_le
  have h2 := v.status_le
  refine forRange_strided _ ?_ ?_
  · intro i t a _ ha
    rw [putResult_apply, if_neg (by unfold In at *; omega), if_neg (by unfold In at *; omega)]
  · intro i t _ hagree a ha
    rw [putResult_apply, putResult_apply, hagree a (by unfold In at *; omega)]

section
variable (n rules : Nat) (res : Nat → RuleResult) (m : Mem)

theorem putResults_hdl (hi : i < n) (hk : k < 4) :
    v.putResults n rules res m (rules + i * v.size + v.hdl + k) = (res i).hdl k := by
  have h1 := v.hdl_le
  have h2 := v.status_le
  rw [(putResults_record n rules res m).1 i _ hi ⟨by omega, by omega⟩, putResult_apply,
    if_pos ⟨by omega, by omega⟩, Nat.add_sub_cancel_left]

theorem putResults_status (hi : i < n) (hk : k < 4) :
    v.putResults n rules res m (rules + i * v.size + v.status + k) = (res i).status k := by
  have h1 := v.hdl_le
  have h2 := v.status_le
  rw [(putResults_record n rules res m).1 i _ hi ⟨by omega, by omega⟩, putResult_apply,
    if_neg (by unfold In; omega), if_pos ⟨by omega, by omega⟩, Nat.add_sub_cancel_left]

theorem putResults_elsewhere (ha : ∀ i, i < n → ¬ In (rules + i * v.size + v.hdl) 4 a ∧
      ¬ In (rules + i * v.size + v.status) 4 a) : v.putResults n rules res m a = m a := by
  by_cases hin : In rules (n * v.size) a
  · obtain ⟨i, hi, hrec⟩ := in_stride hin
    obtain ⟨hh, hs⟩ := ha i hi
    rw [(putResults_record n rules res m).1 i a hi hrec, putResult_apply, if_neg hh, if_neg hs]
  · exact (putResults_record n rules res m).2 a hin

end

end RecordView

-- ---------------------------------------------------------------------------
-- A rebuilt ADD request
-- ---------------------------------------------------------------------------

/-- The largest of the translators' buffers. -/
def frameSize : Nat := 40 + rtFltMaxTranslateRules * oldFltAddSize

/-- The memories differ in the dead stack frame of the translators at most. -/
def AgreeOff (buf : Nat) (m m' : Mem) : Prop := ∀ a, ¬ In buf frameSize a → m a = m' a

/-- One to eight rules, in memory that the translators' frame leaves alone, and
with nothing in them that the bridge does not carry. -/
structure AddFits (U : Uapi) (buf : Nat) (s : AddSpec) (m : Mem) (arg : Nat) : Prop where
  arg_ne : arg ≠ 0
  pos : 1 ≤ s.numRules U m arg
  le : s.numRules U m arg ≤ rtFltMaxTranslateRules
  header : Apart buf frameSize arg s.hdr
  rules : Apart buf frameSize (arg + s.hdr) (s.numRules U m arg * s.kind.new.size)
  carried : ∀ i, i < s.numRules U m arg → ∀ k, k < s.kind.new.atRear → (ruleForm U s.req).left k = true →
    m (arg + s.hdr + i * s.kind.new.size + k) = 0

theorem plainSpecs_sub {U : Uapi} (hs : s ∈ plainSpecs U) : s ∈ addSpecs U := by
  simp only [plainSpecs, addSpecs, List.mem_cons, List.not_mem_nil, or_false] at hs ⊢
  tauto

theorem plainSpecs_facts {U : Uapi} (hs : s ∈ plainSpecs U) :
    s.v2 = false ∧ 0 < s.hdr ∧ s.bufSize ≤ frameSize ∧ U.off s.req .rules = s.hdr := by
  have hrules := U.rules_eq s.req
  rw [← s.hdr_eq, ← s.v2_eq] at hrules
  have hall : s.v2 = false ∧ 0 < s.hdr ∧ s.bufSize ≤ frameSize := by
    simp only [plainSpecs, List.mem_cons, List.not_mem_nil, or_false] at hs
    rcases hs with rfl | rfl | rfl | rfl
    · exact ⟨rfl, Nat.succ_pos _, show 44 + rtFltMaxTranslateRules * oldRtAddSize ≤ frameSize by decide⟩
    · exact ⟨rfl, Nat.succ_pos _, show 48 + rtFltMaxTranslateRules * oldRtAddSize ≤ frameSize by decide⟩
    · exact ⟨rfl, Nat.succ_pos _, show 16 + rtFltMaxTranslateRules * oldFltAddSize ≤ frameSize by decide⟩
    · exact ⟨rfl, Nat.succ_pos _, show 20 + rtFltMaxTranslateRules * oldFltAddSize ≤ frameSize by decide⟩
  exact ⟨hall.1, hall.2.1, hall.2.2, hrules hall.2.1 hall.1⟩

theorem rtForm_widen_image (U : Uapi) (f : Nat → UInt8) (k : Nat)
    (hleft : (rtForm U).left k = true → f k = 0) : (rtForm U).widen (rtImage U f) k = f k := by
  have hf := U.rt_fields
  simp only [rtForm, attrCommonSize] at hleft hf
  simp only [rtForm, rtImage, oldAttrSize]
  grind

theorem fltForm_widen_image (U : Uapi) (f : Nat → UInt8) (k : Nat)
    (hleft : (fltForm U).left k = true → f k = 0) : (fltForm U).widen (fltImage U f) k = f k := by
  have hf := U.flt_fields
  simp only [fltForm, attrCommonSize] at hleft hf
  simp only [fltForm, fltImage, oldAttrSize]
  grind

section
variable {s : AddSpec} {U : Uapi} {buf arg : Nat} {m m' : Mem}

theorem ruleForm_spec (hs : s ∈ plainSpecs U) :
    (∀ f g k, (∀ j, j < s.kind.ruleSize → f j = g j) →
      (ruleForm U s.req).widen f k = (ruleForm U s.req).widen g k) ∧
    ∀ f k, ((ruleForm U s.req).left k = true → f k = 0) → (ruleForm U s.req).widen (s.kind.image f) k = f k := by
  have hrt (f g : Nat → UInt8) (k : Nat) (h : ∀ j, j < oldRtRuleSize → f j = g j) :
      (rtForm U).widen f k = (rtForm U).widen g k := by
    simp only [oldRtRuleSize] at h
    simp only [rtForm, oldAttrSize]
    grind
  have hflt (f g : Nat → UInt8) (k : Nat) (h : ∀ j, j < oldFltRuleSize → f j = g j) :
      (fltForm U).widen f k = (fltForm U).widen g k := by
    simp only [oldFltRuleSize] at h
    simp only [fltForm, oldAttrSize]
    grind
  simp only [plainSpecs, List.mem_cons, List.not_mem_nil, or_false] at hs
  rcases hs with rfl | rfl | rfl | rfl
  · exact ⟨hrt, rtForm_widen_image U⟩
  · exact ⟨hrt, rtForm_widen_image U⟩
  · exact ⟨hflt, fltForm_widen_image U⟩
  · exact ⟨hflt, fltForm_widen_image U⟩

theorem AddFits.placed (hs : s ∈ plainSpecs U) (h : AddFits U buf s m arg) : s.Placed U buf m arg := by
  obtain ⟨hv, -, hle, hoff⟩ := plainSpecs_facts hs
  have h1 := h.header
  have h2 := h.rules
  refine ⟨?_, ?_⟩
  · unfold Apart at *
    omega
  · rw [AddSpec.newRules_plain hv, hoff]
    unfold Apart at *
    omega

theorem AddFits.accepts (hs : s ∈ plainSpecs U) (h : AddFits U buf s m arg) : s.accepts U m arg = true := by
  have hpos := h.pos
  refine AddSpec.accepts_iff.mpr ⟨h.arg_ne, by omega, h.le, fun hv => ?_⟩
  rw [(plainSpecs_facts hs).1] at hv
  exact Bool.noConfusion hv

theorem AddFits.header_same (h : AddFits U buf s m arg) (hag : AgreeOff buf m m') :
    Same m' arg m arg s.hdr := by
  intro k hk
  refine (hag _ ?_).symm
  have hap := h.header
  unfold Apart In at *
  omega

theorem AddFits.record_same (h : AddFits U buf s m arg) (hag : AgreeOff buf m m') (hi : i < s.numRules U m arg)
    (hk : k < s.kind.new.size) :
    m' (arg + s.hdr + i * s.kind.new.size + k) = m (arg + s.hdr + i * s.kind.new.size + k) := by
  refine (hag _ ?_).symm
  have hap := h.rules
  have hle := stride_le (S := s.kind.new.size) hi
  unfold Apart In at *
  omega

theorem AddFits.congr (hs : s ∈ plainSpecs U) (h : AddFits U buf s m arg) (hag : AgreeOff buf m m') :
    AddFits U buf s m' arg := by
  have hn := AddSpec.numRules_congr (U := U) (h.header_same hag) (plainSpecs_facts hs).2.1
  refine ⟨h.arg_ne, hn ▸ h.pos, hn ▸ h.le, h.header, hn ▸ h.rules, fun i hi k hk hleft => ?_⟩
  have h1 := s.kind.new.atRear_lt
  have h2 := s.kind.new.hdl_le
  have h3 := s.kind.new.status_le
  rw [h.record_same hag (hn ▸ hi) (by omega)]
  exact h.carried i (hn ▸ hi) k hk hleft

theorem ruleArgs_congr {v v' : RecordView} {p q ruleSize n : Nat}
    (hrule : ∀ i k, i < n → k < ruleSize →
      v'.rule (fun j => m' (q + i * v'.size + j)) k = v.rule (fun j => m (p + i * v.size + j)) k)
    (hrear : ∀ i, i < n → m' (q + i * v'.size + v'.atRear) = m (p + i * v.size + v.atRear)) :
    v'.ruleArgs ruleSize n m' q = v.ruleArgs ruleSize n m p := by
  refine List.map_congr_left fun i hi => ?_
  have hi' := List.mem_range.mp hi
  unfold RecordView.ruleArg
  rw [hrear i hi', List.map_congr_left fun k hk => hrule i k hi' (List.mem_range.mp hk)]

theorem newRec_plainSpec (hs : s ∈ plainSpecs U) (i : Nat) :
    s.newRec U m arg i = arg + s.hdr + i * s.kind.new.size := by
  obtain ⟨hv, -, -, hoff⟩ := plainSpecs_facts hs
  unfold AddSpec.newRec
  rw [AddSpec.newRules_plain hv, hoff]

theorem build_header_same (hs : s ∈ plainSpecs U) (h : AddFits U buf s m arg) :
    Same (s.build U buf arg m) buf m arg s.hdr := by
  obtain ⟨hv, -, -, -⟩ := plainSpecs_facts hs
  have hp := h.placed hs
  intro k hk
  rw [AddSpec.build_header hp h.le hk, AddSpec.putHeader_same hp.header hk (by simp [hv])]

theorem numRules_build (hs : s ∈ plainSpecs U) (h : AddFits U buf s m arg) :
    s.numRules U (s.build U buf arg m) buf = s.numRules U m arg := by
  obtain ⟨-, hpos, -, -⟩ := plainSpecs_facts hs
  have hlt := U.numRules_lt s.req (s.hdr_eq ▸ hpos)
  unfold AddSpec.numRules
  rw [build_header_same hs h _ (s.hdr_eq ▸ hlt)]

variable {ρ : Type} (E : RuleEngine ρ) (r : ρ)

theorem addAnswer_congr (hs : s ∈ plainSpecs U) (h : AddFits U buf s m arg) (hag : AgreeOff buf m m') :
    addAnswer E U (abiNew U) s r arg m' = addAnswer E U (abiNew U) s r arg m := by
  have hn := AddSpec.numRules_congr (U := U) (h.header_same hag) (plainSpecs_facts hs).2.1
  have h1 := s.kind.new.atRear_lt
  have h2 := s.kind.new.hdl_le
  have h3 := s.kind.new.status_le
  unfold addAnswer
  rw [hn, bytesAt_congr (h.header_same hag)]
  congr 1
  refine ruleArgs_congr (fun i k hi hk => ?_) fun i hi => ?_
  · exact h.record_same hag hi (show k < _ by omega)
  · exact h.record_same hag hi (show s.kind.new.atRear < _ by omega)

theorem widen_build (hs : s ∈ plainSpecs U) (h : AddFits U buf s m arg) (hi : i < s.numRules U m arg)
    (hk : k < s.kind.new.atRear) :
    (ruleForm U s.req).widen (fun j => s.build U buf arg m (s.oldRec buf i + j)) k =
      m (arg + s.hdr + i * s.kind.new.size + k) := by
  obtain ⟨hwiden, himage⟩ := ruleForm_spec hs
  have hrule (j : Nat) (hj : j < s.kind.ruleSize) := AddSpec.build_rule (h.placed hs) h.le hi hj
  rw [hwiden _ _ k hrule, newRec_plainSpec hs]
  exact himage _ k (h.carried i hi k hk)

theorem addAnswer_build (hs : s ∈ plainSpecs U) (h : AddFits U buf s m arg) :
    addAnswer E U (abi02300 U) s r buf (s.build U buf arg m) = addAnswer E U (abiNew U) s r arg m := by
  have hp := h.placed hs
  unfold addAnswer
  rw [numRules_build hs h, bytesAt_congr (build_header_same hs h)]
  congr 1
  refine ruleArgs_congr (fun i k hi hk => ?_) fun i hi => ?_
  · exact widen_build hs h hi hk
  · exact (AddSpec.build_atRear hp h.le hi).trans (by rw [newRec_plainSpec hs]; rfl)

def resultsOf (answer : Int × Option (Nat → RuleResult) × ρ) : Nat → RuleResult :=
  answer.2.1.getD fun _ => clearedResult

theorem serveAdd_new : (serveAdd E U (abiNew U) s r arg m).2.1 =
    s.kind.newView.putResults (s.numRules U m arg) (arg + s.hdr)
      (resultsOf (addAnswer E U (abiNew U) s r arg m)) m := by
  unfold serveAdd resultsOf
  dsimp only
  cases (addAnswer E U (abiNew U) s r arg m).2.1 with
  | none => rfl
  | some res => rfl

section
variable (hs : s ∈ plainSpecs U) (h : AddFits U buf s m arg)
include hs h

theorem serveAdd_old_results (hi : i < s.numRules U m arg) (hk : k < 4) :
    (serveAdd E U (abi02300 U) s r buf (s.build U buf arg m)).2.1 (s.oldRec buf i + s.kind.oldHdl + k) =
      (resultsOf (addAnswer E U (abiNew U) s r arg m) i).hdl k ∧
    (serveAdd E U (abi02300 U) s r buf (s.build U buf arg m)).2.1 (s.oldRec buf i + s.kind.oldStatus + k) =
      (resultsOf (addAnswer E U (abiNew U) s r arg m) i).status k := by
  have hf := s.kind.old_fields
  have hp := h.placed hs
  unfold serveAdd resultsOf
  dsimp only
  rw [addAnswer_build E r hs h, numRules_build hs h]
  cases (addAnswer E U (abiNew U) s r arg m).2.1 with
  | none =>
    show s.build U buf arg m _ = 0 ∧ s.build U buf arg m _ = 0
    rw [Nat.add_assoc, Nat.add_assoc]
    exact ⟨AddSpec.build_rest hp h.le hi (by omega) (by omega) (by omega),
      AddSpec.build_rest hp h.le hi (by omega) (by omega) (by omega)⟩
  | some res =>
    exact ⟨RecordView.putResults_hdl (v := s.kind.oldView (ruleForm U s.req)) _ _ _ _ hi hk,
      RecordView.putResults_status (v := s.kind.oldView (ruleForm U s.req)) _ _ _ _ hi hk⟩

theorem serveAdd_old_outside (ha : ¬ In buf frameSize a) :
    (serveAdd E U (abi02300 U) s r buf (s.build U buf arg m)).2.1 a = m a := by
  obtain ⟨-, -, hle, -⟩ := plainSpecs_facts hs
  have hout : ¬ In buf s.bufSize a := by unfold In at *; omega
  have hbuild : s.build U buf arg m a = m a := AddSpec.build_outside (h.placed hs) h.le hout
  unfold serveAdd
  dsimp only
  rw [numRules_build hs h]
  cases (addAnswer E U (abi02300 U) s r buf (s.build U buf arg m)).2.1 with
  | none => exact hbuild
  | some res =>
    have hmono := stride_mono (S := s.kind.oldSize) h.le
    refine ((RecordView.putResults_record (v := s.kind.oldView (ruleForm U s.req)) _ _ _ _).2 a ?_).trans hbuild
    show ¬ In (buf + s.hdr) (s.numRules U m arg * s.kind.oldSize) a
    unfold AddSpec.bufSize at hout
    unfold In at *
    omega

end

/-- A request that the bridge has rebuilt is served by the old kernel as it
would be by a new one: the same value, the same rules, and the same results in
the caller's memory. -/
theorem bridged_add (hs : s ∈ plainSpecs U) (h : AddFits U buf s m arg) (hag : AgreeOff buf m m') :
    let old := serveAdd E U (abi02300 U) s r buf (s.build U buf arg m)
    let new := serveAdd E U (abiNew U) s r arg m'
    old.1 = new.1 ∧ old.2.2 = new.2.2 ∧
      AgreeOff buf (s.copyBack buf (s.newRules U m arg) (s.numRules U m arg) old.2.1) new.2.1 := by
  have hp := h.placed hs
  have hnew := addAnswer_congr E r hs h hag
  have hans := (addAnswer_build E r hs h).trans hnew.symm
  have hnum := AddSpec.numRules_congr (U := U) (h.header_same hag) (plainSpecs_facts hs).2.1
  have hret := congrArg Prod.fst hans
  have hrules := congrArg (fun answer => answer.2.2) hans
  refine ⟨hret, hrules, fun a ha => ?_⟩
  rw [serveAdd_new, hnew, hnum]
  by_cases hres : s.ResultByte U m arg a
  · obtain ⟨i, hi, hin | hin⟩ := hres
    · obtain ⟨k, hk, rfl⟩ : ∃ k, k < 4 ∧ a = s.newRec U m arg i + s.kind.new.hdl + k :=
        ⟨a - (s.newRec U m arg i + s.kind.new.hdl), by unfold In at hin; omega, by unfold In at hin; omega⟩
      rw [AddSpec.copyBack_hdl hp h.le _ hi k hk, (serveAdd_old_results E r hs h hi hk).1, newRec_plainSpec hs]
      exact (RecordView.putResults_hdl (v := s.kind.newView) _ _ _ _ hi hk).symm
    · obtain ⟨k, hk, rfl⟩ : ∃ k, k < 4 ∧ a = s.newRec U m arg i + s.kind.new.status + k :=
        ⟨a - (s.newRec U m arg i + s.kind.new.status), by unfold In at hin; omega, by unfold In at hin; omega⟩
      rw [AddSpec.copyBack_status hp h.le _ hi k hk, (serveAdd_old_results E r hs h hi hk).2, newRec_plainSpec hs]
      exact (RecordView.putResults_status (v := s.kind.newView) _ _ _ _ hi hk).symm
  · rw [AddSpec.copyBack_elsewhere hp h.le _ hres, serveAdd_old_outside E r hs h ha, hag a ha]
    refine (RecordView.putResults_elsewhere (v := s.kind.newView) _ _ _ _ fun i hi => ?_).symm
    have hrec : s.newRec U m arg i = arg + s.hdr + i * s.kind.new.size := newRec_plainSpec hs i
    exact ⟨fun hin => hres ⟨i, hi, .inl (hrec ▸ hin)⟩, fun hin => hres ⟨i, hi, .inr (hrec ▸ hin)⟩⟩

-- ---------------------------------------------------------------------------
-- A rebuilt GENERATE_FLT_EQ
-- ---------------------------------------------------------------------------

/-- The attributes go no further than the bridge carries them. -/
structure GenEqFits (U : Uapi) (buf : Nat) (m : Mem) (arg : Nat) : Prop where
  arg_ne : arg ≠ 0
  apart : Apart buf frameSize arg U.genEqSize
  carried : ∀ k, attrCommonSize ≤ k → U.genEqAttrib + k < U.genEqEq → m (arg + U.genEqAttrib + k) = 0

theorem GenEqFits.placed (h : GenEqFits U buf m arg) : Apart buf oldGenEqSize arg U.genEqSize := by
  have hle : oldGenEqSize ≤ frameSize := by decide
  have hap := h.apart
  unfold Apart at *
  omega

theorem GenEqFits.same (h : GenEqFits U buf m arg) (hag : AgreeOff buf m m') (hk : k < U.genEqSize) :
    m' (arg + k) = m (arg + k) := by
  refine (hag _ ?_).symm
  have hap := h.apart
  unfold Apart In at *
  omega

theorem GenEqFits.congr (h : GenEqFits U buf m arg) (hag : AgreeOff buf m m') : GenEqFits U buf m' arg := by
  have hf := U.genEq_fields
  refine ⟨h.arg_ne, h.apart, fun k hk hin => ?_⟩
  rw [Nat.add_assoc, h.same hag (by omega), ← Nat.add_assoc]
  exact h.carried k hk hin

theorem genEqAnswer_build (h : GenEqFits U buf m arg) (hag : AgreeOff buf m m') :
    genEqAnswer E U (abi02300 U) r buf (genEqBuild U buf arg m) = genEqAnswer E U (abiNew U) r arg m' := by
  have hf := U.genEq_fields
  have hword : Same (genEqBuild U buf arg m) buf m' arg 4 := by
    intro k hk
    rw [genEqBuild_apply h.placed, if_pos ⟨by omega, by omega⟩, Nat.add_sub_cancel_left]
    exact (h.same hag (by omega)).symm
  unfold genEqAnswer
  rw [bytesAt_congr hword]
  congr 1
  refine List.map_congr_left fun k hk => ?_
  have hk' := List.mem_range.mp hk
  have hnew := h.same hag (k := U.genEqAttrib + k) (by omega)
  rw [← Nat.add_assoc] at hnew
  have hleft (hc : attrCommonSize ≤ k) := h.carried k hc (by omega)
  show (if k < oldAttrSize then genEqBuild U buf arg m (buf + oldGenEqAttr + k) else 0) =
    m' (arg + U.genEqAttrib + k)
  rw [hnew, genEqBuild_apply h.placed]
  simp only [oldAttrSize, attrCommonSize, In, oldGenEqAttr, oldGenEqSize] at hleft ⊢
  grind

theorem bridged_genEq (h : GenEqFits U buf m arg) (hag : AgreeOff buf m m') :
    let old := serveGenerateFltEq E U (abi02300 U) r buf (genEqBuild U buf arg m)
    let new := serveGenerateFltEq E U (abiNew U) r arg m'
    old.1 = new.1 ∧ old.2.2 = new.2.2 ∧
      AgreeOff buf
        (if 0 ≤ old.1 then memCopy (arg + U.genEqEq) (buf + oldGenEqEq) 184 old.2.1 else old.2.1) new.2.1 := by
  have hf := U.genEq_fields
  have hans := genEqAnswer_build E r h hag
  have hret := congrArg Prod.fst hans
  have hrules := congrArg (fun answer => answer.2.2) hans
  refine ⟨hret, hrules, fun a ha => ?_⟩
  have hout : ¬ In buf oldGenEqSize a := by
    have hle : oldGenEqSize ≤ frameSize := by decide
    unfold In at *
    omega
  have hbuild := genEqBuild_outside (m := m) h.placed hout
  have hcopy : Apart (arg + U.genEqEq) 184 (buf + oldGenEqEq) 184 := by
    have hap := h.placed
    simp only [Apart, oldGenEqSize, oldGenEqEq] at *
    omega
  unfold serveGenerateFltEq
  dsimp only
  rw [hans]
  generalize genEqAnswer E U (abiNew U) r arg m' = answer
  by_cases hok : 0 ≤ answer.1
  · rw [if_pos hok, if_pos hok, if_pos hok, memCopy_apply _ _ _ _ _ hcopy]
    show (if In (arg + U.genEqEq) 184 a then memPut (buf + oldGenEqEq) answer.2.1 184 (genEqBuild U buf arg m) _
      else memPut (buf + oldGenEqEq) answer.2.1 184 (genEqBuild U buf arg m) a) =
      memPut (arg + U.genEqEq) answer.2.1 184 m' a
    rw [memPut_apply, memPut_apply, memPut_apply]
    by_cases hin : In (arg + U.genEqEq) 184 a
    · rw [if_pos hin, if_pos hin, if_pos (by unfold In at *; omega), Nat.add_sub_cancel_left]
    · have hbuf : ¬ In (buf + oldGenEqEq) 184 a := by simp only [In, oldGenEqSize, oldGenEqEq] at *; omega
      rw [if_neg hin, if_neg hin, if_neg hbuf, hbuild, hag a ha]
  · rw [if_neg hok, if_neg hok, if_neg hok, hbuild, hag a ha]

-- ---------------------------------------------------------------------------
-- Dispatch
-- ---------------------------------------------------------------------------

def IpaCall (U : Uapi) (fd : Int) (request : Nat) (q : IpaIoctl) : Prop :=
  iocType request = U.magic ∧ E.isIpa fd = true ∧ iocNr request = U.nr q

variable (abi : Abi) {fd : Int} {request : Nat}

theorem kernelIoctl_add (hs : s ∈ plainSpecs U) (h : IpaCall E U fd request s.req) :
    kernelIoctl E U abi r fd request arg m = serveAdd E U abi s r arg m := by
  have hfind : ((plainSpecs U).find? fun t => U.nr t.req = iocNr request) = some s := by
    rw [h.2.2]
    simp only [plainSpecs, List.mem_cons, List.not_mem_nil, or_false] at hs
    rcases hs with rfl | rfl | rfl | rfl <;>
      simp [plainSpecs, U.nr_eq_iff, addRtSpec, addRtAfterSpec, addFltSpec, addFltAfterSpec]
  unfold kernelIoctl
  rw [if_pos ⟨h.1, h.2.1⟩, hfind]

theorem kernelIoctl_not_add (h : ∀ s ∈ plainSpecs U, ¬ IpaCall E U fd request s.req)
    (hipa : iocType request = U.magic ∧ E.isIpa fd = true) :
    ((plainSpecs U).find? fun t => U.nr t.req = iocNr request) = none := by
  refine List.find?_eq_none.mpr fun t ht heq => ?_
  exact h t ht ⟨hipa.1, hipa.2, (of_decide_eq_true heq).symm⟩

theorem kernelIoctl_genEq (h : IpaCall E U fd request .generateFltEq) :
    kernelIoctl E U abi r fd request arg m = serveGenerateFltEq E U abi r arg m := by
  have hadd : ∀ t ∈ plainSpecs U, ¬ IpaCall E U fd request t.req := fun t ht hcall =>
    addSpecs_req_ne (plainSpecs_sub ht) (U.nr_inj _ _ (hcall.2.2.symm.trans h.2.2))
  unfold kernelIoctl
  rw [if_pos ⟨h.1, h.2.1⟩, kernelIoctl_not_add E hadd ⟨h.1, h.2.1⟩]
  exact if_pos h.2.2

theorem kernelIoctl_other (hadd : ∀ s ∈ plainSpecs U, ¬ IpaCall E U fd request s.req)
    (hgen : ¬ IpaCall E U fd request .generateFltEq) :
    kernelIoctl E U abi r fd request arg m = E.other r fd request arg m := by
  unfold kernelIoctl
  by_cases hipa : iocType request = U.magic ∧ E.isIpa fd = true
  · rw [if_pos hipa, kernelIoctl_not_add E hadd hipa]
    exact if_neg fun hnr => hgen ⟨hipa.1, hipa.2, hnr⟩
  · exact if_neg hipa

end

end IpaOffload.Bridge
